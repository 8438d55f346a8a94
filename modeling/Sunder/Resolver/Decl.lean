import Sunder.Resolver.Typespec

/-!
# Declarations

The `resolve_decl_*` functions of `resolve.c`, `complete_struct` and `complete_function`. They
share one pattern: resolve the typespec and the initializer, cast the initializer implicitly,
check its type, reserve an address, make the symbol, insert it into the current table and
register it when it is static. Static initializers and constants are evaluated by `evalRvalue`.

Three state fields are set and restored around nested work: `complete_struct` and
`resolve_decl_extend` save and restore the static-address prefix and the current table, and
`resolve_decl_constant` sets `is_within_const_decl` on entry and clears it on exit.
-/

namespace Sunder

/-- `check_type_compatibility(location, actual, expected)`: pointer identity of canonical types,
structural equality here. -/
def checkTypeCompatibility (actual expected : Ty) : ResolveM Unit :=
  if actual = expected then pure ()
  else fatal s!"incompatible type `{actual.name}` (expected `{expected.name}`)"

@[simp] theorem checkTypeCompatibility_ok {actual expected : Ty} {s s' : Resolver} {u : Unit} :
    checkTypeCompatibility actual expected s = .ok (u, s') ↔ actual = expected ∧ s = s' := by
  unfold checkTypeCompatibility
  split_ifs with h <;> simp [h]

/-- `resolver_is_global`: outside every function. -/
def isGlobal : ResolveM Bool := do pure (← get).currentFunction.isNone

/-- The size of a type in the current state. -/
def sizeOf (t : Ty) : ResolveM Nat := do pure (t.size (← get).structSize)

/-- `eval_rvalue` in the current state. -/
def evalNow (e : Expr) : ResolveM Value := do evalRvalue (← get).structSize e

theorem evalNow_of_ok {e : Expr} {v : Value} {s : Resolver} (h : evalRvalue s.structSize e = .ok v) :
    evalNow e s = .ok (v, s) :=
  ResolveM.bind_ok.2 ⟨s, s, rfl, ResolveM.lift_ok.2 ⟨h, rfl⟩⟩

/-- The current symbol table. -/
def currentTable : ResolveM Nat := do pure (← get).currentSymbolTable

/-- `symbol_new_variable`, with its assertion that a static variable has a value. -/
def symbolNewVariable (name : String) (t : Ty) (a : Address) (v : Option Value) :
    ResolveM Nat := do
  require (!(a matches .static _ _) || v.isSome) "symbol_new_variable"
  newSymbol ⟨name, .variable t a v⟩

/-! ## Variables and constants -/

/-- `resolve_decl_variable`: the symbol, the identifier expression and the cast initializer (the
`lhs` and `rhs` out-parameters). A global variable is static and its initializer is evaluated;
a local one gets a stack slot. -/
def resolveDeclVariable (r : Resolvers) (name : String) (ts : Option CstTypespec) (e : CstExpr) :
    ResolveM (Nat × Expr × Expr) := do
  let expr ← r.expr e
  let t ← match ts with
    | some ts => r.typespec ts
    | none => pure expr.type
  if (← sizeOf t) = sizeofUnsized then
    fatal s!"declaration of variable with unsized type `{t.name}`"
  let expr ← shallowImplicitCast t expr
  checkTypeCompatibility expr.type t
  let isStatic ← isGlobal
  let value ← if isStatic then some <$> evalNow expr else pure none
  let address ← if isStatic then reserveStorageStatic name else reserveStorageLocal t
  let n ← symbolNewVariable name t address value
  symbolTableInsert (← currentTable) name n
  if isStatic then registerStaticSymbol n
  pure (n, .symbol ⟨name, .variable t address value⟩, expr)

/-- The work of `resolve_decl_constant` between its two writes of `is_within_const_decl`: the
initializer is evaluated and the constant gets a static address. -/
def constantSymbol (r : Resolvers) (name : String) (ts : Option CstTypespec) (e : CstExpr) :
    ResolveM Nat := do
  let expr ← r.expr e
  let t ← match ts with
    | some ts => r.typespec ts
    | none => pure expr.type
  if (← sizeOf t) = sizeofUnsized then
    fatal s!"declaration of constant with unsized type `{t.name}`"
  let expr ← shallowImplicitCast t expr
  checkTypeCompatibility expr.type t
  let value ← evalNow expr
  let address ← reserveStorageStatic name
  let n ← newSymbol ⟨name, .constant t address value⟩
  symbolTableInsert (← currentTable) name n
  registerStaticSymbol n
  pure n

/-- `resolve_decl_constant`: `is_within_const_decl` is set on entry and set to `false` on exit. -/
def resolveDeclConstant (r : Resolvers) (name : String) (ts : Option CstTypespec) (e : CstExpr) :
    ResolveM Nat := do
  modify fun s => { s with isWithinConstDecl := true }
  let n ← constantSymbol r name ts e
  modify fun s => { s with isWithinConstDecl := false }
  pure n

/-- `resolve_decl_constant` leaves `is_within_const_decl` cleared, whatever it was on entry: a
constant resolved inside the initializer of another constant (a member constant of a template
instance) ends the outer constant's flag early. -/
theorem resolveDeclConstant_clears_isWithinConstDecl {r : Resolvers} {name : String}
    {ts : Option CstTypespec} {e : CstExpr} {n : Nat} {s s' : Resolver}
    (h : resolveDeclConstant r name ts e s = .ok (n, s')) : s'.isWithinConstDecl = false := by
  simp only [resolveDeclConstant, ResolveM.bind_ok, ResolveM.modify_ok, ResolveM.pure_ok] at h
  obtain ⟨_, _, -, _, _, -, _, _, rfl, -, rfl⟩ := h
  rfl

/-! ## Functions -/

/-- The parameter types of a function declaration, each sized. -/
def resolveParameterTypes (r : Resolvers) (params : List (String × CstTypespec)) :
    ResolveM (List Ty) :=
  params.mapM fun (_, ts) => do
    let t ← r.typespec ts
    if (← sizeOf t) = sizeofUnsized then
      fatal s!"declaration of function parameter with unsized type `{t.name}`"
    pure t

/-- The return type of a function declaration, sized. -/
def resolveReturnType (r : Resolvers) (ts : CstTypespec) : ResolveM Ty := do
  let t ← r.typespec ts
  if (← sizeOf t) = sizeofUnsized then
    fatal s!"declaration of function with unsized return type `{t.name}`"
  pure t

/-- `function_new`, `value_new_function` and `symbol_new_function`: a function with a static
address, registered in the arena, and its symbol. -/
def functionNew (name : String) (t : Ty) (a : Address) : ResolveM (Nat × Nat) := do
  let f ← modifyGet fun s => (s.functions.length,
    { s with functions := s.functions ++ [⟨name, t, a, [], 0, 0, none, 0⟩] })
  let n ← newSymbol ⟨name, .function t a (.function t f)⟩
  pure (f, n)

/-- The parameter symbols, from the last parameter to the first: slots start at `rbp + 16` and
each takes `(int)ceil8zu(size)` bytes. Returns the offset after the first parameter. -/
def parameterSlots : List (String × Ty) → Int → ResolveM (List Nat × Int)
  | [], rbp => pure ([], rbp)
  | (name, t) :: ps, rbp => do
    let (syms, rbp) ← parameterSlots ps rbp
    let n ← symbolNewVariable name t (.local_ rbp) none
    let rbp ← intChecked (rbp + toInt32 (ceil8zu (← sizeOf t))) "resolve_decl_function: rbp_offset"
    pure (n :: syms, rbp)

/-- The template symbol of a declaration with template parameters: its cache is a new table. -/
def templateSymbol (name : String) (decl : CstDecl) : ResolveM Nat := do
  let s ← get
  let symbols ← symbolTableNew (some s.currentSymbolTable)
  let n ← newSymbol ⟨name, .template decl s.currentStaticAddrPrefix s.currentSymbolTable symbols⟩
  symbolTableInsert (← currentTable) name n
  pure n

/-- `resolve_decl_function`: the function type, a static address, the symbol (inserted before
the body so that the function may call itself), the parameter and return slots, and the body
left for `complete_function`. -/
def resolveDeclFunction (r : Resolvers) (decl : CstDecl) : ResolveM Nat := do
  match decl with
  | .function name tparams params ret _ =>
    if !tparams.isEmpty then return ← templateSymbol name decl
    let pts ← resolveParameterTypes r params
    let rt ← resolveReturnType r ret
    let ft ← typeUniqueFunction pts rt
    let address ← reserveStorageStatic name
    let (f, n) ← functionNew name ft address
    symbolTableInsert (← currentTable) name n
    registerStaticSymbol n
    let (psyms, rbp) ← parameterSlots (params.map (·.1) |>.zip pts) 0x10
    let table ← symbolTableNew (some (← currentTable))
    (params.zip psyms).forM fun (p, n) => symbolTableInsert table p.1 n
    let ret ← symbolNewVariable "return" rt (.local_ rbp) none
    symbolTableInsert table "return" ret
    modify fun s => { s with
      functions := s.functions.modify (fun fn =>
        { fn with symbolParameters := psyms, symbolReturn := ret, symbolTable := table }) f
      incompleteFunctions := s.incompleteFunctions ++ [⟨decl, f, table⟩] }
    pure n
  | _ => throw (.internal "resolve_decl_function")

/-! ## Structs -/

/-- `type_new_struct(name, symbols)`: a struct type with no members yet. -/
def typeNewStruct (name : String) (symbols : Nat) : ResolveM Ty :=
  modifyGet fun s => (.struct_ name s.structs.length,
    { s with structs := s.structs ++ [⟨name, symbols, [], 0, 0⟩] })

/-- The name of a struct member. -/
def CstMember.name : CstMember → String
  | .variable n _ => n
  | .constant d | .function d => d.name

/-- The first member named like an earlier one (the duplicate check of `resolve_decl_struct`). -/
def firstDuplicate : List CstMember → Option CstMember
  | [] => none
  | m :: ms => match ms.find? (·.name = m.name) with
    | some d => some d
    | none => firstDuplicate ms

/-- The members of a struct that passes the duplicate check have distinct names. -/
theorem firstDuplicate_eq_none_iff :
    ∀ {ms : List CstMember}, firstDuplicate ms = none ↔ (ms.map (·.name)).Nodup
  | [] => by simp [firstDuplicate]
  | m :: ms => by
    rw [List.map_cons, List.nodup_cons, ← firstDuplicate_eq_none_iff]
    cases hf : ms.find? (·.name = m.name) with
    | none =>
      have hm : m.name ∉ ms.map (·.name) := fun h => by
        obtain ⟨d, hd, hdm⟩ := List.mem_map.1 h
        exact List.find?_eq_none.1 hf d hd (decide_eq_true hdm)
      simp only [firstDuplicate, hf, hm, not_false_eq_true, true_and]
    | some d =>
      simp only [firstDuplicate, hf, reduceCtorEq, false_iff, not_and]
      exact fun h => absurd (List.mem_map.2 ⟨d, List.mem_of_find?_eq_some hf,
        by simpa using List.find?_some hf⟩) h

/-- `resolve_decl_struct`: a template symbol, or a struct type named by the declaration's bare
name, with its member table, inserted into the current table; members are added by
`complete_struct`. -/
def resolveDeclStruct (decl : CstDecl) : ResolveM Nat := do
  match decl with
  | .struct_ name tparams members =>
    if !tparams.isEmpty then return ← templateSymbol name decl
    let symbols ← symbolTableNew (some (← currentTable))
    let t ← typeNewStruct name symbols
    let n ← newSymbol ⟨t.name, .type t⟩
    symbolTableInsert (← currentTable) t.name n
    if let some d := firstDuplicate members then
      fatal s!"duplicate definition of member `{d.name}`"
    pure n
  | _ => throw (.internal "resolve_decl_struct")

/-- Modelled from the spec: `type_struct_add_member_variable` (not under `src/`). The member is
placed at the struct's size rounded up to the member's alignment; the struct grows to its end
and takes the larger alignment. -/
def typeStructAddMemberVariable (id : Nat) (name : String) (t : Ty) : ResolveM Unit :=
  modify fun s =>
    let roundUp (x a : Nat) : Nat := if a = 0 then x else (x + a - 1) / a * a
    { s with structs := s.structs.modify (fun st =>
      let offset := roundUp st.size (t.align s.structAlign)
      { st with
        memberVariables := st.memberVariables ++ [⟨name, t, offset⟩]
        size := offset + t.size s.structSize
        align := max st.align (t.align s.structAlign) }) id }

/-- `complete_struct`: the members in declaration order, with the static-address prefix set to
the normalized type name and the current table set to the struct's table, both restored after. -/
def completeStruct (r : Resolvers) (sym : Nat) (decl : CstDecl) : ResolveM Unit := do
  let symbol ← getSymbol sym
  match symbol.data, decl with
  | .type (.struct_ tname id), .struct_ dname _ members => do
    require (symbol.name = dname) "complete_struct: name"
    let s ← get
    let table ← match s.structs[id]? with
      | some st => pure st.symbols
      | none => throw (.internal "complete_struct: type")
    let pfx ← normalize none tname 0
    modify fun s => { s with currentStaticAddrPrefix := some pfx, currentSymbolTable := table }
    members.forM fun
      | .variable name ts => do typeStructAddMemberVariable id name (← r.typespec ts)
      | .constant (.constant name ts e) => discard <| resolveDeclConstant r name ts e
      | .function d => discard <| resolveDeclFunction r d
      | .constant _ => throw (.internal "complete_struct: constant")
    modify fun s' => { s' with
      currentStaticAddrPrefix := s.currentStaticAddrPrefix
      currentSymbolTable := s.currentSymbolTable }
  | _, _ => throw (.internal "complete_struct")

/-! ## Extensions, aliases and externs -/

/-- The member table of a type, made when the first member is added to a non-struct type. -/
def typeSymbolsOrNew (t : Ty) : ResolveM Nat := do
  match (← get).typeSymbols t with
  | some table => pure table
  | none =>
    let table ← symbolTableNew none
    modify fun s => { s with typeTables := s.typeTables ++ [(t, table)] }
    pure table

/-- `resolve_decl_extend`: the constant or function is resolved in a table of its own, with the
static-address prefix set to the normalized type name, and added to the type's member table. -/
def resolveDeclExtend (r : Resolvers) (name : String) (ts : CstTypespec) (d : CstDecl) :
    ResolveM Nat := do
  unless d matches .constant _ _ _ || d matches .function _ _ _ _ _ do
    fatal "type extension declaration must be a constant or function"
  let t ← r.typespec ts
  let table ← symbolTableNew (some (← currentTable))
  let s ← get
  let pfx ← normalize none t.name 0
  modify fun s => { s with currentStaticAddrPrefix := some pfx, currentSymbolTable := table }
  let sym ← r.decl d
  symbolTableInsert (← typeSymbolsOrNew t) name sym
  modify fun s' => { s' with
    currentStaticAddrPrefix := s.currentStaticAddrPrefix
    currentSymbolTable := s.currentSymbolTable }
  pure sym

/-- `resolve_decl_alias`: a type symbol (named by the type) inserted under the alias name. -/
def resolveDeclAlias (r : Resolvers) (name : String) (ts : CstTypespec) : ResolveM Nat := do
  let t ← r.typespec ts
  let n ← newSymbol ⟨t.name, .type t⟩
  symbolTableInsert (← currentTable) name n
  pure n

/-- `resolve_decl_extern_variable`: a static variable without a value. -/
def resolveDeclExternVariable (r : Resolvers) (name : String) (ts : CstTypespec) :
    ResolveM Nat := do
  require (← isGlobal) "resolve_decl_extern_variable"
  let t ← r.typespec ts
  if (← sizeOf t) = sizeofUnsized then
    fatal s!"declaration of extern variable with unsized type `{t.name}`"
  let address ← reserveStorageStatic name
  let n ← symbolNewVariable name t address none
  symbolTableInsert (← currentTable) name n
  registerStaticSymbol n
  pure n

/-- `resolve_decl_extern_function`: a function with a static address and no body. -/
def resolveDeclExternFunction (r : Resolvers) (name : String) (params : List (String × CstTypespec))
    (ret : CstTypespec) : ResolveM Nat := do
  require (← isGlobal) "resolve_decl_extern_function"
  let pts ← resolveParameterTypes r params
  let rt ← resolveReturnType r ret
  let ft ← typeUniqueFunction pts rt
  let address ← reserveStorageStatic name
  let (_, n) ← functionNew name ft address
  symbolTableInsert (← currentTable) name n
  registerStaticSymbol n
  pure n

/-- `resolve_decl`. Top-level structs are resolved before the other declarations, so a struct
here is `UNREACHABLE()`. -/
def resolveDecl (r : Resolvers) : CstDecl → ResolveM Nat
  | .variable name ts e => do pure (← resolveDeclVariable r name ts e).1
  | .constant name ts e => resolveDeclConstant r name ts e
  | d@(.function _ _ _ _ _) => resolveDeclFunction r d
  | .struct_ _ _ _ => throw (.internal "resolve_decl: struct")
  | .extend name ts d => resolveDeclExtend r name ts d
  | .alias name ts => resolveDeclAlias r name ts
  | .externVariable name ts => resolveDeclExternVariable r name ts
  | .externFunction name params ret => resolveDeclExternFunction r name params ret

/-! ## Function bodies -/

/-- Whether a block ends with a return statement. -/
def Block.endsWithReturn : Block → Bool
  | .mk _ stmts _ _ => stmts.getLast? matches some (.return_ _ _)

/-- `complete_function`: the body is resolved from the initial defer scope (its assertion
`!is_within_loop` holds there), with the function current and the static-address prefix set to
the function's name; a function with a non-void return type must end with a return statement. -/
def completeFunction (r : Resolvers) (inc : IncompleteFunction) : ResolveM Unit := do
  let s ← get
  require (s.currentFunction.isNone && s.currentRbpOffset == 0) "complete_function: entry"
  let fn ← match s.functions[inc.function]? with
    | some fn => pure fn
    | none => throw (.internal "complete_function")
  let pfx ← match fn.address with
    | .static name _ => pure name
    | .local_ _ => throw (.internal "complete_function: address")
  let body ← match inc.decl with
    | .function _ _ _ _ body => pure body
    | _ => throw (.internal "complete_function: decl")
  modify fun s => { s with currentStaticAddrPrefix := some pfx, currentFunction := some inc.function }
  let block ← runBody (r.block inc.symbolTable body)
  modify fun s' => { s' with
    currentStaticAddrPrefix := s.currentStaticAddrPrefix
    currentFunction := none
    functions := s'.functions.modify (fun fn => { fn with body := some block }) inc.function }
  require ((← get).currentRbpOffset == 0) "complete_function: exit"
  let returnsVoid := match fn.type with
    | .function _ .void => true
    | _ => false
  if !returnsVoid && !block.endsWithReturn then
    fatal "Non-void-returning function does not end with a return statement"

end Sunder
