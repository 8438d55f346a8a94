import Sunder.Registry
import Sunder.Resolver.Storage

/-!
# Names and typespecs

The resolver's functions call each other recursively through `resolve_expr`,
`resolve_typespec`, `xget_template_instance`, `resolve_decl` and `resolve_block`. Each function
of the model takes these five entry points as a record `Resolvers` and calls them through it;
`resolvers n` (`Sunder/Resolver/Module.lean`) ties the knot with `n` nested calls. A property of
the whole resolver is then proved once per function, for any record that has it, and by
induction on `n`.

This module holds `xgetSymbol` (`xget_symbol`), the lookup of a qualified name, and
`resolveTypespec` (`resolve_typespec`), with the member tables of types that both read.
`xgetSymbolLoop_namespace` and `xgetSymbolLoop_template` are two steps of the lookup's loop:
after a namespace, and after a template.
-/

namespace Sunder

/-- The entry points the resolver's functions call recursively. -/
structure Resolvers where
  expr : CstExpr → ResolveM Expr
  typespec : CstTypespec → ResolveM Ty
  templateInstance : Nat → List CstTypespec → ResolveM Nat
  decl : CstDecl → ResolveM Nat
  block : Nat → List CstStmt → StmtM Block

/-! ## Member tables of types -/

namespace Resolver

/-- The alignment of each struct declaration, as `Ty.align` reads it. -/
def structAlign (s : Resolver) (id : Nat) : Nat := (s.structs[id]?.map (·.align)).getD 0

/-- Modelled from the spec: `type->symbols`, the member table of a type (`src/tir.c` has none).
A struct's table is the one `resolve_decl_struct` made; another type gets its table when the
first member is added to it (`typeTables`). -/
def typeSymbols (s : Resolver) (t : Ty) : Option Nat :=
  match t with
  | .struct_ _ id => s.structs[id]?.map (·.symbols)
  | _ => (s.typeTables.find? (·.1 = t)).map (·.2)

/-- Modelled from the spec: `type_member_symbol(type, name)`. -/
def typeMemberSymbol (s : Resolver) (t : Ty) (name : String) : Option Nat :=
  (s.typeSymbols t).bind (s.lookupLocal · name)

/-- Modelled from the spec: `type_struct_member_variable(type, name)`. -/
def typeStructMemberVariable (s : Resolver) (t : Ty) (name : String) : Option MemberVariable :=
  match t with
  | .struct_ _ id => s.structs[id]?.bind (·.memberVariables.find? (·.name = name))
  | _ => none

end Resolver

/-- Stop with a diagnostic when the value is absent. -/
def orFatal {α : Type} (msg : String) : Option α → ResolveM α
  | some a => pure a
  | none => fatal msg

/-! ## Qualified names -/

/-- `xget_template_instance` when the element has template arguments, else the symbol. -/
def instantiateIf (r : Resolvers) (sym : Nat) (targs : List CstTypespec) : ResolveM Nat :=
  if targs.isEmpty then pure sym else r.templateInstance sym targs

/-- The loop of `xget_symbol` over the elements after the first: `lhs` is the symbol reached so
far and `symbol` the last one looked up in a namespace or type. A template is instantiated with
the arguments of the next element, whose name is not read, and `symbol` is left as it was. -/
def xgetSymbolLoop (r : Resolvers) : Nat → Option Nat → List CstSymbolElement →
    ResolveM (Option Nat)
  | _, symbol, [] => pure symbol
  | lhs, symbol, .mk name targs :: rest => do
    let l ← getSymbol lhs
    let s ← get
    match l.data with
    | .namespace_ table =>
      let sym ← orFatal s!"use of undeclared identifier `{name}` within `{l.name}`"
        (s.lookupLocal table name)
      let sym ← instantiateIf r sym targs
      xgetSymbolLoop r sym (some sym) rest
    | .type t =>
      let sym ← orFatal s!"use of undeclared identifier `{name}` within `{l.name}`"
        (s.typeMemberSymbol t name)
      let sym ← instantiateIf r sym targs
      xgetSymbolLoop r sym (some sym) rest
    | .template _ _ _ _ =>
      if targs.isEmpty then fatal s!"template `{l.name}` must be instantiated"
      let lhs ← r.templateInstance lhs targs
      xgetSymbolLoop r lhs symbol rest
    | _ => fatal s!"`{l.name}` is not a namespace or type"

/-- `xget_symbol`: look the first element up from the module table (a name starting with `::`)
or the current table, climbing parents; then each further element in the namespace or type
reached. -/
def xgetSymbol (r : Resolvers) (isFromRoot : Bool) : List CstSymbolElement → ResolveM Nat
  | [] => throw (.internal "xget_symbol")
  | .mk name targs :: rest => do
    let s ← get
    let table := if isFromRoot then s.moduleSymbols else s.currentSymbolTable
    let lhs ← orFatal s!"use of undeclared identifier `{name}`" (s.lookup table name)
    let lhs ← instantiateIf r lhs targs
    if rest.isEmpty then pure lhs
    else orInternal (← xgetSymbolLoop r lhs none rest)
where
  orInternal : Option Nat → ResolveM Nat
    | some n => pure n
    | none => throw (.internal "xget_symbol")

/-- One element after a namespace: looked up in the namespace's table, then instantiated. -/
theorem xgetSymbolLoop_namespace {r : Resolvers} {lhs sym table : Nat} {symbol : Option Nat}
    {lname name : String} {targs : List CstTypespec} {rest : List CstSymbolElement} {s : Resolver}
    (hl : s.symbol? lhs = some ⟨lname, .namespace_ table⟩) (hv : s.lookupLocal table name = some sym) :
    xgetSymbolLoop r lhs symbol (.mk name targs :: rest) s =
      (instantiateIf r sym targs >>= fun i => xgetSymbolLoop r i (some i) rest) s := by
  rw [xgetSymbolLoop, ResolveM.bind_of_ok (getSymbol_ok.2 ⟨hl, rfl⟩),
    ResolveM.bind_of_ok (show (get : ResolveM Resolver) s = .ok (s, s) from rfl)]
  simp only [hv]
  rfl

/-- One element after a template: the template is instantiated with the element's arguments, and
neither the element's name nor `symbol` changes what follows. -/
theorem xgetSymbolLoop_template {r : Resolvers} {lhs : Nat} {symbol : Option Nat} {name : String}
    {targs : List CstTypespec} {rest : List CstSymbolElement} {s : Resolver} {l : Symbol}
    (hl : s.symbol? lhs = some l) (hk : l.kind = .template) (hne : targs ≠ []) :
    xgetSymbolLoop r lhs symbol (.mk name targs :: rest) s =
      (r.templateInstance lhs targs >>= fun i => xgetSymbolLoop r i symbol rest) s := by
  obtain ⟨lname, data⟩ := l
  cases data <;> simp only [Symbol.kind, reduceCtorEq] at hk
  obtain ⟨t, ts, rfl⟩ := List.exists_cons_of_ne_nil hne
  rw [xgetSymbolLoop, ResolveM.bind_of_ok (getSymbol_ok.2 ⟨hl, rfl⟩)]
  rfl

/-- A name of more than one element whose first element has no template arguments. -/
theorem xgetSymbol_qualified {r : Resolvers} {isFromRoot : Bool} {n0 : String}
    {e : CstSymbolElement} {rest : List CstSymbolElement} {s : Resolver} {lhs : Nat}
    (hl : s.lookup (if isFromRoot then s.moduleSymbols else s.currentSymbolTable) n0 = some lhs) :
    xgetSymbol r isFromRoot (.mk n0 [] :: e :: rest) s =
      (xgetSymbolLoop r lhs none (e :: rest) >>= xgetSymbol.orInternal) s := by
  rw [xgetSymbol, ResolveM.bind_of_ok (show (get : ResolveM Resolver) s = .ok (s, s) from rfl)]
  simp only [hl]
  rfl

/-! ## Typespecs -/

/-- `resolve_typespec_symbol`: the named symbol must be a type. -/
def resolveTypespecSymbol (r : Resolvers) (isFromRoot : Bool) (elements : List CstSymbolElement) :
    ResolveM Ty := do
  let sym ← getSymbol (← xgetSymbol r isFromRoot elements)
  match sym.data with
  | .template _ _ _ _ => fatal s!"template `{sym.name}` must be instantiated"
  | .type t => pure t
  | _ => fatal s!"identifier `{sym.name}` is not a type"

/-- `resolve_typespec_array`: the count is a `usize` constant expression, evaluated. -/
def resolveTypespecArray (r : Resolvers) (count : CstExpr) (base : CstTypespec) :
    ResolveM Ty := do
  let countExpr ← shallowImplicitCast usize (← r.expr count)
  if countExpr.type ≠ usize then
    fatal s!"illegal array count with non-usize type `{countExpr.type.name}`"
  let v ← evalRvalue (← get).structSize countExpr
  require (v.type = usize) "resolve_typespec_array: count type"
  let x ← v.intPayload
  let n ← orFatal s!"array count too large (received {x})" (bigintToUz x)
  typeUniqueArray n (← r.typespec base)

/-- `resolve_typespec`. -/
def resolveTypespec (r : Resolvers) : CstTypespec → ResolveM Ty
  | .symbol isFromRoot elements => resolveTypespecSymbol r isFromRoot elements
  | .function params ret => do
    let ps ← params.mapM r.typespec
    typeUniqueFunction ps (← r.typespec ret)
  | .pointer base => do typeUniquePointer (← r.typespec base)
  | .array count base => resolveTypespecArray r count base
  | .slice base => do typeUniqueSlice (← r.typespec base)
  | .typeof e => do pure (← r.expr e).type

end Sunder
