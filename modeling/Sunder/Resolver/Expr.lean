import Sunder.Resolver.ExprOps

/-!
# Expressions

`resolveExpr r` is `resolve_expr`: one function per kind of concrete expression, each calling
the resolver recursively through `r`. A literal list of slice type is the one expression that
declares a symbol: its backing array `__slice_list_elements_N` (`N` from a counter shared by the
whole run) is static at global scope or inside a constant declaration, and its elements are then
resolved twice, once for the array's value and once for the expression.
-/

namespace Sunder

/-- A symbol used as an expression must be a variable, constant or function. -/
def resolveExprSymbol (r : Resolvers) (isFromRoot : Bool) (elements : List CstSymbolElement) :
    ResolveM Expr := do
  let symbol ← getSymbol (← xgetSymbol r isFromRoot elements)
  match symbol.data with
  | .type _ => fatal s!"use of type `{symbol.name}` as an expression"
  | .template _ _ _ _ => fatal s!"use of template `{symbol.name}` as an expression"
  | .namespace_ _ => fatal s!"use of namespace `{symbol.name}` as an expression"
  | _ => pure (.symbol symbol)

/-- An expression cast implicitly to `t`, which it must then have. -/
def resolveExprAs (r : Resolvers) (t : Ty) (e : CstExpr) : ResolveM Expr := do
  let e ← shallowImplicitCast t (← r.expr e)
  checkTypeCompatibility e.type t
  pure e

/-- `resolve_expr_bytes`: a static constant array of the bytes and a terminating NUL; the
expression is a `[]byte` over it that does not count the NUL. -/
def resolveExprBytes (bytes : List UInt8) : ResolveM Expr := do
  let address ← reserveStorageStatic "__bytes"
  let t ← typeUniqueArray (bytes.length + 1) .byte
  let value ← valueNewArray t ((bytes ++ [0]).map .byte)
  let name ← match address with
    | .static name _ => pure name
    | .local_ _ => throw (.internal "resolve_expr_bytes")
  registerStaticSymbol (← newSymbol ⟨name, .constant t address value⟩)
  discard <| typeUniqueSlice .byte
  pure (.bytes address bytes.length)

/-! ## Lists -/

/-- The array case of `resolve_expr_list`: each element and the ellipsis cast to the base type;
without an ellipsis the count must match. -/
def resolveExprArrayList (r : Resolvers) (t : Ty) (count : Nat) (base : Ty)
    (elements : List CstExpr) (ellipsis : Option CstExpr) : ResolveM Expr := do
  let es ← elements.mapM (resolveExprAs r base)
  let ell ← ellipsis.mapM (resolveExprAs r base)
  if count ≠ es.length && ell.isNone then
    fatal s!"array of type `{t.name}` created with {es.length} elements (expected {count})"
  pure (.arrayList t es ell)

/-- The symbol of a slice list's backing array: a constant inside a constant declaration,
otherwise a variable. `is_within_const_decl` is read here, after the elements of a static
array were resolved. -/
def sliceListArraySymbol (name : String) (t : Ty) (address : Address) (value : Option Value) :
    ResolveM Nat := do
  if (← get).isWithinConstDecl then
    match value with
    | some v => newSymbol ⟨name, .constant t address v⟩
    | none => throw (.internal "symbol_new_constant")
  else symbolNewVariable name t address value

/-- The slice case of `resolve_expr_list`. A static backing array's value is built element by
element, each evaluated right after it is resolved. -/
def resolveExprSliceList (r : Resolvers) (t base : Ty) (elements : List CstExpr)
    (ellipsis : Option CstExpr) : ResolveM Expr := do
  if ellipsis.isSome then fatal "ellipsis element is not allowed in slice lists"
  let id ← modifyGet fun s => (s.sliceListCount, { s with sliceListCount := s.sliceListCount + 1 })
  let arrayName := s!"__slice_list_elements_{id}"
  let arrayType ← typeUniqueArray elements.length base
  let isStatic := (← isGlobal) || (← get).isWithinConstDecl
  let address ← if isStatic then reserveStorageStatic arrayName else reserveStorageLocal arrayType
  let value ← if isStatic then do
      let vs ← elements.mapM fun el => do evalNow (← resolveExprAs r base el)
      some <$> valueNewArray arrayType vs
    else pure none
  let n ← sliceListArraySymbol arrayName arrayType address value
  if isStatic then registerStaticSymbol n
  symbolTableInsert (← currentTable) arrayName n
  let es ← elements.mapM (resolveExprAs r base)
  pure (.sliceList t (← getSymbol n) es)

/-- `resolve_expr_list`. -/
def resolveExprList (r : Resolvers) (ts : CstTypespec) (elements : List CstExpr)
    (ellipsis : Option CstExpr) : ResolveM Expr := do
  let t ← r.typespec ts
  match t with
  | .array count base => resolveExprArrayList r t count base elements ellipsis
  | .slice base => resolveExprSliceList r t base elements ellipsis
  | _ => fatal s!"expected array or slice type (received `{t.name}`)"

/-- `resolve_expr_slice`: a pointer to the slice's base and a `usize` count. -/
def resolveExprSlice (r : Resolvers) (ts : CstTypespec) (pointer count : CstExpr) :
    ResolveM Expr := do
  let t ← r.typespec ts
  let base ← match t with
    | .slice base => pure base
    | _ => fatal s!"expected slice type (received `{t.name}`)"
  let p ← r.expr pointer
  unless p.type matches .pointer _ do
    fatal s!"expression of type `{p.type.name}` is not a pointer"
  checkTypeCompatibility p.type (← typeUniquePointer base)
  pure (.slice t p (← resolveExprAs r usize count))

/-! ## Struct literals -/

/-- The initializers matched against the member variables: each fills the slot of the first
member of its name, cast to the member's type. -/
def fillInitializers (t : Ty) (mvs : List MemberVariable) :
    List (Option Expr) → List (String × Expr) → ResolveM (List (Option Expr))
  | slots, [] => pure slots
  | slots, (name, e) :: rest => do
    match mvs.findIdx? (·.name = name) with
    | none => fatal s!"struct `{t.name}` does not have a member variable `{name}`"
    | some j =>
      let mv ← orInternal mvs[j]?
      if (slots[j]?.join).isSome then
        fatal s!"duplicate initializer for member variable `{mv.name}`"
      let e ← shallowImplicitCast mv.type e
      checkTypeCompatibility e.type mv.type
      fillInitializers t mvs (slots.set j (some e)) rest
where
  orInternal : Option MemberVariable → ResolveM MemberVariable
    | some mv => pure mv
    | none => throw (.internal "resolve_expr_struct")

/-- Every member variable must have been initialized. -/
def collectSlots : List MemberVariable → List (Option Expr) → ResolveM (List Expr)
  | [], _ => pure []
  | mv :: mvs, slot :: slots => do
    match slot with
    | some e => pure (e :: (← collectSlots mvs slots))
    | none => fatal s!"missing initializer for member variable `{mv.name}`"
  | _ :: _, [] => throw (.internal "resolve_expr_struct: slots")

/-- `resolve_expr_struct`: the initializers are resolved before they are matched against the
member variables. -/
def resolveExprStruct (r : Resolvers) (ts : CstTypespec) (initializers : List (String × CstExpr)) :
    ResolveM Expr := do
  let t ← r.typespec ts
  let mvs ← match t with
    | .struct_ _ id => match (← get).structs[id]? with
      | some st => pure st.memberVariables
      | none => throw (.internal "resolve_expr_struct: type")
    | _ => fatal s!"expected struct type (received `{t.name}`)"
  let es ← initializers.mapM fun (_, e) => r.expr e
  let slots ← fillInitializers t mvs (mvs.map fun _ => none) ((initializers.map (·.1)).zip es)
  pure (.struct_ t (← collectSlots mvs slots))

/-! ## Casts and calls -/

/-- The explicit conversions `resolve_expr_cast` allows. -/
def castIsValid (t from_ : Ty) : Bool :=
  (typeIsAnyInteger t && typeIsAnyInteger from_)
    || (t = .bool && from_ = .byte) || (t = .byte && from_ = .bool)
    || (t = .bool && typeIsAnyInteger from_) || (typeIsAnyInteger t && from_ = .bool)
    || (t = .byte && typeIsAnyInteger from_) || (typeIsAnyInteger t && from_ = .byte)
    || (t matches .pointer _ && from_ = usize) || (t = usize && from_ matches .pointer _)
    || (t matches .pointer _ && from_ matches .pointer _)
    || (t matches .function _ _ && from_ matches .function _ _)

/-- `resolve_expr_cast`. -/
def resolveExprCast (r : Resolvers) (ts : CstTypespec) (e : CstExpr) : ResolveM Expr := do
  let t ← r.typespec ts
  let rhs ← r.expr e
  if (← sizeOf rhs.type) = sizeofUnsized then
    fatal s!"invalid cast from unsized type `{rhs.type.name}` to `{t.name}`"
  if (← sizeOf t) = sizeofUnsized then
    fatal s!"invalid cast to unsized type `{t.name}` from `{rhs.type.name}`"
  if !castIsValid t rhs.type then
    fatal s!"invalid cast from `{rhs.type.name}` to `{t.name}`"
  pure (.cast t rhs)

/-- The argument check of `resolve_expr_call`: every argument cast to its parameter's type, then
every argument compared with it. -/
def checkArguments (params : List Ty) (args : List Expr) : ResolveM (List Expr) := do
  let args ← (params.zip args).mapM fun (p, a) => shallowImplicitCast p a
  (params.zip args).forM fun (p, a) => do
    if a.type ≠ p then
      fatal s!"incompatible argument type `{a.type.name}` (expected `{p.name}`)"
  pure args

/-- The parameter types of a function type. -/
def Ty.parameterTypes : Ty → List Ty
  | .function ps _ => ps.toList
  | _ => []

/-- The regular case of `resolve_expr_call`. -/
def resolveExprCallRegular (r : Resolvers) (f : CstExpr) (args : List CstExpr) :
    ResolveM Expr := do
  let function ← r.expr f
  unless function.type matches .function _ _ do
    fatal s!"non-callable type `{function.type.name}` used in function call expression"
  let params := function.type.parameterTypes
  if args.length ≠ params.length then
    fatal s!"function with type `{function.type.name}` expects {params.length} argument(s) ({args.length} provided)"
  let args ← args.mapM r.expr
  pure (.call function (← checkArguments params args))

/-- The member case of `resolve_expr_call`, after the instance is resolved and found to have no
member variable of the name: the member function, whose first parameter is a pointer to the
instance's type, called with the instance's address first. -/
def resolveExprCallMember (r : Resolvers) (inst : Expr) (name : String)
    (targs : List CstTypespec) (args : List CstExpr) : ResolveM Expr := do
  let noMember := s!"type `{inst.type.name}` has no member function `{name}`"
  let sym ← orFatal noMember ((← get).typeMemberSymbol inst.type name)
  let sym ← if (← getSymbol sym).kind == .template then r.templateInstance sym targs else pure sym
  let symbol ← getSymbol sym
  let ft ← match symbol.data with
    | .function t _ _ => pure t
    | _ => fatal noMember
  let selfptr ← typeUniquePointer inst.type
  let params := ft.parameterTypes
  match params with
  | [] => fatal s!"expected type `{selfptr.name}` for the first parameter of member function `{name}` of type `{inst.type.name}`"
  | p :: ps =>
    if p ≠ selfptr then
      fatal s!"expected type `{selfptr.name}` for the first parameter of member function `{name}` of type `{inst.type.name}` (found `{p.name}`)"
    if args.length ≠ ps.length then
      fatal s!"member function with type `{ft.name}` expects {ps.length} argument(s) ({args.length} provided)"
    let args ← args.mapM r.expr
    let args ← checkArguments params (.unary selfptr .addressof inst :: args)
    pure (.call (.symbol symbol) args)

/-- `resolve_expr_call`. A call through `x.name` is a member function call unless `x` is a
struct with a member variable `name`; then the member variable is called as a regular function,
and `x` is resolved a second time. -/
def resolveExprCall (r : Resolvers) (f : CstExpr) (args : List CstExpr) : ResolveM Expr := do
  match f with
  | .accessMember lhs (.mk name targs) =>
    let inst ← r.expr lhs
    if !(← exprIsLvalue inst) then
      fatal s!"attempted to call member function `{name}` on non-lvalue instance of type `{inst.type.name}`"
    if ((← get).typeStructMemberVariable inst.type name).isSome then
      resolveExprCallRegular r f args
    else resolveExprCallMember r inst name targs args
  | _ => resolveExprCallRegular r f args

/-! ## Accesses -/

/-- The base type of an array or slice type. -/
def Ty.elementBase? : Ty → Option Ty
  | .array _ b | .slice b => some b
  | _ => none

/-- An index or bound, cast to `usize`, which it must then have. -/
def resolveUsizeIndex (r : Resolvers) (what : String) (e : CstExpr) : ResolveM Expr := do
  let e ← shallowImplicitCast usize (← r.expr e)
  if e.type ≠ usize then
    fatal s!"illegal {what} operation with index of non-usize type `{e.type.name}`"
  pure e

/-- `resolve_expr_access_index`. -/
def resolveExprAccessIndex (r : Resolvers) (lhs idx : CstExpr) : ResolveM Expr := do
  let lhs ← r.expr lhs
  let base ← orFatal s!"illegal index operation with left-hand-side of type `{lhs.type.name}`"
    lhs.type.elementBase?
  pure (.accessIndex base lhs (← resolveUsizeIndex r "index" idx))

/-- `resolve_expr_access_slice`: an array must be an lvalue. -/
def resolveExprAccessSlice (r : Resolvers) (lhs b e : CstExpr) : ResolveM Expr := do
  let lhs ← r.expr lhs
  let base ← orFatal s!"illegal slice operation with left-hand-side of type `{lhs.type.name}`"
    lhs.type.elementBase?
  if lhs.type matches .array _ _ then
    if !(← exprIsLvalue lhs) then fatal "left hand side of slice operation is an rvalue array"
  let b ← resolveUsizeIndex r "slice" b
  let e ← resolveUsizeIndex r "slice" e
  pure (.accessSlice (← typeUniqueSlice base) lhs b e)

/-- `resolve_expr_access_member`: only a member variable has a value. -/
def resolveExprAccessMember (r : Resolvers) (lhs : CstExpr) (member : CstSymbolElement) :
    ResolveM Expr := do
  let lhs ← r.expr lhs
  unless lhs.type matches .struct_ _ _ do
    fatal s!"attempted member access on non-struct type `{lhs.type.name}`"
  let .mk name targs := member
  let s ← get
  match s.typeStructMemberVariable lhs.type name with
  | some mv =>
    if !targs.isEmpty then
      fatal s!"attempted template instantiation of member variable `{name}` on type `{lhs.type.name}`"
    pure (.accessMemberVariable mv.type lhs name)
  | none =>
    match s.typeMemberSymbol lhs.type name with
    | none => fatal s!"struct `{lhs.type.name}` has no member `{name}`"
    | some sym => do
      let symbol ← getSymbol sym
      match symbol.kind with
      | .constant => fatal s!"attempted to take the value of member constant `{symbol.name}` on type `{lhs.type.name}`"
      | .function => fatal s!"attempted to take the value of member function `{symbol.name}` on type `{lhs.type.name}`"
      | .template => fatal s!"attempted to take the value of member template `{symbol.name}` on type `{lhs.type.name}`"
      | _ => throw (.internal "resolve_expr_access_member")

/-- `resolve_expr_access_dereference`. -/
def resolveExprAccessDereference (r : Resolvers) (lhs : CstExpr) : ResolveM Expr := do
  resolveExprUnaryDereference (← r.expr lhs)

/-- `resolve_expr_sizeof`. -/
def resolveExprSizeof (r : Resolvers) (ts : CstTypespec) : ResolveM Expr := do
  let t ← r.typespec ts
  if (← sizeOf t) = sizeofUnsized then fatal s!"type `{t.name}` has no defined size"
  pure (.sizeof t)

/-- `resolve_expr_alignof`. -/
def resolveExprAlignof (r : Resolvers) (ts : CstTypespec) : ResolveM Expr := do
  let t ← r.typespec ts
  if t.align (← get).structAlign = alignofUnsized then
    fatal s!"type `{t.name}` has no defined alignment"
  pure (.alignof t)

/-! ## Operators and the dispatch -/

/-- `resolve_expr_unary`: a sign directly before an integer literal is folded into the literal,
so that `-128s8` is in range. -/
def resolveExprUnary (r : Resolvers) (op : Token) (rhs : CstExpr) : ResolveM Expr := do
  match op, rhs with
  | .plus, .integer value suffix => exprNewInteger (← integerLiteralSuffixToType suffix) value
  | .dash, .integer value suffix => exprNewInteger (← integerLiteralSuffixToType suffix) (-value)
  | _, _ => resolveExprUnaryOp op (← r.expr rhs)

/-- `resolve_expr_binary`: both operands are resolved, left first, before the operator is
checked. -/
def resolveExprBinary (r : Resolvers) (op : Token) (lhs rhs : CstExpr) : ResolveM Expr := do
  let lhs ← r.expr lhs
  resolveExprBinaryOp op lhs (← r.expr rhs)

/-- `resolve_expr`. -/
def resolveExpr (r : Resolvers) : CstExpr → ResolveM Expr
  | .symbol isFromRoot elements => resolveExprSymbol r isFromRoot elements
  | .boolean b => pure (.boolean b)
  | .integer value suffix => do exprNewInteger (← integerLiteralSuffixToType suffix) value
  | .character c => exprNewInteger .integer c
  | .bytes bytes => resolveExprBytes bytes
  | .list ts elements ellipsis => resolveExprList r ts elements ellipsis
  | .slice ts pointer count => resolveExprSlice r ts pointer count
  | .struct_ ts initializers => resolveExprStruct r ts initializers
  | .cast ts e => resolveExprCast r ts e
  | .grouped e => r.expr e
  | .call f args => resolveExprCall r f args
  | .accessIndex lhs idx => resolveExprAccessIndex r lhs idx
  | .accessSlice lhs b e => resolveExprAccessSlice r lhs b e
  | .accessMember lhs member => resolveExprAccessMember r lhs member
  | .accessDereference lhs => resolveExprAccessDereference r lhs
  | .sizeof ts => resolveExprSizeof r ts
  | .alignof ts => resolveExprAlignof r ts
  | .unary op rhs => resolveExprUnary r op rhs
  | .binary op lhs rhs => resolveExprBinary r op lhs rhs

/-! ## Operators after their operands -/

/-- A unary node other than a sign directly before an integer literal is its operator applied to
the resolved operand. -/
theorem resolveExprUnary_of_ok {r : Resolvers} {op : Token} {rhs : CstExpr} {e : Expr}
    {s s₁ : Resolver} (hlit : op = .plus ∨ op = .dash → ∀ value suffix, rhs ≠ .integer value suffix)
    (hr : r.expr rhs s = .ok (e, s₁)) : resolveExprUnary r op rhs s = resolveExprUnaryOp op e s₁ := by
  unfold resolveExprUnary
  split
  · exact absurd rfl (hlit (.inl rfl) _ _)
  · exact absurd rfl (hlit (.inr rfl) _ _)
  · exact ResolveM.bind_of_ok hr

theorem resolveExprBinary_of_ok {r : Resolvers} {op : Token} {lhs rhs : CstExpr} {l e : Expr}
    {s s₁ s₂ : Resolver} (hl : r.expr lhs s = .ok (l, s₁)) (hr : r.expr rhs s₁ = .ok (e, s₂)) :
    resolveExprBinary r op lhs rhs s = resolveExprBinaryOp op l e s₂ := by
  simp only [resolveExprBinary, ResolveM.bind_of_ok hl, ResolveM.bind_of_ok hr]

end Sunder
