import Sunder.Resolver.Template

/-!
# Operators

The `resolve_expr_unary_*` and `resolve_expr_binary_*` functions of `resolve.c`, applied to
operands already resolved. Both operands of a binary comparison, arithmetic or bitwise operator
are first cast implicitly to each other's type; when both are then integer literals the node is
folded through `eval_rvalue` into a literal (`foldInteger`, `foldBoolean`).
-/

namespace Sunder

/-- Modelled from the spec: `token_kind_to_cstr` (the lexer is not under `src/`). -/
def Token.cstr : Token → String
  | .plus => "+" | .dash => "-" | .star => "*" | .fslash => "/" | .not => "not"
  | .countof => "countof" | .tilde => "~" | .ampersand => "&" | .or => "or" | .and => "and"
  | .shl => "<<" | .shr => ">>" | .eq => "==" | .ne => "!=" | .le => "<=" | .lt => "<"
  | .ge => ">=" | .gt => ">" | .pipe => "|" | .caret => "^"

/-- `integer_literal_suffix_to_type`. -/
def integerLiteralSuffixToType (suffix : String) : ResolveM Ty :=
  match suffix with
  | "" => pure .integer
  | "y" => pure .byte
  | "u8" => pure (.int .u8) | "s8" => pure (.int .s8)
  | "u16" => pure (.int .u16) | "s16" => pure (.int .s16)
  | "u32" => pure (.int .u32) | "s32" => pure (.int .s32)
  | "u64" => pure (.int .u64) | "s64" => pure (.int .s64)
  | "u" => pure usize | "s" => pure ssize
  | _ => fatal s!"unknown integer literal suffix `{suffix}`"

/-- Whether a node is an integer literal (`expr->kind == EXPR_INTEGER`). -/
def Expr.isInteger : Expr → Bool
  | .integer _ _ => true
  | _ => false

/-! ## Unary operators -/

/-- The diagnostic of a unary operator applied to an argument of the wrong type. -/
def invalidUnary {α : Type} (op : Token) (rhs : Expr) : ResolveM α :=
  fatal s!"invalid argument of type `{rhs.type.name}` in unary `{op.cstr}` expression"

/-- `resolve_expr_unary_logical`. -/
def resolveExprUnaryLogical (op : Token) (uop : Uop) (rhs : Expr) : ResolveM Expr :=
  if rhs.type = .bool then pure (.unary rhs.type uop rhs) else invalidUnary op rhs

/-- `resolve_expr_unary_arithmetic`. -/
def resolveExprUnaryArithmetic (op : Token) (uop : Uop) (rhs : Expr) : ResolveM Expr :=
  if typeIsAnyInteger rhs.type then pure (.unary rhs.type uop rhs) else invalidUnary op rhs

/-- `resolve_expr_unary_bitwise`. -/
def resolveExprUnaryBitwise (op : Token) (uop : Uop) (rhs : Expr) : ResolveM Expr := do
  if (← sizeOf rhs.type) = sizeofUnsized then
    fatal s!"unsized type `{rhs.type.name}` in unary `{op.cstr}` expression has no bit-representation"
  if !(rhs.type = .byte || typeIsAnyInteger rhs.type) then
    fatal s!"cannot apply bitwise NOT to type `{rhs.type.name}`"
  pure (.unary rhs.type uop rhs)

/-- `resolve_expr_unary_dereference`. -/
def resolveExprUnaryDereference (rhs : Expr) : ResolveM Expr :=
  match rhs.type with
  | .pointer base => pure (.unary base .dereference rhs)
  | t => fatal s!"cannot dereference non-pointer type `{t.name}`"

/-- `resolve_expr_unary_addressof`: an lvalue, typed as a pointer to its type. -/
def resolveExprUnaryAddressof (rhs : Expr) : ResolveM Expr := do
  if !(← exprIsLvalue rhs) then fatal "cannot take the address of a non-lvalue"
  pure (.unary (← typeUniquePointer rhs.type) .addressof rhs)

/-- `resolve_expr_unary_countof`. -/
def resolveExprUnaryCountof (rhs : Expr) : ResolveM Expr :=
  match rhs.type with
  | .array _ _ | .slice _ => pure (.unary usize .countof rhs)
  | t => fatal s!"expected array or slice type (received `{t.name}`)"

/-- The operator switch of `resolve_expr_unary` after the operand is resolved. -/
def resolveExprUnaryOp (op : Token) (rhs : Expr) : ResolveM Expr :=
  match op with
  | .not => resolveExprUnaryLogical op .not rhs
  | .countof => resolveExprUnaryCountof rhs
  | .plus => resolveExprUnaryArithmetic op .pos rhs
  | .dash =>
    if typeIsUinteger rhs.type then invalidUnary op rhs
    else resolveExprUnaryArithmetic op .neg rhs
  | .tilde => resolveExprUnaryBitwise op .bitnot rhs
  | .star => resolveExprUnaryDereference rhs
  | .ampersand => resolveExprUnaryAddressof rhs
  | _ => throw (.internal "resolve_expr_unary")

/-! ## Binary operators -/

/-- The diagnostic of a binary operator applied to arguments of the wrong types. -/
def invalidBinary {α : Type} (op : Token) (lhs rhs : Expr) : ResolveM α :=
  fatal s!"invalid arguments of types `{lhs.type.name}` and `{rhs.type.name}` in binary `{op.cstr}` expression"

/-- Constant folding of an integer-valued node whose operands are literals: the value of the
node, as a literal of the node's type. -/
def foldInteger (resolved : Expr) : ResolveM Expr := do
  let v ← evalNow resolved
  require (typeIsAnyInteger v.type) "constant fold: integer"
  exprNewInteger resolved.type (← v.intPayload)

/-- Constant folding of a comparison whose operands are literals. -/
def foldBoolean (resolved : Expr) : ResolveM Expr := do
  let v ← evalNow resolved
  require (v.type = .bool) "constant fold: boolean"
  pure (.boolean (← v.boolPayload))

/-- Each operand cast implicitly to the other's type, left first. -/
def castToEachOther (lhs rhs : Expr) : ResolveM (Expr × Expr) := do
  let lhs ← shallowImplicitCast rhs.type lhs
  let rhs ← shallowImplicitCast lhs.type rhs
  pure (lhs, rhs)

/-- `resolve_expr_binary_logical`. -/
def resolveExprBinaryLogical (op : Token) (bop : Bop) (lhs rhs : Expr) : ResolveM Expr :=
  if lhs.type = rhs.type && lhs.type = .bool then pure (.binary .bool bop lhs rhs)
  else invalidBinary op lhs rhs

/-- `resolve_expr_binary_shift`. -/
def resolveExprBinaryShift (op : Token) (bop : Bop) (lhs rhs : Expr) : ResolveM Expr := do
  if !typeIsAnyInteger lhs.type then
    fatal s!"invalid left-hand argument of type `{lhs.type.name}` in binary `{op.cstr}` expression"
  if (← sizeOf lhs.type) = sizeofUnsized then
    fatal s!"unsized type `{lhs.type.name}` in binary `{op.cstr}` expression has no bit-representation"
  let rhs ← shallowImplicitCast usize rhs
  if rhs.type ≠ usize then
    fatal s!"invalid non-usize right-hand argument of type `{rhs.type.name}` in binary `{op.cstr}` expression"
  pure (.binary lhs.type bop lhs rhs)

/-- `resolve_expr_binary_compare_equality` and `resolve_expr_binary_compare_order`: the same
body over `type_can_compare_equality` or `type_can_compare_order`. -/
def resolveExprBinaryCompare (can : Ty → Bool) (op : Token) (bop : Bop) (lhs rhs : Expr) :
    ResolveM Expr := do
  let (lhs, rhs) ← castToEachOther lhs rhs
  if lhs.type ≠ rhs.type then invalidBinary op lhs rhs
  if !can lhs.type then
    fatal s!"invalid arguments of type `{lhs.type.name}` in binary `{op.cstr}` expression"
  let resolved := Expr.binary .bool bop lhs rhs
  if lhs.isInteger && rhs.isInteger then foldBoolean resolved else pure resolved

/-- `resolve_expr_binary_compare_equality`. -/
def resolveExprBinaryCompareEquality : Token → Bop → Expr → Expr → ResolveM Expr :=
  resolveExprBinaryCompare typeCanCompareEquality

/-- `resolve_expr_binary_compare_order`. -/
def resolveExprBinaryCompareOrder : Token → Bop → Expr → Expr → ResolveM Expr :=
  resolveExprBinaryCompare typeCanCompareOrder

/-- `resolve_expr_binary_arithmetic`: operands of one integer type (typed or untyped). -/
def resolveExprBinaryArithmetic (op : Token) (bop : Bop) (lhs rhs : Expr) : ResolveM Expr := do
  let (lhs, rhs) ← castToEachOther lhs rhs
  if !(lhs.type = rhs.type && typeIsAnyInteger lhs.type && typeIsAnyInteger rhs.type) then
    invalidBinary op lhs rhs
  let resolved := Expr.binary lhs.type bop lhs rhs
  if lhs.isInteger && rhs.isInteger then foldInteger resolved else pure resolved

/-- `resolve_expr_binary_bitwise`: operands of one sized type among `bool`, `byte` and the
integers. -/
def resolveExprBinaryBitwise (op : Token) (bop : Bop) (lhs rhs : Expr) : ResolveM Expr := do
  let (lhs, rhs) ← castToEachOther lhs rhs
  if lhs.type ≠ rhs.type then invalidBinary op lhs rhs
  if (← sizeOf lhs.type) = sizeofUnsized then
    fatal s!"unsized types `{lhs.type.name}` in binary `{op.cstr}` expression have no bit-representation"
  if !(lhs.type = .bool || lhs.type = .byte || typeIsAnyInteger lhs.type) then
    invalidBinary op lhs rhs
  let resolved := Expr.binary lhs.type bop lhs rhs
  if lhs.isInteger && rhs.isInteger then foldInteger resolved else pure resolved

/-- The operator switch of `resolve_expr_binary` after both operands are resolved. -/
def resolveExprBinaryOp (op : Token) (lhs rhs : Expr) : ResolveM Expr :=
  match op with
  | .or => resolveExprBinaryLogical op .or lhs rhs
  | .and => resolveExprBinaryLogical op .and lhs rhs
  | .shl => resolveExprBinaryShift op .shl lhs rhs
  | .shr => resolveExprBinaryShift op .shr lhs rhs
  | .eq => resolveExprBinaryCompareEquality op .eq lhs rhs
  | .ne => resolveExprBinaryCompareEquality op .ne lhs rhs
  | .le => resolveExprBinaryCompareOrder op .le lhs rhs
  | .lt => resolveExprBinaryCompareOrder op .lt lhs rhs
  | .ge => resolveExprBinaryCompareOrder op .ge lhs rhs
  | .gt => resolveExprBinaryCompareOrder op .gt lhs rhs
  | .plus => resolveExprBinaryArithmetic op .add lhs rhs
  | .dash => resolveExprBinaryArithmetic op .sub lhs rhs
  | .star => resolveExprBinaryArithmetic op .mul lhs rhs
  | .fslash => resolveExprBinaryArithmetic op .div lhs rhs
  | .pipe => resolveExprBinaryBitwise op .bitor lhs rhs
  | .caret => resolveExprBinaryBitwise op .bitxor lhs rhs
  | .ampersand => resolveExprBinaryBitwise op .bitand lhs rhs
  | _ => throw (.internal "resolve_expr_binary")

end Sunder
