import Sunder.Expr

/-!
# The compile-time evaluator

`evalRvalue` and `evalLvalue` are `eval_rvalue` and `eval_lvalue` of `eval.c`, case by case:
the order in which operands are evaluated, the checks and their diagnostics, the asserts
(`Fault.internal`) and the calls of the checked constructors of `Sunder/Value.lean`. `ss`
gives the size of each struct declaration.

`eval.c` predates some node kinds of the resolver (`Expr.sliceList`, `Expr.struct_`,
`Expr.accessMemberVariable`, `Expr.alignof`) and the shift operators: its `switch` has no case
for them, so they reach the `UNREACHABLE()` after it. Pointer types built by
`type_unique_pointer` are built structurally here (the registry is `Sunder/Registry.lean`).

The work of each case after its operands are evaluated is a named function (`evalBinary`,
`evalAccessSlice`, ...), and the lemmas at the end state each case in terms of it
(`evalRvalue_binary`, `evalRvalue_binary_of_ok`, ...), so that later modules never unfold the
evaluator itself.
-/

namespace Sunder

/-- `value->data.integer`, read from an integer value. -/
def Value.intPayload : Value → Except Fault Int
  | .integer _ x => pure x
  | _ => throw (.internal "value->data.integer")

/-- `value->data.boolean`, read from a boolean value. -/
def Value.boolPayload : Value → Except Fault Bool
  | .boolean b => pure b
  | _ => throw (.internal "value->data.boolean")

/-- `integer_is_out_of_range`: asserts a sized integer type. -/
def integerIsOutOfRange (t : Ty) (r : Int) : Except Fault Bool :=
  match t with
  | .int k => pure (decide (r < k.min) || decide (k.max < r))
  | _ => throw (.internal "integer_is_out_of_range")

/-- `bigint_to_uz` of an index or a bound, or `fatal` "index out-of-range". -/
def indexToUz (x : Int) : Except Fault Nat :=
  match bigintToUz x with
  | some n => pure n
  | none => throw (.fatal s!"index out-of-range (received {x})")

/-- `ADD`, `SUB` and `MUL`: both operands integers, the exact result range-checked against the
node's type `t`; `sym` is the operator in the diagnostic. -/
def evalArithmetic (t : Ty) (sym : String) (f : Int → Int → Int) (lhs rhs : Value) :
    Except Fault Value := do
  check (typeIsInteger lhs.type) "eval_rvalue: arithmetic lhs"
  check (typeIsInteger rhs.type) "eval_rvalue: arithmetic rhs"
  let a ← lhs.intPayload
  let b ← rhs.intPayload
  let r := f a b
  if ← integerIsOutOfRange t r then
    throw (.fatal s!"arithmetic operation produces out-of-range result ({a} {sym} {b} == {r})")
  valueNewInteger t r

/-- `DIV`: a zero divisor is a diagnostic; the truncated quotient is not range-checked. -/
def evalDiv (t : Ty) (lhs rhs : Value) : Except Fault Value := do
  check (typeIsInteger lhs.type) "eval_rvalue: arithmetic lhs"
  check (typeIsInteger rhs.type) "eval_rvalue: arithmetic rhs"
  let a ← lhs.intPayload
  let b ← rhs.intPayload
  if b = 0 then throw (.fatal s!"divide by zero ({a} / {b})")
  valueNewInteger t (a.tdiv b)

/-- `BITOR`, `BITXOR` and `BITAND`: booleans and bytes directly, a sized integer through bit
arrays of `type->size * 8` bits. -/
def evalBitwise (ss : Nat → Nat) (fb : Bool → Bool → Bool) (fy : UInt8 → UInt8 → UInt8)
    (lhs rhs : Value) : Except Fault Value := do
  let ok (t : Ty) : Bool := t = .bool || t = .byte || typeIsInteger t
  check (ok lhs.type) "eval_rvalue: bitwise lhs"
  check (ok rhs.type) "eval_rvalue: bitwise rhs"
  check (lhs.type = rhs.type) "eval_rvalue: bitwise kinds"
  match lhs, rhs with
  | .boolean a, .boolean b => pure (.boolean (fb a b))
  | .byte a, .byte b => pure (.byte (fy a b))
  | .integer t a, .integer _ b => do
    let w := t.size ss * 8
    match bigintToBitarr w a, bigintToBitarr w b with
    | some ba, some bb => valueNewInteger t (bitarrToBigint (List.zipWith fb ba bb) (typeIsSinteger t))
    | _, _ => throw (.internal "eval_rvalue: bigint_to_bitarr")
  | _, _ => throw (.internal "eval_rvalue: bitwise")

/-- The bit array of the cast branch: bit `i` of `bytes` below `8 * bytes.length`, the
extension bit above. -/
def castBits (bytes : List UInt8) (extend : Bool) (w : Nat) : List Bool :=
  (List.range w).map fun i =>
    if bytes.length * 8 ≤ i then extend else (bytes.getD (i / 8) 0).toNat.testBit (i % 8)

/-- The cast branch after the pointer checks: serialise the operand, then rebuild a value of
the target type `t` from the bytes. -/
def evalCastBytes (ss : Nat → Nat) (t : Ty) (v : Value) : Except Fault Value := do
  let bytes ← valueToNewBytes ss v
  match t with
  | .bool => pure (.boolean (bytes.any (· != 0)))
  | .byte => do
    check (1 ≤ bytes.length) "eval_rvalue: cast to byte"
    pure (.byte (bytes.getD 0 0))
  | .int k =>
    let extend := typeIsSinteger v.type && (bytes.getLastD 0 &&& 0x80 != 0)
    valueNewInteger t (bitarrToBigint (castBits bytes extend (k.size * 8)) k.isSigned)
  | _ => throw (.internal "eval_rvalue: cast")

/-! ## The cases of `eval_rvalue`

Each case of `eval_rvalue` and `eval_lvalue` after its operands are evaluated; an operand that a
case evaluates only after its own checks (the address of a sliced array, the operand of a unary
operator) is passed as the result of that evaluation. -/

/-- `TIR_EXPR_IDENTIFIER`: the value of a constant or function. -/
def evalSymbol (s : Symbol) : Except Fault Value :=
  match s.kind, s.value with
  | .constant, some v | .function, some v => valueClone v
  | .constant, none | .function, none => throw (.internal "eval_rvalue: symbol value")
  | _, _ => throw (.fatal s!"identifier `{s.name}` is not a constant")

/-- `TIR_EXPR_INTEGER`: a byte literal through `bigint_to_u8`, any other through
`value_new_integer`. -/
def evalInteger (t : Ty) (x : Int) : Except Fault Value :=
  if t = .byte then
    if 0 ≤ x ∧ x ≤ 255 then pure (.byte x.toNat.toUInt8)
    else throw (.internal "eval_rvalue: bigint_to_u8")
  else do
    check (typeIsInteger t) "eval_rvalue: integer type"
    valueNewInteger t x

/-- `TIR_EXPR_BYTES`: a `[]byte` over the static bytes. -/
def evalBytes (a : Address) (n : Nat) : Except Fault Value := do
  let p ← valueNewPointer (.pointer .byte) a
  let c ← valueNewInteger usize n
  valueNewSlice (.slice .byte) p c

/-- The ellipsis of `TIR_EXPR_LITERAL_ARRAY`: after the `first` values `vs` of the elements,
clones of the ellipsis's value `fv` up to the array's count. -/
def evalArrayFill (t : Ty) (vs : List Value) (first : Nat) (fv : Value) : Except Fault Value := do
  let n := match t with
    | .array n _ => n
    | _ => 0
  let copies ← (List.replicate (n - first) fv).mapM valueClone
  valueNewArray t (vs ++ copies)

/-- `TIR_EXPR_CAST`: no pointer on either side. -/
def evalCast (ss : Nat → Nat) (t : Ty) (v : Value) : Except Fault Value := do
  if v.type matches .pointer _ then
    throw (.fatal "constant expression contains cast from pointer type")
  if t matches .pointer _ then
    throw (.fatal "constant expression contains cast to pointer type")
  evalCastBytes ss t v

/-- `TIR_EXPR_INDEX` on the values `l` of the indexed operand and `i` of the index. -/
def evalAccessIndex (l i : Value) : Except Fault Value := do
  check (i.type = usize) "eval_rvalue: index type"
  let n ← indexToUz (← i.intPayload)
  match l.type, l with
  | .array count _, .array _ es =>
    if count ≤ n then
      throw (.fatal s!"index out-of-bounds (array count is {count}, received {n})")
    match es[n]? with
    | some e => valueClone e
    | none => throw (.undefined "eval_rvalue: elements[idx]")
  | .slice _, _ => throw (.fatal
      s!"indexing with left-hand-type `{l.type.name}` not supported in compile-time expressions")
  | _, _ => throw (.internal "eval_rvalue: index")

/-- `TIR_EXPR_SLICE` of type `t` on the values `l`, `bv` and `ev` of the sliced operand and the
bounds; `lp` is `eval_lvalue` of the sliced operand, which an array reaches after the bound
checks. -/
def evalAccessSlice (ss : Nat → Nat) (t : Ty) (l bv ev : Value) (lp : Except Fault Value) :
    Except Fault Value := do
  check (bv.type = usize) "eval_rvalue: slice begin type"
  let bx ← bv.intPayload
  let bn ← indexToUz bx
  check (ev.type = usize) "eval_rvalue: slice end type"
  let ex ← ev.intPayload
  let en ← indexToUz ex
  match l.type with
  | .array count _ => do
    if count ≤ bn then
      throw (.fatal s!"index out-of-bounds (array count is {count}, received {bn})")
    if count < en then
      throw (.fatal s!"index out-of-bounds (array count is {count}, received {en})")
    let p ← lp
    check (p.type matches .pointer _) "eval_rvalue: slice pointer"
    let base := match t with
      | .slice b => b
      | _ => .void
    match p with
    | .pointer _ (.static name off) => do
      let p' := Value.pointer (.pointer base) (.static name ((off + bn * base.size ss) % 2 ^ 64))
      let c ← valueNewInteger usize (ex - bx)
      valueNewSlice t p' c
    | _ => throw (.internal "eval_rvalue: slice address")
  | .slice _ => throw (.fatal
      s!"slicing with left-hand-type `{l.type.name}` not supported in compile-time expressions")
  | _ => throw (.internal "eval_rvalue: slice")

/-- `TIR_EXPR_UNARY` of type `t`: `rv` is `eval_rvalue` and `lv` is `eval_lvalue` of the
operand, each used by the operators that evaluate it. -/
def evalUnary (ss : Nat → Nat) (t : Ty) (op : Uop) (rv lv : Except Fault Value) :
    Except Fault Value :=
  match op with
  | .not => do
    let r ← rv
    pure (.boolean !(← r.boolPayload))
  | .pos => do
    let r ← rv
    check (typeIsInteger r.type) "eval_rvalue: UOP_POS"
    pure r
  | .neg => do
    let r ← rv
    check (typeIsInteger r.type) "eval_rvalue: UOP_NEG"
    let x ← r.intPayload
    if ← integerIsOutOfRange t (-x) then
      throw (.fatal s!"arithmetic operation produces out-of-range result (-({x}) == {-x})")
    valueNewInteger t (-x)
  | .bitnot => do
    let r ← rv
    check (r.type = .byte || typeIsInteger r.type) "eval_rvalue: UOP_BITNOT"
    match r with
    | .byte b => pure (.byte (~~~b))
    | .integer rt x =>
      match bigintToBitarr (rt.size ss * 8) x with
      | some bits => valueNewInteger rt (bitarrToBigint (bits.map (!·)) (typeIsSinteger rt))
      | none => throw (.internal "eval_rvalue: bigint_to_bitarr")
    | _ => throw (.internal "eval_rvalue: UOP_BITNOT")
  | .dereference => throw (.fatal "dereference operator not supported in compile-time expressions")
  | .addressof => lv
  | .countof => do
    check (t = usize) "eval_rvalue: UOP_COUNTOF type"
    let r ← rv
    match r.type, r with
    | .array count _, .array _ es => do
      check (count = es.length) "eval_rvalue: UOP_COUNTOF count"
      pure (.integer usize count)
    | .slice _, .slice _ _ c => do
      check (c.type = usize) "eval_rvalue: UOP_COUNTOF slice count"
      pure (.integer usize (← c.intPayload))
    | _, _ => throw (.internal "eval_rvalue: UOP_COUNTOF")

/-- `TIR_EXPR_BINARY` of type `t` on the values of both operands, both evaluated first. -/
def evalBinary (ss : Nat → Nat) (t : Ty) (op : Bop) (l r : Value) : Except Fault Value :=
  match op with
  | .or => do pure (.boolean ((← l.boolPayload) || (← r.boolPayload)))
  | .and => do pure (.boolean ((← l.boolPayload) && (← r.boolPayload)))
  | .eq => do pure (.boolean (← valueEq l r))
  | .ne => do pure (.boolean !(← valueEq l r))
  | .le => do pure (.boolean (← (do if ← valueLt l r then pure true else valueEq l r)))
  | .lt => do pure (.boolean (← valueLt l r))
  | .ge => do pure (.boolean (← (do if ← valueGt l r then pure true else valueEq l r)))
  | .gt => do pure (.boolean (← valueGt l r))
  | .add => evalArithmetic t "+" (· + ·) l r
  | .sub => evalArithmetic t "-" (· - ·) l r
  | .mul => evalArithmetic t "*" (· * ·) l r
  | .div => evalDiv t l r
  | .bitor => evalBitwise ss (· || ·) (· ||| ·) l r
  | .bitxor => evalBitwise ss (· ^^ ·) (· ^^^ ·) l r
  | .bitand => evalBitwise ss (· && ·) (· &&& ·) l r
  | .shl | .shr => throw (.internal "eval_rvalue: binary operator")

/-- The identifier case of `eval_lvalue`: the symbol's static address. -/
def evalLvalueSymbol (s : Symbol) : Except Fault Value :=
  match s.address with
  | some (.static name off) => valueNewPointer (.pointer s.type) (.static name off)
  | some (.local_ _) => throw (.fatal
      "addressof operator applied to non-static object in compile-time expression")
  | none => throw (.internal "eval_lvalue: symbol address")

/-- The index case of `eval_lvalue` on the address `l` of the indexed operand, of type
`lhsType`, and the value `i` of the index. -/
def evalLvalueIndex (ss : Nat → Nat) (lhsType : Ty) (l i : Value) : Except Fault Value := do
  check (l.type matches .pointer _) "eval_lvalue: index lhs"
  check (i.type = usize) "eval_lvalue: index type"
  match l.type with
  | .pointer (.array _ elem) => do
    let x ← i.intPayload
    let n ← indexToUz x
    match lhsType with
    | .array count _ => do
      if count ≤ n then
        throw (.fatal s!"index out-of-bounds (array count is {count}, received {x})")
      match l with
      | .pointer _ (.static name off) =>
        valueNewPointer (.pointer elem) (.static name ((off + elem.size ss * n) % 2 ^ 64))
      | _ => throw (.internal "eval_lvalue: index address")
    | _ => throw (.internal "eval_lvalue: index lhs type")
  | _ => throw (.internal "eval_lvalue: array type")

mutual

/-- `eval_rvalue`. -/
def evalRvalue (ss : Nat → Nat) : Expr → Except Fault Value
  | .symbol s => evalSymbol s
  | .boolean b => pure (.boolean b)
  | .integer t x => evalInteger t x
  | .bytes a n => evalBytes a n
  | .arrayList t es ell => do
    let vs ← evalRvalueList ss es
    match ell with
    | some f => do evalArrayFill t vs es.length (← evalRvalue ss f)
    | none => valueNewArray t vs
  | .slice t p c => do
    let pv ← evalRvalue ss p
    let cv ← evalRvalue ss c
    valueNewSlice t pv cv
  | .cast t e => do evalCast ss t (← evalRvalue ss e)
  | .syscall _ => throw (.fatal "constant expression contains system call")
  | .call _ _ => throw (.fatal "constant expression contains function call")
  | .accessIndex _ lhs idx => do
    let l ← evalRvalue ss lhs
    let i ← evalRvalue ss idx
    evalAccessIndex l i
  | .accessSlice t lhs b e => do
    let l ← evalRvalue ss lhs
    let bv ← evalRvalue ss b
    let ev ← evalRvalue ss e
    evalAccessSlice ss t l bv ev (evalLvalue ss lhs)
  | .sizeof rhs => valueNewInteger usize (rhs.size ss)
  | .unary t op rhs => evalUnary ss t op (evalRvalue ss rhs) (evalLvalue ss rhs)
  | .binary t op lhs rhs => do
    let l ← evalRvalue ss lhs
    let r ← evalRvalue ss rhs
    evalBinary ss t op l r
  | .sliceList _ _ _ | .struct_ _ _ | .accessMemberVariable _ _ _ | .alignof _ =>
    throw (.internal "eval_rvalue")

/-- The values of the elements of an array list, in order. -/
def evalRvalueList (ss : Nat → Nat) : List Expr → Except Fault (List Value)
  | [] => pure []
  | e :: es => do
    let v ← evalRvalue ss e
    pure (v :: (← evalRvalueList ss es))

/-- `eval_lvalue`: the static address of an lvalue, as a pointer value. -/
def evalLvalue (ss : Nat → Nat) : Expr → Except Fault Value
  | .symbol s => do
    check (← exprIsLvalue (.symbol s)) "eval_lvalue"
    evalLvalueSymbol s
  | .accessIndex t lhs idx => do
    check (← exprIsLvalue (.accessIndex t lhs idx)) "eval_lvalue"
    let l ← evalLvalue ss lhs
    let i ← evalRvalue ss idx
    evalLvalueIndex ss lhs.type l i
  | .unary t op rhs => do
    check (← exprIsLvalue (.unary t op rhs)) "eval_lvalue"
    match op with
    | .dereference => throw (.fatal "dereference operator not supported in compile-time expressions")
    | _ => throw (.internal "eval_lvalue: unary")
  | e => do
    check (← exprIsLvalue e) "eval_lvalue"
    throw (.internal "eval_lvalue")

end

/-! ## Evaluation of a node from its operands -/

section
variable {ss : Nat → Nat} {t : Ty}

theorem evalRvalue_integer (x : Int) : evalRvalue ss (.integer t x) = evalInteger t x := rfl

theorem evalRvalue_unary (op : Uop) (rhs : Expr) :
    evalRvalue ss (.unary t op rhs) = evalUnary ss t op (evalRvalue ss rhs) (evalLvalue ss rhs) :=
  rfl

/-- Both operands of a binary node are evaluated, left first, before its operator is looked at. -/
theorem evalRvalue_binary (op : Bop) (lhs rhs : Expr) :
    evalRvalue ss (.binary t op lhs rhs) =
      (evalRvalue ss lhs >>= fun l => evalRvalue ss rhs >>= fun r => evalBinary ss t op l r) :=
  rfl

theorem evalRvalue_binary_of_ok {op : Bop} {lhs rhs : Expr} {l r : Value}
    (hl : evalRvalue ss lhs = .ok l) (hr : evalRvalue ss rhs = .ok r) :
    evalRvalue ss (.binary t op lhs rhs) = evalBinary ss t op l r := by
  rw [evalRvalue_binary, hl, hr]
  rfl

theorem evalRvalue_accessSlice_of_ok {lhs b e : Expr} {l bv ev : Value}
    (hl : evalRvalue ss lhs = .ok l) (hb : evalRvalue ss b = .ok bv) (he : evalRvalue ss e = .ok ev) :
    evalRvalue ss (.accessSlice t lhs b e) = evalAccessSlice ss t l bv ev (evalLvalue ss lhs) := by
  show (evalRvalue ss lhs >>= fun l => evalRvalue ss b >>= fun bv => evalRvalue ss e >>= fun ev =>
    evalAccessSlice ss t l bv ev (evalLvalue ss lhs)) = _
  rw [hl, hb, he]
  rfl

theorem evalRvalue_arrayList_of_ok {es : List Expr} {f : Expr} {vs : List Value} {fv : Value}
    (hes : evalRvalueList ss es = .ok vs) (hf : evalRvalue ss f = .ok fv) :
    evalRvalue ss (.arrayList t es (some f)) = evalArrayFill t vs es.length fv := by
  show (evalRvalueList ss es >>= fun vs => evalRvalue ss f >>= fun fv =>
    evalArrayFill t vs es.length fv) = _
  rw [hes, hf]
  rfl

theorem evalLvalue_accessIndex_of_ok {lhs idx : Expr} {l i : Value}
    (hv : exprIsLvalue (.accessIndex t lhs idx) = .ok true) (hl : evalLvalue ss lhs = .ok l)
    (hi : evalRvalue ss idx = .ok i) :
    evalLvalue ss (.accessIndex t lhs idx) = evalLvalueIndex ss lhs.type l i := by
  show (exprIsLvalue (.accessIndex t lhs idx) >>= fun v => check v "eval_lvalue" >>= fun _ =>
    evalLvalue ss lhs >>= fun l => evalRvalue ss idx >>= fun i => evalLvalueIndex ss lhs.type l i) = _
  rw [hv, hl, hi]
  rfl

end

end Sunder
