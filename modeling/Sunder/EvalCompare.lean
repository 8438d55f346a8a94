import Sunder.EvalArith

/-!
# Comparisons and logical operators of the evaluator

`value_eq`, `value_lt` and `value_gt` share one `switch` (`valueCompare`): booleans and bytes
compare by their numeric values, sized integers by value, functions by identity for `value_eq`
only, and every other value is `UNREACHABLE()`. `eval_rvalue` evaluates both operands of a binary
node before it reads the operator.

* `valueCompare_scalar`: the comparisons of two booleans, bytes or sized integers of one type are
  the relations on their numeric values; `valueEq_function` compares functions by identity.
* `evalRvalue_compare_pointer`: `type_can_compare_equality` and `type_can_compare_order` accept
  every pointer type, but every comparison of two pointer values reaches `UNREACHABLE()`.
* `evalRvalue_binary_strict`: a failure of the right operand is the failure of the node, whatever
  the operator and the left operand's value; `or` and `and` do not short-circuit.
-/

namespace Sunder

/-! ## The shared comparison -/

section
variable {site : String} {functions : Bool} {cmp : Int → Int → Bool}

/-- Two booleans, bytes or sized integers of one type compare by their numeric values. -/
theorem valueCompare_scalar :
    (∀ a b : Bool, valueCompare site functions cmp (.boolean a) (.boolean b) =
      .ok (cmp a.toNat b.toNat)) ∧
    (∀ a b : UInt8, valueCompare site functions cmp (.byte a) (.byte b) =
      .ok (cmp a.toNat b.toNat)) ∧
    (∀ (k : IntKind) (a b : Int), valueCompare site functions cmp (.integer (.int k) a)
      (.integer (.int k) b) = .ok (cmp a b)) := by
  refine ⟨fun a b => ?_, fun a b => ?_, fun k a b => ?_⟩ <;>
    simp [valueCompare, Value.type, pure, Except.pure, bind, Except.bind]

theorem valueCompare_pointer {base : Ty} {x y : Address} :
    valueCompare site functions cmp (.pointer (.pointer base) x) (.pointer (.pointer base) y) =
      .error (.internal site) := by
  simp [valueCompare, Value.type, bind, Except.bind, throw, throwThe, MonadExceptOf.throw]

end

/-- `value_eq` compares two functions of one type by identity. -/
theorem valueEq_function {t : Ty} {f g : Nat} :
    valueEq (.function t f) (.function t g) = .ok (decide (f = g)) := by
  simp [valueEq, valueCompare, Value.type, pure, Except.pure, bind, Except.bind]

/-! ## Comparison nodes -/

/-- **Pointers pass the resolver's comparability checks but not the evaluator**: both predicates
accept every pointer type, and every comparison of two pointer values of one pointer type reaches
`UNREACHABLE()`: in `value_eq` for `==` and `!=`, in `value_lt` for `<` and `<=`, in `value_gt`
for `>` and `>=`. -/
theorem evalRvalue_compare_pointer {ss : Nat → Nat} {t base : Ty} {op : Bop} {lhs rhs : Expr}
    {x y : Address} (hop : op ∈ [Bop.eq, .ne, .le, .lt, .ge, .gt])
    (hl : evalRvalue ss lhs = .ok (.pointer (.pointer base) x))
    (hr : evalRvalue ss rhs = .ok (.pointer (.pointer base) y)) :
    typeCanCompareEquality (.pointer base) = true ∧ typeCanCompareOrder (.pointer base) = true ∧
      evalRvalue ss (.binary t op lhs rhs) = .error (.internal
        (if op = .eq ∨ op = .ne then "value_eq" else if op = .le ∨ op = .lt then "value_lt"
          else "value_gt")) := by
  refine ⟨rfl, rfl, ?_⟩
  rw [evalRvalue_binary_of_ok hl hr]
  simp only [List.mem_cons, List.mem_singleton, List.not_mem_nil, or_false] at hop
  rcases hop with rfl | rfl | rfl | rfl | rfl | rfl <;>
    simp [evalBinary, valueEq, valueLt, valueGt, valueCompare_pointer, bind, Except.bind]

/-- `&x == &y` for two static `u8` variables: `value_eq` reaches `UNREACHABLE()`. -/
theorem evalRvalue_compare_pointer_addressof :
    let x : Symbol := ⟨"x", .variable (.int .u8) (.static "x" 0) (some (.integer (.int .u8) 1))⟩
    let y : Symbol := ⟨"y", .variable (.int .u8) (.static "y" 0) (some (.integer (.int .u8) 2))⟩
    evalRvalue (fun _ => 0) (.binary .bool .eq (.unary (.pointer (.int .u8)) .addressof (.symbol x))
      (.unary (.pointer (.int .u8)) .addressof (.symbol y))) = .error (.internal "value_eq") := by
  intro x y
  exact (evalRvalue_compare_pointer (List.mem_cons_self _ _)
    (show evalRvalue (fun _ => 0) (.unary (.pointer (.int .u8)) .addressof (.symbol x)) =
      .ok (.pointer (.pointer (.int .u8)) (.static "x" 0)) from rfl)
    (show evalRvalue (fun _ => 0) (.unary (.pointer (.int .u8)) .addressof (.symbol y)) =
      .ok (.pointer (.pointer (.int .u8)) (.static "y" 0)) from rfl)).2.2

/-- The six comparisons of two sized integers of one type. -/
theorem evalBinary_compare_int {ss : Nat → Nat} {t : Ty} (k : IntKind) (a b : Int) :
    evalBinary ss t .eq (.integer (.int k) a) (.integer (.int k) b) = .ok (.boolean (decide (a = b))) ∧
    evalBinary ss t .ne (.integer (.int k) a) (.integer (.int k) b) = .ok (.boolean !(decide (a = b))) ∧
    evalBinary ss t .le (.integer (.int k) a) (.integer (.int k) b) = .ok (.boolean (decide (a ≤ b))) ∧
    evalBinary ss t .lt (.integer (.int k) a) (.integer (.int k) b) = .ok (.boolean (decide (a < b))) ∧
    evalBinary ss t .ge (.integer (.int k) a) (.integer (.int k) b) = .ok (.boolean (decide (b ≤ a))) ∧
    evalBinary ss t .gt (.integer (.int k) a) (.integer (.int k) b) = .ok (.boolean (decide (b < a))) := by
  refine ⟨?_, ?_, ?_, ?_, ?_, ?_⟩ <;>
    simp only [evalBinary, valueEq, valueLt, valueGt, valueCompare_scalar.2.2, bind, Except.bind,
      pure, Except.pure]
  all_goals
    rcases lt_trichotomy a b with h | rfl | h
    · simp [h, h.le, h.ne, h.not_le, h.not_lt]
    · simp
    · simp [h, h.le, h.not_lt, h.ne', h.not_le]

/-! ## Evaluation order -/

/-- **Both operands of a binary node are evaluated before its operator is read**: whatever the
left operand's value and whatever the operator, `or` and `and` included, a failure of the right
operand is the failure of the node. -/
theorem evalRvalue_binary_strict {ss : Nat → Nat} {t : Ty} {op : Bop} {lhs rhs : Expr} {l : Value}
    {f : Fault} (hl : evalRvalue ss lhs = .ok l) (hr : evalRvalue ss rhs = .error f) :
    evalRvalue ss (.binary t op lhs rhs) = .error f := by
  rw [evalRvalue_binary, hl, hr]
  rfl

/-- `true or A[5u] == 0u8` for a constant `A: [1]u8`: the index diagnostic of the right operand,
where the left operand already decides `true`. -/
theorem evalRvalue_binary_strict_or :
    let A : Symbol := ⟨"A", .constant (.array 1 (.int .u8)) (.static "A" 0)
      (.array (.array 1 (.int .u8)) [.integer (.int .u8) 0])⟩
    evalRvalue (fun _ => 0) (.binary .bool .or (.boolean true)
        (.binary .bool .eq (.accessIndex (.int .u8) (.symbol A) (.integer usize 5))
          (.integer (.int .u8) 0))) =
      .error (.fatal "index out-of-bounds (array count is 1, received 5)") :=
  evalRvalue_binary_strict rfl rfl

end Sunder
