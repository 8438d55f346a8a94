import Sunder.Eval

/-!
# Integer arithmetic of the evaluator

`ADD`, `SUB` and `MUL` check the exact result against the node's type before building it
(`integer_is_out_of_range`); `DIV` only checks for a zero divisor. The truncated quotient of two
in-range values is in range except for the most negative value of a signed type divided by `-1`
(`tdiv_mem_bounds`), and that one division reaches the assertion of `value_new_integer`.

* `evalArithmetic_int`: the exact sum, difference or product, or the range diagnostic.
* `evalDiv_int`, `evalDiv_internal_iff`: the quotient is built unchecked, and the assertion
  fails exactly at `min / -1`.
* `evalRvalue_div_min_neg_one`: the `s64` instance, as constant folding hands it to
  `eval_rvalue`.
* `evalRvalue_int_ops`: the nodes `+`, `-`, `*`, `/` and the negation on operands that evaluate
  to in-range values of one sized integer type, each with its result or its diagnostic.
-/

namespace Sunder

theorem valueNewInteger_eq_internal {k : IntKind} {x : Int} :
    valueNewInteger (.int k) x = .error (.internal "value_new_integer") ↔
      ¬(k.min ≤ x ∧ x ≤ k.max) := by
  by_cases h : k.min ≤ x ∧ x ≤ k.max <;>
    simp [valueNewInteger, Ty.bounds, h, pure, Except.pure, throw, throwThe, MonadExceptOf.throw]

/-- The truncated quotient of two in-range values of a sized integer type is in range, except
the most negative value divided by `-1`. -/
theorem tdiv_mem_bounds {k : IntKind} {a b : Int} (ha : k.min ≤ a ∧ a ≤ k.max)
    (hb : k.min ≤ b ∧ b ≤ k.max) (h0 : b ≠ 0) :
    (k.min ≤ a.tdiv b ∧ a.tdiv b ≤ k.max) ↔ ¬(a = k.min ∧ b = -1) := by
  have hq : (a.tdiv b).natAbs = a.natAbs / b.natAbs := Int.natAbs_tdiv a b
  cases hs : k.isSigned
  · have hmin := IntKind.min_of_unsigned hs
    have hq0 : 0 ≤ a.tdiv b := Int.tdiv_nonneg (by omega) (by omega)
    have hle : a.natAbs / b.natAbs ≤ a.natAbs := Nat.div_le_self _ _
    omega
  · obtain ⟨hmin, hmax⟩ := IntKind.bounds_of_signed hs
    have hM := k.half_range_ge
    by_cases hn : b = -1
    · subst hn
      rw [Int.tdiv_neg, Int.tdiv_one]
      omega
    by_cases hp : b = 1
    · subst hp
      rw [Int.tdiv_one]
      omega
    have h2 : a.natAbs / b.natAbs ≤ a.natAbs / 2 := Nat.div_le_div_left (by omega) (by omega)
    omega

/-- `ADD`, `SUB` and `MUL` on two integers of the node's type: the exact result when it is in
range, the range diagnostic otherwise. -/
theorem evalArithmetic_int (k : IntKind) (sym : String) (f : Int → Int → Int) (a b : Int) :
    evalArithmetic (.int k) sym f (.integer (.int k) a) (.integer (.int k) b) =
      if k.min ≤ f a b ∧ f a b ≤ k.max then .ok (.integer (.int k) (f a b))
      else .error (.fatal
        s!"arithmetic operation produces out-of-range result ({a} {sym} {b} == {f a b})") := by
  by_cases h : k.min ≤ f a b ∧ f a b ≤ k.max
  · have hr : ¬(f a b < k.min ∨ k.max < f a b) := by omega
    simp [evalArithmetic, h, hr, integerIsOutOfRange, Value.type, Value.intPayload,
      valueNewInteger_of_bounds h.1 h.2, bind, Except.bind, pure, Except.pure]
  · have hr : f a b < k.min ∨ k.max < f a b := by omega
    simp [evalArithmetic, h, hr, integerIsOutOfRange, Value.type, Value.intPayload, bind,
      Except.bind, pure, Except.pure, throw, throwThe, MonadExceptOf.throw]

/-- `DIV` on two integers of the node's type: the divide-by-zero diagnostic, or the quotient
handed to `value_new_integer` without a range check. -/
theorem evalDiv_int (k : IntKind) (a b : Int) :
    evalDiv (.int k) (.integer (.int k) a) (.integer (.int k) b) =
      if b = 0 then .error (.fatal s!"divide by zero ({a} / {b})")
      else valueNewInteger (.int k) (a.tdiv b) := by
  by_cases h : b = 0 <;>
    simp [evalDiv, h, Value.type, Value.intPayload, bind, Except.bind, pure, Except.pure, throw,
      throwThe, MonadExceptOf.throw]

/-- **Division of in-range operands fails the assertion of `value_new_integer` exactly at the
most negative value divided by `-1`.** -/
theorem evalDiv_internal_iff {k : IntKind} {a b : Int} (ha : k.min ≤ a ∧ a ≤ k.max)
    (hb : k.min ≤ b ∧ b ≤ k.max) :
    evalDiv (.int k) (.integer (.int k) a) (.integer (.int k) b) =
      .error (.internal "value_new_integer") ↔ a = k.min ∧ b = -1 := by
  rw [evalDiv_int]
  by_cases h0 : b = 0
  · simp [h0]
  · rw [if_neg h0, valueNewInteger_eq_internal, tdiv_mem_bounds ha hb h0, not_not]

/-- `-9223372036854775808s64 / -1s64`: both literals are in range, and the folded division
stops at the assertion. -/
theorem evalRvalue_div_min_neg_one (ss : Nat → Nat) :
    evalRvalue ss (.binary (.int .s64) .div (.integer (.int .s64) (-9223372036854775808))
      (.integer (.int .s64) (-1))) = .error (.internal "value_new_integer") := rfl

theorem valueNewInteger_ne_fatal {t : Ty} {x : Int} {m : String} :
    valueNewInteger t x ≠ .error (.fatal m) := by
  unfold valueNewInteger
  split
  · split <;> simp [pure, Except.pure, throw, throwThe, MonadExceptOf.throw]
  · simp [throw, throwThe, MonadExceptOf.throw]

/-- `-x` of an integer of the node's type: the negation when it is in range, the range diagnostic
otherwise. -/
theorem evalUnary_neg_int (ss : Nat → Nat) (k : IntKind) (x : Int) (lv : Except Fault Value) :
    evalUnary ss (.int k) .neg (.ok (.integer (.int k) x)) lv =
      if k.min ≤ -x ∧ -x ≤ k.max then .ok (.integer (.int k) (-x))
      else .error (.fatal s!"arithmetic operation produces out-of-range result (-({x}) == {-x})") := by
  by_cases h : k.min ≤ -x ∧ -x ≤ k.max
  · have hr : ¬(-x < k.min ∨ k.max < -x) := by omega
    simp [evalUnary, h, hr, integerIsOutOfRange, Value.type, Value.intPayload,
      valueNewInteger_of_bounds h.1 h.2, bind, Except.bind, pure, Except.pure]
  · have hr : -x < k.min ∨ k.max < -x := by omega
    simp [evalUnary, h, hr, integerIsOutOfRange, Value.type, Value.intPayload, bind,
      Except.bind, pure, Except.pure, throw, throwThe, MonadExceptOf.throw]

section
variable {ss : Nat → Nat} {k : IntKind} {lhs rhs : Expr} {a b : Int}

/-- **Compile-time arithmetic on in-range values of a sized integer type.** `+`, `-`, `*` and
the negation give the exact result when it is in range and the range diagnostic otherwise; `/`
gives the divide-by-zero diagnostic exactly for a zero divisor, and otherwise the truncated
quotient when it is in range, but an out-of-range quotient fails the assertion of
`value_new_integer` instead of the range diagnostic. -/
theorem evalRvalue_int_ops (ha : k.min ≤ a ∧ a ≤ k.max) (hb : k.min ≤ b ∧ b ≤ k.max)
    (hl : evalRvalue ss lhs = .ok (.integer (.int k) a))
    (hr : evalRvalue ss rhs = .ok (.integer (.int k) b)) :
    (∀ (op : Bop) (sym : String) (f : Int → Int → Int),
      (op = .add ∧ sym = "+" ∧ f = (· + ·)) ∨ (op = .sub ∧ sym = "-" ∧ f = (· - ·)) ∨
        (op = .mul ∧ sym = "*" ∧ f = (· * ·)) →
      evalRvalue ss (.binary (.int k) op lhs rhs) =
        if k.min ≤ f a b ∧ f a b ≤ k.max then .ok (.integer (.int k) (f a b))
        else .error (.fatal
          s!"arithmetic operation produces out-of-range result ({a} {sym} {b} == {f a b})")) ∧
    (evalRvalue ss (.unary (.int k) .neg lhs) =
      if k.min ≤ -a ∧ -a ≤ k.max then .ok (.integer (.int k) (-a))
      else .error (.fatal s!"arithmetic operation produces out-of-range result (-({a}) == {-a})")) ∧
    (evalRvalue ss (.binary (.int k) .div lhs rhs) = .error (.fatal s!"divide by zero ({a} / {b})") ↔
      b = 0) ∧
    (b ≠ 0 → k.min ≤ a.tdiv b ∧ a.tdiv b ≤ k.max →
      evalRvalue ss (.binary (.int k) .div lhs rhs) = .ok (.integer (.int k) (a.tdiv b))) ∧
    (evalRvalue ss (.binary (.int k) .div lhs rhs) = .error (.internal "value_new_integer") ↔
      a = k.min ∧ b = -1) := by
  have hdiv : evalRvalue ss (.binary (.int k) .div lhs rhs) =
      evalDiv (.int k) (.integer (.int k) a) (.integer (.int k) b) := evalRvalue_binary_of_ok hl hr
  refine ⟨fun op sym f hop => ?_, ?_, ?_, fun h0 hq => ?_, hdiv ▸ evalDiv_internal_iff ha hb⟩
  · rw [evalRvalue_binary_of_ok hl hr]
    obtain ⟨rfl, rfl, rfl⟩ | ⟨rfl, rfl, rfl⟩ | ⟨rfl, rfl, rfl⟩ := hop <;>
      exact evalArithmetic_int k _ _ a b
  · rw [evalRvalue_unary, hl]
    exact evalUnary_neg_int ss k a _
  · rw [hdiv, evalDiv_int]
    by_cases h0 : b = 0
    · simp [h0]
    · simp only [h0, if_false, iff_false]
      exact valueNewInteger_ne_fatal
  · rw [hdiv, evalDiv_int, if_neg h0, valueNewInteger_of_bounds hq.1 hq.2]

end

/-- `-9223372036854775808s / -1s`: two in-range `ssize` literals whose quotient is out of range;
the division fails the assertion instead of reporting the range diagnostic. -/
theorem evalRvalue_int_ops_ssize_min :
    evalRvalue (fun _ => 0) (.binary ssize .div (.integer ssize (-9223372036854775808))
      (.integer ssize (-1))) = .error (.internal "value_new_integer") :=
  (@evalRvalue_int_ops (fun _ => 0) .ssize (.integer ssize (-9223372036854775808))
    (.integer ssize (-1)) (-9223372036854775808) (-1) (by decide) (by decide) rfl rfl).2.2.2.2.2
    ⟨rfl, rfl⟩

end Sunder
