import Sunder.EvalArith

/-!
# Arrays, slices and addresses in the evaluator

The array-list, slice and index cases of `eval_rvalue` and the cases of `eval_lvalue`, on
operands already evaluated.

* `evalArrayFill_array`, `evalRvalue_arrayList_ellipsis`: an array list with an ellipsis is its
  elements' values followed by `count - k` clones of the ellipsis's value; with more elements than
  the count nothing is added and `value_new_array`'s count assertion fails.
* `evalRvalue_accessSlice_array`: slicing an array checks `begin < count` and `end ≤ count`, never
  `begin ≤ end`; the slice of the array starts `begin * sizeof(elem)` bytes in and counts
  `end - begin`, which fails the assertion of `value_new_integer` when `end < begin`.
* `evalLvalue_symbol_static`, `evalLvalueIndex_array`: the address of an identifier is its
  static address, an index into an array adds `index * sizeof(elem)` to it.
* `evalLvalue_index_slice`: an index into a slice is an lvalue, but its address fails an
  assertion, for a slice identifier and for a bytes literal alike.
-/

namespace Sunder

theorem indexToUz_of_mem {x : Int} (h : 0 ≤ x ∧ x < 2 ^ 64) : indexToUz x = .ok x.toNat := by
  rw [indexToUz, bigintToUz, if_pos h]
  rfl

/-! ## Array lists -/

section
variable {ss : Nat → Nat}

theorem evalRvalueList_length : ∀ {es : List Expr} {vs : List Value},
    evalRvalueList ss es = .ok vs → vs.length = es.length
  | [], vs, h => by
    simp only [evalRvalueList, pure, Except.pure, Except.ok.injEq] at h
    rw [← h]
    rfl
  | e :: es, vs, h => by
    simp only [evalRvalueList, bind, Except.bind] at h
    split at h
    · cases h
    · split at h
      · cases h
      · next hes =>
        simp only [pure, Except.pure, Except.ok.injEq] at h
        rw [← h, List.length_cons, evalRvalueList_length hes, List.length_cons]

end

theorem mapM_valueClone_replicate {v : Value} (hv : v.WellFormed) :
    ∀ n, (List.replicate n v).mapM valueClone = .ok (List.replicate n v)
  | 0 => rfl
  | n + 1 => by
    rw [List.replicate_succ, List.mapM_cons, valueClone_of_wellFormed hv,
      mapM_valueClone_replicate hv n]
    rfl

/-- The ellipsis of an array list of type `[count]b` after `first` elements of values `vs`: the
clones of a well-formed value `fv` up to the count, then `value_new_array`'s count check. -/
theorem evalArrayFill_array {count : Nat} {b : Ty} {vs : List Value} {first : Nat} {fv : Value}
    (hfv : fv.WellFormed) :
    evalArrayFill (.array count b) vs first fv =
      if count = vs.length + (count - first) then
        .ok (.array (.array count b) (vs ++ List.replicate (count - first) fv))
      else .error (.internal "value_new_array") := by
  simp only [evalArrayFill, mapM_valueClone_replicate hfv, bind, Except.bind, valueNewArray,
    List.length_append, List.length_replicate]
  split <;> rfl

/-- **An array list with an ellipsis** whose elements evaluate to `vs` and whose ellipsis evaluates
to a well-formed `fv`: with at most `count` elements, the array of the values followed by
`count - k` copies of `fv`; with more, `value_new_array`'s count assertion fails. -/
theorem evalRvalue_arrayList_ellipsis {ss : Nat → Nat} {count : Nat} {b : Ty} {es : List Expr}
    {f : Expr} {vs : List Value} {fv : Value} (hes : evalRvalueList ss es = .ok vs)
    (hf : evalRvalue ss f = .ok fv) (hfv : fv.WellFormed) :
    evalRvalue ss (.arrayList (.array count b) es (some f)) =
      if es.length ≤ count then
        .ok (.array (.array count b) (vs ++ List.replicate (count - es.length) fv))
      else .error (.internal "value_new_array") := by
  rw [evalRvalue_arrayList_of_ok hes hf, evalArrayFill_array hfv, evalRvalueList_length hes]
  by_cases h : es.length ≤ count
  · rw [if_pos (by omega), if_pos h]
  · rw [if_neg (by omega), if_neg h]

/-! ## Slices of arrays -/

section
variable {ss : Nat → Nat} {count : Nat} {elem : Ty} {es : List Value} {bx ex : Int}
  {name : String} {off : Nat}

/-- The slice case on an array value of type `[count]elem`, two `usize` bounds and the array's
static address. -/
theorem evalAccessSlice_array (hb : 0 ≤ bx ∧ bx < 2 ^ 64) (he : 0 ≤ ex ∧ ex < 2 ^ 64) :
    evalAccessSlice ss (.slice elem) (.array (.array count elem) es) (.integer usize bx)
        (.integer usize ex) (.ok (.pointer (.pointer (.array count elem)) (.static name off))) =
      if count ≤ bx.toNat then
        .error (.fatal s!"index out-of-bounds (array count is {count}, received {bx.toNat})")
      else if count < ex.toNat then
        .error (.fatal s!"index out-of-bounds (array count is {count}, received {ex.toNat})")
      else if ex < bx then .error (.internal "value_new_integer")
      else .ok (.slice (.slice elem)
        (.pointer (.pointer elem) (.static name ((off + bx.toNat * elem.size ss) % 2 ^ 64)))
        (.integer usize (ex - bx))) := by
  -- `delta`: the equation lemma of `evalAccessSlice` splits every wildcard pattern
  delta evalAccessSlice
  simp only [Value.type, Value.intPayload, indexToUz_of_mem hb, indexToUz_of_mem he, decide_True,
    check_true, bind, Except.bind, pure, Except.pure]
  by_cases h₁ : count ≤ bx.toNat
  · rw [if_pos h₁, if_pos h₁]
  rw [if_neg h₁, if_neg h₁]
  by_cases h₂ : count < ex.toNat
  · rw [if_pos h₂, if_pos h₂]
  rw [if_neg h₂, if_neg h₂]
  have hmin : IntKind.usize.min = 0 := rfl
  have hmax : IntKind.usize.max = 2 ^ 64 - 1 := rfl
  by_cases h₃ : ex < bx
  · rw [if_pos h₃, valueNewInteger_eq_internal.2 (by omega)]
  · rw [if_neg h₃, valueNewInteger_of_bounds (by omega) (by omega)]
    simp [valueNewSlice, Value.type, show (0 : Int) ≤ ex - bx by omega, pure, Except.pure]

/-- **Slicing an array in a constant expression**: the bounds are checked as `begin < count` and
`end ≤ count`, so the empty slice at the end of an array is refused, and `begin ≤ end` is not
checked: the count `end - begin` of a reversed slice fails the assertion of `value_new_integer`.
Otherwise the slice starts `begin * sizeof(elem)` bytes into the array and counts
`end - begin`. -/
theorem evalRvalue_accessSlice_array {lhs b e : Expr}
    (hl : evalRvalue ss lhs = .ok (.array (.array count elem) es))
    (hlp : evalLvalue ss lhs = .ok (.pointer (.pointer (.array count elem)) (.static name off)))
    (hbv : evalRvalue ss b = .ok (.integer usize bx)) (hev : evalRvalue ss e = .ok (.integer usize ex))
    (hb : 0 ≤ bx ∧ bx < 2 ^ 64) (he : 0 ≤ ex ∧ ex < 2 ^ 64) :
    evalRvalue ss (.accessSlice (.slice elem) lhs b e) =
      if count ≤ bx.toNat then
        .error (.fatal s!"index out-of-bounds (array count is {count}, received {bx.toNat})")
      else if count < ex.toNat then
        .error (.fatal s!"index out-of-bounds (array count is {count}, received {ex.toNat})")
      else if ex < bx then .error (.internal "value_new_integer")
      else .ok (.slice (.slice elem)
        (.pointer (.pointer elem) (.static name ((off + bx.toNat * elem.size ss) % 2 ^ 64)))
        (.integer usize (ex - bx))) := by
  rw [evalRvalue_accessSlice_of_ok hl hbv hev, hlp]
  exact evalAccessSlice_array hb he

end

/-- `A[3u:1u]` and `A[4u:4u]` for a constant `A: [4]u8`: the reversed slice fails the assertion
of `value_new_integer`, the empty slice at the end is refused. -/
theorem evalRvalue_accessSlice_array_A :
    let A : Symbol := ⟨"A", .constant (.array 4 (.int .u8)) (.static "A" 0)
      (.array (.array 4 (.int .u8)) (List.replicate 4 (.integer (.int .u8) 0)))⟩
    evalRvalue (fun _ => 0) (.accessSlice (.slice (.int .u8)) (.symbol A) (.integer usize 3)
        (.integer usize 1)) = .error (.internal "value_new_integer") ∧
      evalRvalue (fun _ => 0) (.accessSlice (.slice (.int .u8)) (.symbol A) (.integer usize 4)
        (.integer usize 4)) = .error (.fatal "index out-of-bounds (array count is 4, received 4)") := by
  intro A
  have hl : evalRvalue (fun _ => 0) (.symbol A) =
      .ok (.array (.array 4 (.int .u8)) (List.replicate 4 (.integer (.int .u8) 0))) := rfl
  have hlp : evalLvalue (fun _ => 0) (.symbol A) =
      .ok (.pointer (.pointer (.array 4 (.int .u8))) (.static "A" 0)) := rfl
  have hu : ∀ x : Int, evalRvalue (fun _ => 0) (.integer usize x) =
      valueNewInteger usize x := fun _ => rfl
  constructor
  · rw [evalRvalue_accessSlice_array hl hlp ((hu 3).trans rfl) ((hu 1).trans rfl) (by decide)
      (by decide)]
    rfl
  · rw [evalRvalue_accessSlice_array hl hlp ((hu 4).trans rfl) ((hu 4).trans rfl) (by decide)
      (by decide)]
    rfl

/-! ## Addresses -/

/-- The address of a variable or constant with a static address. -/
theorem evalLvalue_symbol_static {ss : Nat → Nat} {s : Symbol} {name : String} {off : Nat}
    (hk : s.kind = .variable ∨ s.kind = .constant) (ha : s.address = some (.static name off)) :
    evalLvalue ss (.symbol s) = .ok (.pointer (.pointer s.type) (.static name off)) := by
  have hv : exprIsLvalue (.symbol s) = .ok true := by
    rcases hk with hk | hk <;> simp [exprIsLvalue, hk, pure, Except.pure]
  simp [evalLvalue, hv, evalLvalueSymbol, ha, valueNewPointer, bind, Except.bind, pure,
    Except.pure]

/-- An index into an array adds `index * sizeof(elem)` to the array's static address, after the
index is checked against the count of the indexed operand's type. -/
theorem evalLvalueIndex_array {ss : Nat → Nat} {count n : Nat} {elem elem' : Ty} {name : String}
    {off : Nat} {x : Int} (hx : 0 ≤ x ∧ x < 2 ^ 64) :
    evalLvalueIndex ss (.array count elem') (.pointer (.pointer (.array n elem)) (.static name off))
        (.integer usize x) =
      if count ≤ x.toNat then
        .error (.fatal s!"index out-of-bounds (array count is {count}, received {x})")
      else .ok (.pointer (.pointer elem) (.static name ((off + elem.size ss * x.toNat) % 2 ^ 64))) := by
  delta evalLvalueIndex
  simp only [Value.type, Value.intPayload, indexToUz_of_mem hx, decide_True, check_true, bind,
    Except.bind, pure, Except.pure]
  by_cases h : count ≤ x.toNat
  · rw [if_pos h, if_pos h]
  · rw [if_neg h, if_neg h]
    rfl

/-- **An index into a slice is an lvalue whose address fails an assertion.** `tir_expr_is_lvalue`
accepts every index of a slice, so `&` may be taken of it; `eval_lvalue` then finds a pointer to a
slice where it asserts a pointer to an array, and for a bytes literal it finds no lvalue at
all. -/
theorem evalLvalue_index_slice {ss : Nat → Nat} {t base : Ty} {lhs idx : Expr} {a bytes : Address}
    {n : Nat} {x : Int} (hlt : lhs.type = .slice base)
    (hl : evalLvalue ss lhs = .ok (.pointer (.pointer (.slice base)) a))
    (hi : evalRvalue ss idx = .ok (.integer usize x)) :
    exprIsLvalue (.accessIndex t lhs idx) = .ok true ∧
      evalLvalue ss (.accessIndex t lhs idx) = .error (.internal "eval_lvalue: array type") ∧
      exprIsLvalue (.accessIndex t (.bytes bytes n) idx) = .ok true ∧
      evalLvalue ss (.accessIndex t (.bytes bytes n) idx) = .error (.internal "eval_lvalue") := by
  have hv : exprIsLvalue (.accessIndex t lhs idx) = .ok true := by
    simp [exprIsLvalue, hlt, pure, Except.pure]
  have hb : exprIsLvalue (.accessIndex t (.bytes bytes n) idx) = .ok true := by
    simp [exprIsLvalue, Expr.type, pure, Except.pure]
  refine ⟨hv, ?_, hb, ?_⟩
  · rw [evalLvalue_accessIndex_of_ok hv hl hi]
    delta evalLvalueIndex
    simp [Value.type, bind, Except.bind, throw, throwThe, MonadExceptOf.throw]
  · simp [evalLvalue, hb, exprIsLvalue, Expr.type, check, bind, Except.bind, pure, Except.pure,
      throw, throwThe, MonadExceptOf.throw]

/-- `&S[0u]` for a constant `S: []byte`: the address of the indexed slice fails the assertion. -/
theorem evalLvalue_index_slice_S :
    let S : Symbol := ⟨"S", .constant (.slice .byte) (.static "S" 0)
      (.slice (.slice .byte) (.pointer (.pointer .byte) (.static "__bytes_0" 0)) (.integer usize 3))⟩
    evalRvalue (fun _ => 0) (.unary (.pointer .byte) .addressof
        (.accessIndex .byte (.symbol S) (.integer usize 0))) =
      .error (.internal "eval_lvalue: array type") := by
  intro S
  have hl : evalLvalue (fun _ => 0) (.symbol S) =
      .ok (.pointer (.pointer (.slice .byte)) (.static "S" 0)) := rfl
  have hi : evalRvalue (fun _ => 0) (.integer usize 0) = .ok (.integer usize 0) := rfl
  rw [evalRvalue_unary]
  exact (@evalLvalue_index_slice (fun _ => 0) .byte .byte (.symbol S) (.integer usize 0)
    (.static "S" 0) (.static "__bytes_0" 0) 3 0 rfl hl hi).2.1

end Sunder
