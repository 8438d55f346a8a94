import Sunder.Value
/-!
# Two's complement

The bit arrays and byte images of `tir.c` and `eval.c` (`bigint_to_bitarr`, `bitarr_to_bigint`,
`value_to_new_bytes`'s bit loop) are read here through `Int.testBit`, the two's complement bit of
an integer, whatever its sign.

* `bigintToBitarr_eq`: the `w` bits written for a value whose magnitude fits are its low `w`
  two's complement bits (`toNat_emod_testBit`).
* `bitarrToBigint_testBit`: reading those bits back gives the residue modulo `2 ^ w`, in two's
  complement when signed (`Int.bmod`); the weighted sum is `sum_range_int_testBit`.
* `bitarrToBytes_testBit`: the byte loop gives the little-endian bytes of the residue
  (`natBytes`), which `bytesNat` reads back (`bytesNat_natBytes`).
* `IntKind.wrap`: the value of a kind congruent to an integer. It lies in the kind's range
  (`wrap_mem`), is the only such value (`wrap_unique`), fixes the range (`wrap_of_mem`), and
  fixes the bitwise operators on the range (`wrap_bitwise`, `wrap_lnot`).
-/

namespace Sunder

/-- Bit `i` of the residue of `x` modulo `2 ^ w` is bit `i` of `x` in two's complement. -/
theorem toNat_emod_testBit (x : Int) {w i : Nat} (hi : i < w) :
    (x % 2 ^ w).toNat.testBit i = x.testBit i := by
  cases x with
  | ofNat m =>
    have : (Int.ofNat m % 2 ^ w).toNat = m % 2 ^ w := by
      rw [Int.ofNat_eq_coe, show ((2 : Int) ^ w) = ((2 ^ w : Nat) : Int) by push_cast; rfl,
        ← Int.natCast_mod]; rfl
    rw [this, Nat.testBit_mod_two_pow]
    simp [hi, Int.testBit]
  | negSucc m =>
    have hm : m % 2 ^ w < 2 ^ w := Nat.mod_lt _ (Nat.two_pow_pos w)
    have : (Int.negSucc m % 2 ^ w).toNat = 2 ^ w - (m % 2 ^ w + 1) := by
      have h₁ : ((m % 2 ^ w : Nat) : Int) = (m : Int) % 2 ^ w := by push_cast; rfl
      have h₂ : ((2 ^ w : Nat) : Int) = 2 ^ w := by push_cast; rfl
      rw [Int.negSucc_emod _ (by positivity)]
      omega
    rw [this, Nat.testBit_two_pow_sub_succ hm, Nat.testBit_mod_two_pow]
    simp [hi, Int.testBit]

/-- `bigint_to_bitarr` of a value whose magnitude fits: its `w` two's complement bits. -/
theorem bigintToBitarr_eq {w : Nat} {x : Int} (h : x.natAbs < 2 ^ w) :
    bigintToBitarr w x = some ((List.range w).map x.testBit) := by
  rw [bigintToBitarr, if_pos h]
  exact congrArg some (List.map_congr_left fun i hi => toNat_emod_testBit x (List.mem_range.1 hi))

/-- The low `w` bits of `n`, weighted, sum to `n % 2 ^ w`. -/
theorem sum_range_testBit (n : Nat) : ∀ w : Nat,
    ((List.range w).map fun i => if n.testBit i then 2 ^ i else 0).sum = n % 2 ^ w
  | 0 => by simp [Nat.mod_one]
  | w + 1 => by
    rw [List.range_succ, List.map_append, List.sum_append, sum_range_testBit n w, Nat.mod_pow_succ,
      List.map_singleton, List.sum_singleton, Nat.testBit_to_div_mod]
    rcases Nat.mod_two_eq_zero_or_one (n / 2 ^ w) with h | h <;> simp [h]

/-- The low `w` two's complement bits of `x`, weighted, sum to the residue of `x`. -/
theorem sum_range_int_testBit (x : Int) (w : Nat) :
    ((List.range w).map fun i => if x.testBit i then 2 ^ i else 0).sum = (x % 2 ^ w).toNat := by
  have h₀ := Int.emod_nonneg x (pow_ne_zero w two_ne_zero : (2 : Int) ^ w ≠ 0)
  have h₁ := Int.emod_lt_of_pos x (pow_pos two_pos w : (0 : Int) < 2 ^ w)
  have h₂ : ((2 ^ w : Nat) : Int) = 2 ^ w := by push_cast; rfl
  rw [← Nat.mod_eq_of_lt (show (x % 2 ^ w).toNat < 2 ^ w by omega), ← sum_range_testBit]
  exact congrArg List.sum (List.map_congr_left fun i hi => by
    rw [toNat_emod_testBit x (List.mem_range.1 hi)])

/-- `bitarr_to_bigint` of `w` bits given by `f`: their weighted sum, less `2 ^ w` when read
signed with the top bit set. -/
theorem bitarrToBigint_range (f : Nat → Bool) (w : Nat) (signed : Bool) :
    bitarrToBigint ((List.range w).map f) signed =
      if signed ∧ w ≠ 0 ∧ f (w - 1) then
        ((((List.range w).map fun i => if f i then 2 ^ i else 0).sum : Nat) : Int) - 2 ^ w
      else ((((List.range w).map fun i => if f i then 2 ^ i else 0).sum : Nat) : Int) := by
  have henum : ((List.range w).map f).enum = (List.range w).map fun i => (i, f i) := by
    apply List.ext_getElem <;> simp
  have hlast : ((List.range w).map f).getLastD false = (w ≠ 0 ∧ f (w - 1)) := by
    rw [List.getLastD_eq_getLast?, List.getLast?_map, List.getLast?_range]
    split_ifs <;> simp_all
  simp only [bitarrToBigint, henum, List.map_map, hlast, List.length_map, List.length_range]
  rfl

/-- The top bit of a number below `2 ^ (w + 1)` says whether it reaches `2 ^ w`. -/
theorem testBit_top {n w : Nat} (hn : n < 2 * 2 ^ w) : n.testBit w = decide (2 ^ w ≤ n) := by
  by_cases h : 2 ^ w ≤ n
  · obtain ⟨m, rfl⟩ : ∃ m, n = 2 ^ w + m := ⟨n - 2 ^ w, by omega⟩
    rw [Nat.testBit_two_pow_add_eq, Nat.testBit_lt_two_pow (by omega)]
    simp
  · rw [Nat.testBit_lt_two_pow (by omega)]
    simp [h]

/-- `bitarr_to_bigint` of the `w` bits of `x`: the residue of `x` modulo `2 ^ w`, read in two's
complement when `signed`. -/
theorem bitarrToBigint_testBit (x : Int) {w : Nat} (hw : 0 < w) (signed : Bool) :
    bitarrToBigint ((List.range w).map x.testBit) signed =
      if signed then x.bmod (2 ^ w) else x % 2 ^ w := by
  have h₀ := Int.emod_nonneg x (pow_ne_zero w two_ne_zero : (2 : Int) ^ w ≠ 0)
  have h₁ := Int.emod_lt_of_pos x (pow_pos two_pos w : (0 : Int) < 2 ^ w)
  have hP : (2 : Int) ^ w = 2 * 2 ^ (w - 1) := by rw [← pow_succ', Nat.sub_add_cancel hw]
  have hP' : ((2 ^ (w - 1) : Nat) : Int) = 2 ^ (w - 1) := by push_cast; rfl
  have hn : (((x % 2 ^ w).toNat : Nat) : Int) = x % 2 ^ w := Int.toNat_of_nonneg h₀
  have htop : x.testBit (w - 1) = decide (2 ^ (w - 1) ≤ (x % 2 ^ w).toNat) := by
    rw [← toNat_emod_testBit x (Nat.sub_lt hw one_pos), testBit_top (by omega)]
  rw [bitarrToBigint_range, sum_range_int_testBit, htop, hn]
  cases signed
  · simp
  · rw [Int.bmod]
    push_cast
    have hc : ((2 : Int) ^ w + 1) / 2 = 2 ^ (w - 1) := by omega
    simp only [hc, true_and, ne_eq, Nat.pos_iff_ne_zero.1 hw, not_false_eq_true, decide_eq_true_eq,
      if_true]
    split_ifs <;> omega

/-! ## Bytes -/

theorem toNat_toUInt8_of_lt {n : Nat} (h : n < 256) : n.toUInt8.toNat = n :=
  UInt8.toNat_ofNat_of_lt h

@[simp] theorem toUInt8_toNat (b : UInt8) : b.toNat.toUInt8 = b :=
  UInt8.ext_iff.2 (UInt8.toNat_ofNat_of_lt b.toNat_lt_size)

/-- The `m` little-endian bytes of `n`. -/
def natBytes (m n : Nat) : List UInt8 := (List.range m).map fun j => (n / 256 ^ j % 256).toUInt8

/-- The number little-endian bytes stand for. -/
def bytesNat : List UInt8 → Nat
  | [] => 0
  | b :: bs => b.toNat + 256 * bytesNat bs

@[simp] theorem natBytes_zero (n : Nat) : natBytes 0 n = [] := rfl

@[simp] theorem length_natBytes (m n : Nat) : (natBytes m n).length = m := by simp [natBytes]

theorem natBytes_succ (m n : Nat) : natBytes (m + 1) n = (n % 256).toUInt8 :: natBytes m (n / 256) := by
  simp only [natBytes, List.range_succ_eq_map, List.map_cons, List.map_map, pow_zero, Nat.div_one]
  congr 1
  exact List.map_congr_left fun j _ => by
    simp only [Function.comp, Nat.succ_eq_add_one, pow_succ', Nat.div_div_eq_div_mul]

theorem bytesNat_natBytes : ∀ (m n : Nat), bytesNat (natBytes m n) = n % 256 ^ m
  | 0, n => by simp [natBytes, bytesNat, Nat.mod_one]
  | m + 1, n => by
    rw [natBytes_succ, bytesNat, bytesNat_natBytes m, toNat_toUInt8_of_lt (Nat.mod_lt _ (by decide)),
      pow_succ', Nat.mod_mul]

theorem bytesNat_eq_zero_iff : ∀ {bs : List UInt8}, bytesNat bs = 0 ↔ ∀ b ∈ bs, b = 0
  | [] => by simp [bytesNat]
  | b :: bs => by
    rw [bytesNat, List.forall_mem_cons, ← bytesNat_eq_zero_iff, UInt8.ext_iff]
    simp only [UInt8.toNat_zero]
    omega

/-- `bitarr_to_bytes` of the `m * 8` bits of `x`: the `m` little-endian bytes of its residue. -/
theorem bitarrToBytes_testBit (x : Int) (m : Nat) :
    bitarrToBytes ((List.range (m * 8)).map x.testBit) = natBytes m (x % 2 ^ (m * 8)).toNat := by
  simp only [bitarrToBytes, natBytes, List.length_map, List.length_range,
    show (m * 8 + 7) / 8 = m by omega]
  refine List.map_congr_left fun j hj => congrArg Nat.toUInt8 ?_
  have hj := List.mem_range.1 hj
  have hbit : ∀ i ∈ List.range 8, (if ((List.range (m * 8)).map x.testBit).getD (8 * j + i) false
      then 2 ^ i else 0) = if ((x % 2 ^ (m * 8)).toNat >>> (8 * j)).testBit i then 2 ^ i else 0 := by
    intro i hi
    have hi := List.mem_range.1 hi
    rw [List.getD_eq_getElem?_getD, List.getElem?_map, List.getElem?_range (by omega),
      Option.map_some', Option.getD_some, Nat.testBit_shiftRight,
      toNat_emod_testBit x (by omega)]
  rw [List.map_congr_left hbit, sum_range_testBit, Nat.shiftRight_eq_div_pow, pow_mul 2 8 j]
  rfl

/-- The residue modulo `2 ^ (m * 8)` fits in `m` bytes. -/
theorem toNat_emod_lt (x : Int) (m : Nat) : (x % 2 ^ (m * 8)).toNat < 256 ^ m := by
  have h₀ := Int.emod_nonneg x (pow_ne_zero _ two_ne_zero : (2 : Int) ^ (m * 8) ≠ 0)
  have h₁ := Int.emod_lt_of_pos x (pow_pos two_pos _ : (0 : Int) < 2 ^ (m * 8))
  have h₂ : ((2 ^ (m * 8) : Nat) : Int) = 2 ^ (m * 8) := by push_cast; rfl
  rw [show (256 : Nat) ^ m = 2 ^ (m * 8) by rw [Nat.mul_comm, pow_mul]; rfl]
  omega

/-- The bit `i` of little-endian bytes is bit `i % 8` of byte `i / 8`. -/
theorem testBit_natBytes {m n i : Nat} (hi : i < m * 8) :
    ((natBytes m n).getD (i / 8) 0).toNat.testBit (i % 8) = n.testBit i := by
  rw [natBytes, List.getD_eq_getElem?_getD, List.getElem?_map, List.getElem?_range (by omega),
    Option.map_some', Option.getD_some, toNat_toUInt8_of_lt (Nat.mod_lt _ (by decide)),
    show (256 : Nat) = 2 ^ 8 by rfl, Nat.testBit_mod_two_pow, ← pow_mul, ← Nat.shiftRight_eq_div_pow,
    Nat.testBit_shiftRight, Nat.div_add_mod]
  simp [Nat.mod_lt i (by decide : 8 > 0)]

/-! ## The ranges of the integer kinds -/

/-- Above the width of a range that holds `x`, every bit of `x` is its sign. -/
theorem testBit_of_bounds {x : Int} {n i : Nat} (h₀ : -2 ^ n ≤ x) (h₁ : x < 2 ^ n) (hi : n ≤ i) :
    x.testBit i = decide (x < 0) := by
  have hn : (2 : Nat) ^ n ≤ 2 ^ i := Nat.pow_le_pow_right two_pos hi
  have h₂ : ((2 ^ n : Nat) : Int) = 2 ^ n := by push_cast; rfl
  cases x with
  | ofNat m =>
    simp only [Int.testBit, Int.ofNat_eq_coe] at h₁ ⊢
    rw [Nat.testBit_lt_two_pow (by omega)]
    simp
  | negSucc m =>
    rw [Int.negSucc_eq] at h₀
    simp only [Int.testBit, Int.negSucc_lt_zero, decide_True]
    rw [Nat.testBit_lt_two_pow (by omega)]
    rfl

namespace IntKind

/-- The width of a kind in bits, `type->size * 8`. -/
theorem width_pos (k : IntKind) : 0 < k.size * 8 := by have := k.size_pos; omega

/-- The range of a kind in terms of its width `w`: `[-2^(w-1), 2^(w-1))` signed, `[0, 2^w)`
unsigned. -/
theorem bounds_width (k : IntKind) :
    (k.isSigned → k.min = -2 ^ (k.size * 8 - 1) ∧ k.max = 2 ^ (k.size * 8 - 1) - 1) ∧
      (k.isSigned = false → k.min = 0 ∧ k.max = 2 ^ (k.size * 8) - 1) := by
  cases k <;> decide

/-- `wrap_T` of the cast semantics for an integer kind: the residue of `x` modulo `2 ^ w`, read in
two's complement for a signed kind. -/
def wrap (k : IntKind) (x : Int) : Int :=
  if k.isSigned then x.bmod (2 ^ (k.size * 8)) else x % 2 ^ (k.size * 8)

theorem wrap_emod (k : IntKind) (x : Int) : k.wrap x % 2 ^ (k.size * 8) = x % 2 ^ (k.size * 8) := by
  unfold wrap
  split_ifs
  · have := Int.bmod_emod (x := x) (m := 2 ^ (k.size * 8))
    push_cast at this
    exact this
  · exact Int.emod_emod _ _

theorem wrap_mem (k : IntKind) (x : Int) : k.min ≤ k.wrap x ∧ k.wrap x ≤ k.max := by
  have hw := k.width_pos
  have hP : (2 : Int) ^ (k.size * 8) = 2 * 2 ^ (k.size * 8 - 1) := by
    rw [← pow_succ', Nat.sub_add_cancel hw]
  obtain ⟨hs, hu⟩ := k.bounds_width
  unfold wrap
  split_ifs with h
  · obtain ⟨hmin, hmax⟩ := hs h
    have h₀ := Int.le_bmod (x := x) (m := 2 ^ (k.size * 8)) (by positivity)
    have h₁ := Int.bmod_lt (x := x) (m := 2 ^ (k.size * 8)) (by positivity)
    push_cast at h₀ h₁
    omega
  · obtain ⟨hmin, hmax⟩ := hu (by simpa using h)
    have h₀ := Int.emod_nonneg x (pow_ne_zero (k.size * 8) two_ne_zero : (2 : Int) ^ (k.size * 8) ≠ 0)
    have h₁ := Int.emod_lt_of_pos x (pow_pos two_pos (k.size * 8) : (0 : Int) < 2 ^ (k.size * 8))
    omega

/-- A value in the range of the kind is its own wrap. -/
theorem wrap_of_mem {k : IntKind} {x : Int} (h₀ : k.min ≤ x) (h₁ : x ≤ k.max) : k.wrap x = x := by
  have hw := k.width_pos
  have hP : (2 : Int) ^ (k.size * 8) = 2 * 2 ^ (k.size * 8 - 1) := by
    rw [← pow_succ', Nat.sub_add_cancel hw]
  obtain ⟨hs, hu⟩ := k.bounds_width
  unfold wrap
  split_ifs with h
  · obtain ⟨hmin, hmax⟩ := hs h
    rw [Int.bmod]
    push_cast
    have hc : ((2 : Int) ^ (k.size * 8) + 1) / 2 = 2 ^ (k.size * 8 - 1) := by omega
    by_cases hx : 0 ≤ x
    · rw [Int.emod_eq_of_lt hx (by omega), if_pos (by omega)]
    · have : x % 2 ^ (k.size * 8) = x + 2 ^ (k.size * 8) := by
        rw [← Int.add_emod_self]; exact Int.emod_eq_of_lt (by omega) (by omega)
      rw [this, if_neg (by omega)]
      omega
  · obtain ⟨hmin, hmax⟩ := hu (by simpa using h)
    exact Int.emod_eq_of_lt (by omega) (by omega)

/-- **`wrap_T(x)` is the unique value of the kind's range congruent to `x` modulo `2 ^ w`.** -/
theorem wrap_unique {k : IntKind} {x y : Int} (h₀ : k.min ≤ y) (h₁ : y ≤ k.max)
    (h : y % 2 ^ (k.size * 8) = x % 2 ^ (k.size * 8)) : y = k.wrap x := by
  rw [← wrap_of_mem h₀ h₁]
  unfold wrap
  split_ifs
  · simp only [Int.bmod]; push_cast; rw [h]
  · exact h

end IntKind

/-- The magnitude of a value of a kind fits in the kind's width. -/
theorem IntKind.natAbs_lt {k : IntKind} {x : Int} (h₀ : k.min ≤ x) (h₁ : x ≤ k.max) :
    x.natAbs < 2 ^ (k.size * 8) := by
  obtain ⟨hs, hu⟩ := k.bounds_width
  have h₂ : ((2 ^ (k.size * 8) : Nat) : Int) = 2 ^ (k.size * 8) := by push_cast; rfl
  have hP : (2 : Int) ^ (k.size * 8) = 2 * 2 ^ (k.size * 8 - 1) := by
    rw [← pow_succ', Nat.sub_add_cancel k.width_pos]
  cases hk : k.isSigned
  · obtain ⟨hmin, hmax⟩ := hu hk
    omega
  · obtain ⟨hmin, hmax⟩ := hs hk
    omega

/-! ## Bitwise operators -/

/-- An integer is determined by its two's complement bits. -/
theorem eq_of_testBit_eq {x y : Int} (h : ∀ i, x.testBit i = y.testBit i) : x = y := by
  have hlarge : ∀ m n : Nat, m.testBit (m + n) = false ∧ n.testBit (m + n) = false := fun m n =>
    ⟨Nat.testBit_lt_two_pow (Nat.lt_of_lt_of_le (Nat.lt_two_pow m) (Nat.pow_le_pow_right two_pos
      (Nat.le_add_right m n))), Nat.testBit_lt_two_pow (Nat.lt_of_lt_of_le (Nat.lt_two_pow n)
      (Nat.pow_le_pow_right two_pos (Nat.le_add_left n m)))⟩
  cases x with
  | ofNat m =>
    cases y with
    | ofNat n => exact congrArg _ (Nat.eq_of_testBit_eq h)
    | negSucc n =>
      have := h (m + n)
      simp [Int.testBit, (hlarge m n).1, (hlarge m n).2] at this
  | negSucc m =>
    cases y with
    | ofNat n =>
      have := h (m + n)
      simp [Int.testBit, (hlarge m n).1, (hlarge m n).2] at this
    | negSucc n =>
      exact congrArg _ (Nat.eq_of_testBit_eq fun i => by simpa [Int.testBit] using h i)

/-- Congruent modulo `2 ^ w`, two integers have the same low `w` bits. -/
theorem testBit_eq_of_emod_eq {x y : Int} {w i : Nat} (h : x % 2 ^ w = y % 2 ^ w) (hi : i < w) :
    x.testBit i = y.testBit i := by
  rw [← toNat_emod_testBit x hi, ← toNat_emod_testBit y hi, h]

/-- A bitwise operator `g` computing `f` on each bit, with `f false false = false`, keeps the range
of a kind: its wrap is itself. -/
theorem IntKind.wrap_bitwise {k : IntKind} {f : Bool → Bool → Bool} {g : Int → Int → Int}
    (hf : f false false = false) (hg : ∀ a b i, (g a b).testBit i = f (a.testBit i) (b.testBit i))
    {a b : Int} (ha₀ : k.min ≤ a) (ha₁ : a ≤ k.max) (hb₀ : k.min ≤ b) (hb₁ : b ≤ k.max) :
    k.wrap (g a b) = g a b := by
  have hw := k.width_pos
  have hlow : ∀ i < k.size * 8, (k.wrap (g a b)).testBit i = (g a b).testBit i :=
    fun i hi => testBit_eq_of_emod_eq (k.wrap_emod _) hi
  obtain ⟨hr₀, hr₁⟩ := k.wrap_mem (g a b)
  obtain ⟨hs, hu⟩ := k.bounds_width
  have hP : (2 : Int) ^ (k.size * 8) = 2 * 2 ^ (k.size * 8 - 1) := by
    rw [← pow_succ', Nat.sub_add_cancel hw]
  refine eq_of_testBit_eq fun i => ?_
  by_cases hi : i < k.size * 8
  · exact hlow i hi
  cases hk : k.isSigned
  · obtain ⟨hmin, hmax⟩ := hu hk
    have hsign : ∀ x : Int, k.min ≤ x → x ≤ k.max → x.testBit i = false := fun x h₀ h₁ => by
      rw [testBit_of_bounds (n := k.size * 8) (by omega) (by omega) (by omega)]
      simp; omega
    rw [hsign _ hr₀ hr₁, hg, hsign a ha₀ ha₁, hsign b hb₀ hb₁, hf]
  · obtain ⟨hmin, hmax⟩ := hs hk
    have hsign : ∀ x : Int, k.min ≤ x → x ≤ k.max → ∀ j ≥ k.size * 8 - 1,
        x.testBit j = decide (x < 0) := fun x h₀ h₁ j hj =>
      testBit_of_bounds (n := k.size * 8 - 1) (by omega) (by omega) hj
    have htop := hsign _ hr₀ hr₁ (k.size * 8 - 1) le_rfl
    rw [hlow _ (by omega), hg, hsign a ha₀ ha₁ _ le_rfl, hsign b hb₀ hb₁ _ le_rfl] at htop
    rw [hsign _ hr₀ hr₁ i (by omega), ← htop, hg, hsign a ha₀ ha₁ i (by omega),
      hsign b hb₀ hb₁ i (by omega)]

/-- The complement `Int.lnot a = -a - 1` of a value of a kind, wrapped: itself for a signed
kind, `2 ^ w - 1 - a` for an unsigned one. -/
theorem IntKind.wrap_lnot {k : IntKind} {a : Int} (ha₀ : k.min ≤ a) (ha₁ : a ≤ k.max) :
    k.wrap (Int.lnot a) = if k.isSigned then -a - 1 else 2 ^ (k.size * 8) - 1 - a := by
  have hlnot : Int.lnot a = -a - 1 := by
    cases a <;> simp only [Int.lnot, Int.negSucc_eq, Int.ofNat_eq_coe] <;> omega
  obtain ⟨hs, hu⟩ := k.bounds_width
  rw [hlnot]
  cases hk : k.isSigned
  · obtain ⟨hmin, hmax⟩ := hu hk
    simp only [IntKind.wrap, hk, if_false, Bool.false_eq_true]
    have h := Int.emod_eq_of_lt (a := -a - 1 + 2 ^ (k.size * 8)) (b := 2 ^ (k.size * 8))
      (by omega) (by omega)
    rw [Int.add_emod_self] at h
    omega
  · obtain ⟨hmin, hmax⟩ := hs hk
    exact IntKind.wrap_of_mem (by omega) (by omega)

end Sunder
