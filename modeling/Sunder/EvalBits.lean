import Sunder.Serialize
import Sunder.Eval
/-!
# Casts and bitwise operators of the evaluator

The cast branch of `eval_rvalue` serialises its operand (`value_to_new_bytes`) and rebuilds a
value of the target type from the bytes; the bitwise operators work on `type->size * 8` bit
arrays. Through the two's complement lemmas of `Sunder/TwosComplement.lean`:

* `evalRvalue_cast`: a cast among `bool`, `byte` and the sized integers is `wrap_T(int(v))`
  (`wrapValue`): the bits of the operand, extended by its sign (`Value.testBit_toInt_above`),
  read at the target's width and signedness (`evalCastBytes_int`); any byte set for `bool`
  (`evalCastBytes_bool`); the low byte for `byte` (`evalCastBytes_byte`).
* `evalRvalue_bitwise`: `&`, `|`, `^` and `~` on a sized integer type are `Int.land`, `Int.lor`,
  `Int.xor` and the complement at the type's signedness (`evalBitwise_integer`,
  `evalUnary_bitnot_integer`), and never leave the type's range, so the assertion after
  `bigint_to_bitarr` is not reached.
-/

namespace Sunder

/-! ## Bytes in the cast branch -/

theorem toNat_and_0x80 (c : UInt8) : (c &&& 0x80 != 0) = c.toNat.testBit 7 := by
  have h : (c &&& 0x80).toNat = c.toNat &&& 2 ^ 7 := BitVec.toNat_and _ _
  rw [Nat.and_two_pow] at h
  cases hb : c.toNat.testBit 7 <;> simp only [hb, Bool.toNat_false, Bool.toNat_true] at h <;>
    simp [bne_iff_ne, ne_eq, UInt8.ext_iff, h]

/-- The bit array of the cast branch, over the bytes of `n`. -/
theorem castBits_natBytes (m n : Nat) (extend : Bool) (w : Nat) :
    castBits (natBytes m n) extend w =
      (List.range w).map fun i => if m * 8 ≤ i then extend else n.testBit i := by
  refine List.map_congr_left fun i _ => ?_
  rw [length_natBytes]
  split_ifs with h
  · rfl
  · exact testBit_natBytes (by omega)

/-- The sign test of the cast branch reads the top bit of the last byte. -/
theorem getLastD_natBytes {m : Nat} (hm : 0 < m) (n : Nat) :
    ((natBytes m n).getLastD 0 &&& 0x80 != 0) = n.testBit (m * 8 - 1) := by
  rw [toNat_and_0x80, List.getLastD_eq_getLast?, List.getLast?_eq_getElem?, length_natBytes,
    ← List.getD_eq_getElem?_getD, show m - 1 = (m * 8 - 1) / 8 by omega,
    show 7 = (m * 8 - 1) % 8 by omega, testBit_natBytes (by omega)]

/-! ## The scalar values -/

theorem Ty.size_pos_of_isScalar {ss : Nat → Nat} {t : Ty} (h : t.isScalar) : 0 < t.size ss := by
  cases t <;> simp_all [Ty.isScalar, Ty.size, IntKind.size_pos]

/-- The integer of a well-formed scalar value of `w` bits: in `[-2^(w-1), 2^(w-1))` when signed,
in `[0, 2^w)` when not. -/
theorem Value.toInt_bounds {ss : Nat → Nat} {v : Value} (hv : v.WellFormed) (hs : v.type.isScalar) :
    (typeIsSinteger v.type →
      -2 ^ (v.type.size ss * 8 - 1) ≤ v.toInt ∧ v.toInt < 2 ^ (v.type.size ss * 8 - 1)) ∧
    (typeIsSinteger v.type = false → 0 ≤ v.toInt ∧ v.toInt < 2 ^ (v.type.size ss * 8)) := by
  match v, hv, hs with
  | .boolean b, _, _ =>
    refine ⟨nofun, fun _ => ?_⟩
    cases b <;> simp [Value.toInt, Value.type, Ty.size]
  | .byte b, _, _ =>
    refine ⟨nofun, fun _ => ⟨by simp [Value.toInt], ?_⟩⟩
    have := b.toNat_lt_size
    simp only [Value.toInt, Value.type, Ty.size, UInt8.size] at this ⊢
    omega
  | .integer _ x, ⟨k, rfl, h₀, h₁⟩, _ =>
    obtain ⟨hs, hu⟩ := k.bounds_width
    have hP : (2 : Int) ^ (k.size * 8) = 2 * 2 ^ (k.size * 8 - 1) := by
      rw [← pow_succ', Nat.sub_add_cancel k.width_pos]
    simp only [Value.type, Value.toInt, Ty.size, typeIsSinteger]
    exact ⟨fun h => by obtain ⟨hmin, hmax⟩ := hs h; omega,
      fun h => by obtain ⟨hmin, hmax⟩ := hu h; omega⟩

/-- Above its width, the bits of a scalar value are the extension bit of the cast branch. -/
theorem Value.testBit_toInt_above {ss : Nat → Nat} {v : Value} (hv : v.WellFormed)
    (hs : v.type.isScalar) {i : Nat} (hi : v.type.size ss * 8 ≤ i) :
    v.toInt.testBit i = (typeIsSinteger v.type && v.toInt.testBit (v.type.size ss * 8 - 1)) := by
  have hw : 0 < v.type.size ss := Ty.size_pos_of_isScalar hs
  obtain ⟨hsg, hun⟩ := @Value.toInt_bounds ss v hv hs
  cases hk : typeIsSinteger v.type
  · obtain ⟨h₀, h₁⟩ := hun hk
    rw [testBit_of_bounds (by omega) h₁ hi]
    simp; omega
  · obtain ⟨h₀, h₁⟩ := hsg hk
    rw [testBit_of_bounds h₀ h₁ (by omega), testBit_of_bounds h₀ h₁ le_rfl, Bool.true_and]

/-- The residue of a scalar value modulo `2 ^ w` is zero only for zero. -/
theorem Value.toInt_emod_eq_zero {ss : Nat → Nat} {v : Value} (hv : v.WellFormed)
    (hs : v.type.isScalar) : v.toInt % 2 ^ (v.type.size ss * 8) = 0 ↔ v.toInt = 0 := by
  have hw : 0 < v.type.size ss := Ty.size_pos_of_isScalar hs
  obtain ⟨hsg, hun⟩ := @Value.toInt_bounds ss v hv hs
  have hP : (2 : Int) ^ (v.type.size ss * 8) = 2 * 2 ^ (v.type.size ss * 8 - 1) := by
    rw [← pow_succ', Nat.sub_add_cancel (by omega)]
  have h₀ : -2 ^ (v.type.size ss * 8) < v.toInt := by
    cases hk : typeIsSinteger v.type
    · have := (hun hk).1; have : (0 : Int) < 2 ^ (v.type.size ss * 8) := by positivity
      omega
    · have := (hsg hk).1; have : (0 : Int) < 2 ^ (v.type.size ss * 8 - 1) := by positivity
      omega
  have h₁ : v.toInt < 2 ^ (v.type.size ss * 8) := by
    cases hk : typeIsSinteger v.type
    · exact (hun hk).2
    · have := (hsg hk).2; have : (0 : Int) < 2 ^ (v.type.size ss * 8 - 1) := by positivity
      omega
  by_cases hx : 0 ≤ v.toInt
  · rw [Int.emod_eq_of_lt hx h₁]
  · have : v.toInt % 2 ^ (v.type.size ss * 8) = v.toInt + 2 ^ (v.type.size ss * 8) := by
      rw [← Int.add_emod_self]; exact Int.emod_eq_of_lt (by omega) (by omega)
    omega

/-! ## Casts -/

/-- `wrap_T(x)` of the cast semantics as a value of the scalar type `t`: `x ≠ 0` for `bool`,
`x mod 256` for `byte`, and `IntKind.wrap` for a sized integer type (no other type is cast to). -/
def wrapValue (t : Ty) (x : Int) : Value :=
  match t with
  | .bool => .boolean (x ≠ 0)
  | .byte => .byte (x % 256).toNat.toUInt8
  | .int k => .integer t (k.wrap x)
  | _ => .integer t x

theorem any_ne_zero_natBytes (m n : Nat) :
    (natBytes m n).any (· != 0) = decide (n % 256 ^ m ≠ 0) := by
  rw [← bytesNat_natBytes]
  cases h : (natBytes m n).any (· != 0)
  · have : ∀ b ∈ natBytes m n, b = 0 := fun b hb => by
      simpa using List.any_eq_false.1 h b hb
    simp [bytesNat_eq_zero_iff.2 this]
  · obtain ⟨b, hb, hb0⟩ := List.any_eq_true.1 h
    have : bytesNat (natBytes m n) ≠ 0 := fun h0 => by
      simp [bytesNat_eq_zero_iff.1 h0 b hb] at hb0
    simp [this]

/-- The cast branch to a sized integer type: the operand's bits, extended by its sign when it is
signed, read at the target's width. -/
theorem evalCastBytes_int {ss : Nat → Nat} {v : Value} (hv : v.WellFormed) (hs : v.type.isScalar)
    (k : IntKind) : evalCastBytes ss (.int k) v = .ok (.integer (.int k) (k.wrap v.toInt)) := by
  have hw : 0 < v.type.size ss := Ty.size_pos_of_isScalar hs
  have hbits : castBits (natBytes (v.type.size ss) (v.toInt % 2 ^ (v.type.size ss * 8)).toNat)
      (typeIsSinteger v.type && ((natBytes (v.type.size ss)
        (v.toInt % 2 ^ (v.type.size ss * 8)).toNat).getLastD 0 &&& 0x80 != 0)) (k.size * 8) =
      (List.range (k.size * 8)).map v.toInt.testBit := by
    rw [castBits_natBytes, getLastD_natBytes hw, toNat_emod_testBit _ (by omega)]
    refine List.map_congr_left fun i _ => ?_
    split_ifs with hi
    · exact (Value.testBit_toInt_above hv hs hi).symm
    · exact toNat_emod_testBit _ (by omega)
  simp only [evalCastBytes, valueToNewBytes_scalar hv hs, bind, Except.bind, hbits,
    bitarrToBigint_testBit _ k.width_pos]
  exact valueNewInteger_of_bounds (k.wrap_mem _).1 (k.wrap_mem _).2

theorem evalCastBytes_bool {ss : Nat → Nat} {v : Value} (hv : v.WellFormed)
    (hs : v.type.isScalar) : evalCastBytes ss .bool v = .ok (.boolean (v.toInt ≠ 0)) := by
  have hz := @Value.toInt_emod_eq_zero ss v hv hs
  simp only [evalCastBytes, valueToNewBytes_scalar hv hs, bind, Except.bind,
    any_ne_zero_natBytes, Nat.mod_eq_of_lt (toNat_emod_lt _ _)]
  congr 3
  have h₀ := Int.emod_nonneg v.toInt
    (pow_ne_zero _ two_ne_zero : (2 : Int) ^ (v.type.size ss * 8) ≠ 0)
  exact propext (by rw [ne_eq, ne_eq, ← hz]; omega)

theorem evalCastBytes_byte {ss : Nat → Nat} {v : Value} (hv : v.WellFormed)
    (hs : v.type.isScalar) :
    evalCastBytes ss .byte v = .ok (.byte (v.toInt % 256).toNat.toUInt8) := by
  obtain ⟨m, hm⟩ : ∃ m, v.type.size ss = m + 1 :=
    ⟨_, (Nat.succ_pred_eq_of_pos (Ty.size_pos_of_isScalar hs)).symm⟩
  have h256 : (v.toInt % 2 ^ (v.type.size ss * 8)).toNat % 256 = (v.toInt % 256).toNat := by
    have hd : (256 : Int) ∣ 2 ^ (v.type.size ss * 8) :=
      ⟨2 ^ (m * 8), by rw [hm, Nat.add_mul, pow_add]; norm_num; ring⟩
    have := Int.emod_emod_of_dvd v.toInt hd
    have h₀ := Int.emod_nonneg v.toInt
      (pow_ne_zero _ two_ne_zero : (2 : Int) ^ (v.type.size ss * 8) ≠ 0)
    omega
  simp only [evalCastBytes, valueToNewBytes_scalar hv hs, bind, Except.bind, hm, natBytes_succ,
    List.length_cons, Nat.le_add_left, decide_True, check_true]
  rw [← hm, h256]
  rfl

theorem evalRvalue_cast_of_ok {ss : Nat → Nat} {t : Ty} {e : Expr} {v : Value}
    (he : evalRvalue ss e = .ok v) : evalRvalue ss (.cast t e) = evalCast ss t v := by
  show (evalRvalue ss e >>= fun v => evalCast ss t v) = _
  rw [he]
  rfl

theorem Ty.isScalar_iff {t : Ty} : t.isScalar ↔ t = .bool ∨ t = .byte ∨ ∃ k, t = .int k := by
  cases t <;> simp [Ty.isScalar]

theorem evalCast_of_isScalar {ss : Nat → Nat} {t : Ty} {v : Value} (ht : t.isScalar)
    (hs : v.type.isScalar) : evalCast ss t v = evalCastBytes ss t v := by
  unfold evalCast
  rcases Ty.isScalar_iff.1 hs with h | h | ⟨k, h⟩ <;> rw [h] <;>
    rcases Ty.isScalar_iff.1 ht with rfl | rfl | ⟨k', rfl⟩ <;> rfl

theorem wrapValue_wellFormed {t : Ty} (ht : t.isScalar) (x : Int) :
    (wrapValue t x).WellFormed ∧ (wrapValue t x).type = t := by
  rcases Ty.isScalar_iff.1 ht with rfl | rfl | ⟨k, rfl⟩
  · exact ⟨trivial, rfl⟩
  · exact ⟨trivial, rfl⟩
  · exact ⟨⟨k, rfl, k.wrap_mem x⟩, rfl⟩

/-- A cast of a well-formed scalar value to its own type gives the value back. -/
theorem wrapValue_self {v : Value} (hv : v.WellFormed) (hs : v.type.isScalar) :
    wrapValue v.type v.toInt = v := by
  match v, hv, hs with
  | .boolean b, _, _ => cases b <;> rfl
  | .byte b, _, _ =>
    have : ((b.toNat : Int) % 256).toNat = b.toNat := by
      have := b.toNat_lt_size; simp only [UInt8.size] at this; omega
    simp only [wrapValue, Value.type, Value.toInt, this, toUInt8_toNat]
  | .integer _ x, ⟨k, rfl, h₀, h₁⟩, _ =>
    simp only [wrapValue, Value.type, Value.toInt, IntKind.wrap_of_mem h₀ h₁]

/-- **Compile-time casts.** A cast of a well-formed value of type `bool`, `byte` or a sized
integer type to any of these types evaluates to `wrap_T(int(v))`: `int(v) ≠ 0` for `bool`,
`int(v) mod 256` for `byte`, and for a sized integer type the value of its range congruent to
`int(v)` modulo `2 ^ w` (`IntKind.wrap`, unique by `IntKind.wrap_unique`). The result is well
formed and of type `t`, and a cast to the value's own type gives the value back. -/
theorem evalRvalue_cast {ss : Nat → Nat} {t : Ty} {e : Expr} {v : Value} (ht : t.isScalar)
    (hv : v.WellFormed) (hs : v.type.isScalar) (he : evalRvalue ss e = .ok v) :
    evalRvalue ss (.cast t e) = .ok (wrapValue t v.toInt) ∧ (wrapValue t v.toInt).WellFormed ∧
      (wrapValue t v.toInt).type = t ∧ (t = v.type → wrapValue t v.toInt = v) := by
  refine ⟨?_, (wrapValue_wellFormed ht _).1, (wrapValue_wellFormed ht _).2, fun h => ?_⟩
  swap
  · subst h
    exact wrapValue_self hv hs
  rw [evalRvalue_cast_of_ok he, evalCast_of_isScalar ht hs]
  rcases Ty.isScalar_iff.1 ht with rfl | rfl | ⟨k, rfl⟩
  · exact evalCastBytes_bool hv hs
  · exact evalCastBytes_byte hv hs
  · exact evalCastBytes_int hv hs k

/-- `(u16)(-1s8)` is `65535u16`. -/
theorem evalRvalue_cast_s8_u16 :
    evalRvalue (fun _ => 0) (.cast (.int .u16) (.integer (.int .s8) (-1))) =
      .ok (.integer (.int .u16) 65535) := by
  rw [(@evalRvalue_cast (fun _ => 0) (.int .u16) (.integer (.int .s8) (-1)) (.integer (.int .s8) (-1))
    rfl ⟨.s8, rfl, by decide, by decide⟩ rfl rfl).1]
  rfl

/-! ## Bitwise operators -/

/-- The integer branch of `BITOR`, `BITXOR` and `BITAND`: the operator `fb` on each of the `w`
bits of both operands is an integer operator `g` computing `fb` on every bit. -/
theorem evalBitwise_integer {ss : Nat → Nat} {fb : Bool → Bool → Bool} (fy : UInt8 → UInt8 → UInt8)
    {g : Int → Int → Int} (hf : fb false false = false)
    (hg : ∀ a b i, (g a b).testBit i = fb (a.testBit i) (b.testBit i)) {k : IntKind} {a b : Int}
    (ha₀ : k.min ≤ a) (ha₁ : a ≤ k.max) (hb₀ : k.min ≤ b) (hb₁ : b ≤ k.max) :
    evalBitwise ss fb fy (.integer (.int k) a) (.integer (.int k) b) =
      .ok (.integer (.int k) (g a b)) := by
  have hbits : List.zipWith fb ((List.range (k.size * 8)).map a.testBit)
      ((List.range (k.size * 8)).map b.testBit) = (List.range (k.size * 8)).map (g a b).testBit := by
    rw [List.zipWith_map, List.zipWith_same]
    exact List.map_congr_left fun i _ => (hg a b i).symm
  have hw := IntKind.wrap_bitwise hf hg ha₀ ha₁ hb₀ hb₁
  simp only [evalBitwise, Value.type, typeIsInteger, Bool.or_true, check_true, decide_True,
    Ty.size, bigintToBitarr_eq (IntKind.natAbs_lt ha₀ ha₁), bigintToBitarr_eq (IntKind.natAbs_lt hb₀ hb₁),
    hbits, bitarrToBigint_testBit _ k.width_pos, typeIsSinteger, bind, Except.bind]
  rw [show (if k.isSigned then (g a b).bmod (2 ^ (k.size * 8)) else g a b % 2 ^ (k.size * 8)) =
    k.wrap (g a b) from rfl, hw]
  exact valueNewInteger_of_bounds (hw ▸ (k.wrap_mem _).1) (hw ▸ (k.wrap_mem _).2)

/-- The integer branch of `UOP_BITNOT`: the complement of each of the `w` bits. -/
theorem evalUnary_bitnot_integer {ss : Nat → Nat} {t : Ty} {lv : Except Fault Value} {k : IntKind}
    {a : Int} (ha₀ : k.min ≤ a) (ha₁ : a ≤ k.max) :
    evalUnary ss t .bitnot (.ok (.integer (.int k) a)) lv =
      .ok (.integer (.int k) (if k.isSigned then -a - 1 else 2 ^ (k.size * 8) - 1 - a)) := by
  have hbits : ((List.range (k.size * 8)).map a.testBit).map (!·) =
      (List.range (k.size * 8)).map (Int.lnot a).testBit := by
    rw [List.map_map]
    exact List.map_congr_left fun i _ => (Int.testBit_lnot a i).symm
  have hw := IntKind.wrap_lnot ha₀ ha₁
  simp only [evalUnary, Value.type, typeIsInteger, Bool.or_true, check_true, Ty.size,
    bigintToBitarr_eq (IntKind.natAbs_lt ha₀ ha₁), hbits, bitarrToBigint_testBit _ k.width_pos,
    typeIsSinteger, bind, Except.bind]
  rw [show (if k.isSigned then (Int.lnot a).bmod (2 ^ (k.size * 8))
      else Int.lnot a % 2 ^ (k.size * 8)) = k.wrap (Int.lnot a) from rfl, hw]
  exact valueNewInteger_of_bounds (hw ▸ (k.wrap_mem _).1) (hw ▸ (k.wrap_mem _).2)

/-- **Compile-time bitwise operators.** On values of a sized integer type in its range, `&`, `|`
and `^` evaluate to `Int.land`, `Int.lor` and `Int.xor` of the operands, and `~` to `-a - 1`
for a signed type and to `2 ^ w - 1 - a` for an unsigned one: the operators on the `w`-bit two's
complement images, read back at the type's signedness, and in range. On bytes they are the 8-bit
operators, and on booleans `and`, `or` and `xor`. -/
theorem evalRvalue_bitwise {ss : Nat → Nat} {t : Ty} {lhs rhs : Expr} :
    (∀ k a b, k.min ≤ a → a ≤ k.max → k.min ≤ b → b ≤ k.max →
      evalRvalue ss lhs = .ok (.integer (.int k) a) →
      evalRvalue ss rhs = .ok (.integer (.int k) b) →
      evalRvalue ss (.binary t .bitand lhs rhs) = .ok (.integer (.int k) (Int.land a b)) ∧
      evalRvalue ss (.binary t .bitor lhs rhs) = .ok (.integer (.int k) (Int.lor a b)) ∧
      evalRvalue ss (.binary t .bitxor lhs rhs) = .ok (.integer (.int k) (Int.xor a b)) ∧
      evalRvalue ss (.unary t .bitnot lhs) =
        .ok (.integer (.int k) (if k.isSigned then -a - 1 else 2 ^ (k.size * 8) - 1 - a))) ∧
    (∀ x y : UInt8, evalRvalue ss lhs = .ok (.byte x) → evalRvalue ss rhs = .ok (.byte y) →
      evalRvalue ss (.binary t .bitand lhs rhs) = .ok (.byte (x &&& y)) ∧
      evalRvalue ss (.binary t .bitor lhs rhs) = .ok (.byte (x ||| y)) ∧
      evalRvalue ss (.binary t .bitxor lhs rhs) = .ok (.byte (x ^^^ y)) ∧
      evalRvalue ss (.unary t .bitnot lhs) = .ok (.byte (~~~x))) ∧
    (∀ x y : Bool, evalRvalue ss lhs = .ok (.boolean x) → evalRvalue ss rhs = .ok (.boolean y) →
      evalRvalue ss (.binary t .bitand lhs rhs) = .ok (.boolean (x && y)) ∧
      evalRvalue ss (.binary t .bitor lhs rhs) = .ok (.boolean (x || y)) ∧
      evalRvalue ss (.binary t .bitxor lhs rhs) = .ok (.boolean (xor x y))) := by
  refine ⟨fun k a b ha₀ ha₁ hb₀ hb₁ hl hr => ?_, fun x y hl hr => ?_, fun x y hl hr => ?_⟩
  · rw [evalRvalue_binary_of_ok hl hr, evalRvalue_binary_of_ok hl hr, evalRvalue_binary_of_ok hl hr,
      evalRvalue_unary, hl]
    exact ⟨evalBitwise_integer (· &&& ·) rfl Int.testBit_land ha₀ ha₁ hb₀ hb₁,
      evalBitwise_integer (· ||| ·) rfl Int.testBit_lor ha₀ ha₁ hb₀ hb₁,
      evalBitwise_integer (· ^^^ ·) rfl Int.testBit_lxor ha₀ ha₁ hb₀ hb₁,
      evalUnary_bitnot_integer ha₀ ha₁⟩
  · rw [evalRvalue_binary_of_ok hl hr, evalRvalue_binary_of_ok hl hr, evalRvalue_binary_of_ok hl hr,
      evalRvalue_unary, hl]
    exact ⟨rfl, rfl, rfl, rfl⟩
  · rw [evalRvalue_binary_of_ok hl hr, evalRvalue_binary_of_ok hl hr, evalRvalue_binary_of_ok hl hr]
    exact ⟨rfl, rfl, rfl⟩

/-- `-6s8 ^ 3s8` is `-7s8`, and `~-6s8` is `5s8`. -/
theorem evalRvalue_bitwise_s8 :
    evalRvalue (fun _ => 0) (.binary (.int .s8) .bitxor (.integer (.int .s8) (-6))
        (.integer (.int .s8) 3)) = .ok (.integer (.int .s8) (-7)) ∧
      evalRvalue (fun _ => 0) (.unary (.int .s8) .bitnot (.integer (.int .s8) (-6))) =
        .ok (.integer (.int .s8) 5) := by
  obtain ⟨-, -, h₁, h₄⟩ := (@evalRvalue_bitwise (fun _ => 0) (.int .s8) (.integer (.int .s8) (-6))
    (.integer (.int .s8) 3)).1 .s8 (-6) 3 (by decide) (by decide) (by decide) (by decide) rfl rfl
  exact ⟨by rw [h₁]; rfl, by rw [h₄]; rfl⟩

end Sunder
