import Sunder.TwosComplement
/-!
# Serialisation

`valueToNewBytes` is `value_to_new_bytes` of `tir.c`: the image of a value, `type->size` bytes.
`decodeValue` reads an image back the way the language lays values out: a boolean is the byte `0`
or `1`, a byte is itself, an integer of `w` bits is `w / 8` little-endian bytes read in two's
complement for a signed kind, and element `i` of an array is the bytes `[i * n, (i + 1) * n)`,
`n` the element size.

* `valueToNewBytes_scalar`: the image of a boolean, byte or integer is the little-endian bytes of
  its residue (`natBytes`), through `bigintToBitarr_eq` and `bitarrToBytes_testBit`.
* `valueToNewBytes_decode`: the image of a well-formed value of a serialisable type has its
  type's size and decodes to the value; element `i` of an array has the bytes of chunk `i`. The
  induction follows the nesting of arrays (`valueToNewBytesList_decode`).
-/

namespace Sunder

/-- The types `value_to_new_bytes` serialises: `bool`, `byte`, the sized integers, and arrays of
them at any depth. -/
def Ty.isSerial : Ty → Bool
  | .bool | .byte | .int _ => true
  | .array _ b => b.isSerial
  | _ => false

/-- `bool`, `byte` and the sized integers. -/
def Ty.isScalar : Ty → Bool
  | .bool | .byte | .int _ => true
  | _ => false

/-- `int(v)`: the integer a boolean, a byte or an integer value stands for. -/
def Value.toInt : Value → Int
  | .boolean b => if b then 1 else 0
  | .byte b => b.toNat
  | .integer _ x => x
  | _ => 0

/-! ## The cases of `value_to_new_bytes` -/

section
variable {ss : Nat → Nat}

theorem valueToNewBytes_boolean (b : Bool) :
    valueToNewBytes ss (.boolean b) = .ok [if b then 1 else 0] := by rw [valueToNewBytes]; rfl

theorem valueToNewBytes_byte (b : UInt8) : valueToNewBytes ss (.byte b) = .ok [b] := by
  rw [valueToNewBytes]; rfl

theorem valueToNewBytes_integer (t : Ty) (x : Int) :
    valueToNewBytes ss (.integer t x) =
      match bigintToBitarr (t.size ss * 8) x with
      | some bits => .ok (bitarrToBytes bits)
      | none => .error (.internal "value_to_new_bytes") := by
  rw [valueToNewBytes]; rfl

theorem valueToNewBytes_array (n : Nat) (b : Ty) (es : List Value) :
    valueToNewBytes ss (.array (.array n b) es) =
      if n * b.size ss < es.length * b.size ss then .error (.undefined "value_to_new_bytes")
      else (valueToNewBytesList ss (b.size ss) es).map fun image =>
        image ++ List.replicate (n * b.size ss - image.length) 0 := by
  rw [valueToNewBytes]
  simp only [Ty.size]
  split_ifs <;> cases valueToNewBytesList ss (b.size ss) es <;> rfl

theorem valueToNewBytesList_nil (n : Nat) : valueToNewBytesList ss n [] = .ok [] := by
  rw [valueToNewBytesList]; rfl

theorem valueToNewBytesList_cons (n : Nat) (e : Value) (es : List Value) :
    valueToNewBytesList ss n (e :: es) =
      (valueToNewBytes ss e >>= fun b =>
        if b.length < n then .error (.undefined "value_to_new_bytes")
        else (valueToNewBytesList ss n es).map (b.take n ++ ·)) := by
  rw [valueToNewBytesList]
  cases valueToNewBytes ss e with
  | error => rfl
  | ok b => by_cases h : b.length < n <;> simp [h] <;> cases valueToNewBytesList ss n es <;> rfl

end

theorem valueToNewBytes_scalar {ss : Nat → Nat} {v : Value} (hv : v.WellFormed)
    (hs : v.type.isScalar) :
    valueToNewBytes ss v = .ok (natBytes (v.type.size ss) (v.toInt % 2 ^ (v.type.size ss * 8)).toNat) := by
  match v, hv, hs with
  | .boolean b, _, _ =>
    rw [valueToNewBytes_boolean]
    cases b <;> simp [natBytes, Value.toInt, Value.type, Ty.size] <;> rfl
  | .byte b, _, _ =>
    have : ((b.toNat : Int) % 2 ^ 8).toNat = b.toNat := by
      have := b.toNat_lt_size; simp only [UInt8.size] at this; omega
    rw [valueToNewBytes_byte]
    simp only [Value.type, Ty.size, Value.toInt, one_mul, this, natBytes_succ, natBytes_zero,
      Nat.mod_eq_of_lt b.toNat_lt_size, toUInt8_toNat]
  | .integer _ x, ⟨k, rfl, h₀, h₁⟩, _ =>
    rw [valueToNewBytes_integer]
    simp only [Ty.size, Value.type, Value.toInt]
    rw [bigintToBitarr_eq (IntKind.natAbs_lt h₀ h₁)]
    exact congrArg Except.ok (bitarrToBytes_testBit x k.size)

/-! ## Reading the bytes back -/

/-- A value of type `t` read back from bytes: a boolean from the byte `0` or `1`, a byte as
itself, an integer from its `size` little-endian bytes, in two's complement for a signed kind,
and element `i` of an array from its bytes `[i * n, (i + 1) * n)`, `n` the size of the element
type. -/
def decodeValue (ss : Nat → Nat) : Ty → List UInt8 → Option Value
  | .bool, [b] =>
    if b = 0 then some (.boolean false) else if b = 1 then some (.boolean true) else none
  | .byte, [b] => some (.byte b)
  | .int k, bytes =>
    if bytes.length = k.size then
      let u := bytesNat bytes
      some (.integer (.int k)
        (if k.isSigned ∧ 2 ^ (k.size * 8 - 1) ≤ u then (u : Int) - 2 ^ (k.size * 8) else u))
    else none
  | .array n b, bytes =>
    if bytes.length = n * b.size ss then
      ((List.range n).mapM fun i =>
        decodeValue ss b ((bytes.drop (i * b.size ss)).take (b.size ss))).map (.array (.array n b))
    else none
  | _, _ => none

theorem mapM_range_eq_some {α : Type} {f : Nat → Option α} {g : Nat → α} :
    ∀ {n : Nat}, (∀ i < n, f i = some (g i)) → (List.range n).mapM f = some ((List.range n).map g)
  | 0, _ => rfl
  | n + 1, h => by
    rw [List.range_succ, List.mapM_append, mapM_range_eq_some fun i hi => h i (by omega),
      List.map_append, List.mapM_cons, List.mapM_nil, h n (by omega)]
    rfl

/-- Chunk `i` of the concatenation of lists of length `n` is list `i`. -/
theorem take_drop_flatten {α : Type} {n : Nat} : ∀ {ls : List (List α)}, (∀ l ∈ ls, l.length = n) →
    ∀ {i : Nat} (hi : i < ls.length), ((ls.flatten).drop (i * n)).take n = ls[i]
  | l :: ls, h, 0, _ => by simp [List.take_left' (h l (List.mem_cons_self _ _))]
  | l :: ls, h, i + 1, hi => by
    rw [List.flatten_cons, Nat.succ_mul, Nat.add_comm, ← List.drop_drop,
      List.drop_left' (h l (List.mem_cons_self _ _)),
      take_drop_flatten (fun l' hl' => h l' (List.mem_cons_of_mem _ hl')) (Nat.lt_of_succ_lt_succ hi)]
    rfl

/-- The integer of a kind read back from the bytes of its residue. -/
theorem decodeValue_integer {ss : Nat → Nat} {k : IntKind} {x : Int} (h₀ : k.min ≤ x)
    (h₁ : x ≤ k.max) :
    decodeValue ss (.int k) (natBytes k.size (x % 2 ^ (k.size * 8)).toNat) =
      some (.integer (.int k) x) := by
  have hw := k.width_pos
  have hP : (2 : Int) ^ (k.size * 8) = 2 * 2 ^ (k.size * 8 - 1) := by
    rw [← pow_succ', Nat.sub_add_cancel hw]
  have h₂ := Int.emod_nonneg x (pow_ne_zero (k.size * 8) two_ne_zero : (2 : Int) ^ (k.size * 8) ≠ 0)
  have h₃ := Int.emod_lt_of_pos x (pow_pos two_pos (k.size * 8) : (0 : Int) < 2 ^ (k.size * 8))
  have hn : (((x % 2 ^ (k.size * 8)).toNat : Nat) : Int) = x % 2 ^ (k.size * 8) := Int.toNat_of_nonneg h₂
  have hlt := toNat_emod_lt x k.size
  have hP' : ((2 ^ (k.size * 8 - 1) : Nat) : Int) = 2 ^ (k.size * 8 - 1) := by push_cast; rfl
  simp only [decodeValue, length_natBytes, if_true, bytesNat_natBytes, Nat.mod_eq_of_lt hlt]
  congr 2
  obtain ⟨hs, hu⟩ := k.bounds_width
  cases hk : k.isSigned
  · obtain ⟨hmin, hmax⟩ := hu hk
    simp only [Bool.false_eq_true, false_and, if_false, hn]
    exact Int.emod_eq_of_lt (by omega) (by omega)
  · obtain ⟨hmin, hmax⟩ := hs hk
    simp only [true_and]
    by_cases hx : 0 ≤ x
    · have : x % 2 ^ (k.size * 8) = x := Int.emod_eq_of_lt hx (by omega)
      rw [if_neg (by omega)]
      omega
    · have : x % 2 ^ (k.size * 8) = x + 2 ^ (k.size * 8) := by
        rw [← Int.add_emod_self]; exact Int.emod_eq_of_lt (by omega) (by omega)
      rw [if_pos (by omega)]
      omega

mutual

/-- **Byte serialisation is faithful.** A well-formed value of a serialisable type has an image
of exactly its type's size, which `decodeValue` reads back to the value; element `i` of an array
is the image's bytes `[i * n, (i + 1) * n)`, `n` the element size. -/
theorem valueToNewBytes_decode {ss : Nat → Nat} : ∀ {v : Value}, v.WellFormed →
    v.type.isSerial →
    ∃ bytes, valueToNewBytes ss v = .ok bytes ∧ bytes.length = v.type.size ss ∧
      decodeValue ss v.type bytes = some v ∧
      ∀ t es, v = .array t es → ∀ i (hi : i < es.length), valueToNewBytes ss es[i] =
        .ok ((bytes.drop (i * es[i].type.size ss)).take (es[i].type.size ss))
  | .boolean b, _, _ =>
    ⟨_, valueToNewBytes_boolean b, rfl, by cases b <;> rfl, fun _ _ h => by cases h⟩
  | .byte b, _, _ => ⟨_, valueToNewBytes_byte b, rfl, rfl, fun _ _ h => by cases h⟩
  | .integer _ x, ⟨k, rfl, h₀, h₁⟩, _ =>
    ⟨_, valueToNewBytes_scalar ⟨k, rfl, h₀, h₁⟩ rfl, length_natBytes _ _, decodeValue_integer h₀ h₁,
      fun _ _ h => by cases h⟩
  | .array _ es, ⟨b, rfl, hes⟩, hs => by
    obtain ⟨ebs, hl, hf⟩ := valueToNewBytesList_decode hes hs
    have hlen : ∀ eb ∈ ebs, eb.length = b.size ss := fun eb heb => by
      obtain ⟨i, hi, rfl⟩ := List.getElem_of_mem heb
      exact (hf.get (by rw [hf.length_eq]; exact hi) hi).2.2.1
    have hflen : ebs.flatten.length = es.length * b.size ss := by
      rw [List.length_flatten, List.map_congr_left hlen, List.map_const', List.sum_replicate,
        hf.length_eq, smul_eq_mul]
    have hchunk : ∀ i (hi : i < ebs.length), (ebs.flatten.drop (i * b.size ss)).take (b.size ss) =
        ebs[i] := fun i hi => take_drop_flatten hlen _
    have hrel : ∀ i (hi : i < es.length) (hi' : i < ebs.length),
        valueToNewBytes ss es[i] = .ok ebs[i] ∧ es[i].type = b ∧ ebs[i].length = b.size ss ∧
        decodeValue ss b ebs[i] = some es[i] := fun i hi hi' => by
      simpa only [List.get_eq_getElem] using hf.get hi hi'
    refine ⟨ebs.flatten, ?_, hflen, ?_, ?_⟩
    · rw [valueToNewBytes_array, if_neg (lt_irrefl _), hl]
      simp [hflen, Except.map]
    · simp only [Value.type, decodeValue, hflen, if_true]
      rw [mapM_range_eq_some (g := fun i => es.getD i (.boolean false)) fun i hi => by
        rw [hchunk i (hf.length_eq ▸ hi), (hrel i hi _).2.2.2]
        exact congrArg some (List.getD_eq_getElem _ _ hi).symm]
      rw [Option.map_some']
      congr 2
      exact List.ext_getElem (by simp) fun i h₁ h₂ => by simp [List.getElem?_eq_getElem h₂]
    · rintro _ _ ⟨⟩ i hi
      have hi' : i < ebs.length := hf.length_eq ▸ hi
      rw [(hrel i hi hi').2.1, hchunk i hi']
      exact (hrel i hi hi').1
  | .function _ _, ⟨_, _, rfl⟩, h | .pointer _ _, ⟨_, rfl⟩, h => by cases h
  | .slice _ _ _, ⟨_, rfl, _⟩, h => by cases h

/-- The images of the elements of an array, each of the element size, concatenated. -/
theorem valueToNewBytesList_decode {ss : Nat → Nat} : ∀ {b : Ty} {es : List Value},
    Value.ElementsOf b es → b.isSerial →
    ∃ ebs : List (List UInt8), valueToNewBytesList ss (b.size ss) es = .ok ebs.flatten ∧
      List.Forall₂ (fun e eb => valueToNewBytes ss e = .ok eb ∧ e.type = b ∧
        eb.length = b.size ss ∧ decodeValue ss b eb = some e) es ebs
  | _, [], _, _ => ⟨[], valueToNewBytesList_nil _, .nil⟩
  | b, e :: es, ⟨he, hw, hes⟩, hs => by
    obtain ⟨eb, h₁, h₂, h₃, -⟩ := @valueToNewBytes_decode ss e hw (he ▸ hs)
    obtain ⟨ebs, hl, hf⟩ := valueToNewBytesList_decode hes hs
    rw [he] at h₂ h₃
    refine ⟨eb :: ebs, ?_, .cons ⟨h₁, he, h₂, h₃⟩ hf⟩
    rw [valueToNewBytesList_cons, h₁, List.flatten_cons]
    simp only [bind, Except.bind, h₂, lt_irrefl, if_false, hl]
    rw [← h₂, List.take_length]
    rfl

end

/-- `[3]s8 { -1, 2, -128 }`: three bytes that decode back to it. -/
theorem valueToNewBytes_decode_s8 :
    let v : Value := .array (.array 3 (.int .s8))
      [.integer (.int .s8) (-1), .integer (.int .s8) 2, .integer (.int .s8) (-128)]
    v.WellFormed ∧ ∃ bytes, valueToNewBytes (fun _ => 0) v = .ok bytes ∧ bytes.length = 3 ∧
      decodeValue (fun _ => 0) v.type bytes = some v := by
  intro v
  have hv : v.WellFormed := ⟨.int .s8, rfl, rfl, ⟨.s8, rfl, by decide, by decide⟩, rfl,
    ⟨.s8, rfl, by decide, by decide⟩, rfl, ⟨.s8, rfl, by decide, by decide⟩, trivial⟩
  obtain ⟨bytes, h₁, h₂, h₃, -⟩ := @valueToNewBytes_decode (fun _ => 0) v hv rfl
  exact ⟨hv, bytes, h₁, h₂, h₃⟩

/-- The bytes `0xff 0x02 0x80` read as `[3]s8` are `{ -1, 2, -128 }`. -/
example : decodeValue (fun _ => 0) (.array 3 (.int .s8)) [255, 2, 128] =
    some (.array (.array 3 (.int .s8))
      [.integer (.int .s8) (-1), .integer (.int .s8) 2, .integer (.int .s8) (-128)]) := rfl

end Sunder
