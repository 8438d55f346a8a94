import Sunder.Type

/-!
# Compile-time values

`Value` is `struct value` of `tir.c`, `Address` is `struct address`, and `Fault` says how a
computation of the front end stops early: a user diagnostic (`fatal`), a failed `assert` or
`UNREACHABLE()` (`internal`), or undefined behaviour of the C code (`undefined`).

The `value_new_*` constructors check the source's assertions (`valueNewInteger`,
`valueNewArray`, ...); `valueClone`, `valueEq`, `valueLt`, `valueGt` and `valueToNewBytes`
follow the source's `switch` on the value's type. `Value.WellFormed` is what the assertions of
the constructors guarantee; `valueClone_of_wellFormed` says a well-formed value clones to itself.

The big-integer and bit-array helpers of the utility library (`bigint_to_bitarr`,
`bitarr_to_bigint`, `bigint_to_uz`, `bigint_to_u8`) are not under `src/`; they are modelled from
the spec (`to_bitarr(width)` fails when the value does not fit, two's complement for negatives).
-/

namespace Sunder

/-- `struct address`: a static label and byte offset, or an `rbp`-relative stack offset. -/
inductive Address where
  | static (name : String) (offset : Nat)
  | local_ (rbpOffset : Int)
  deriving DecidableEq, Repr

/-- How a computation of the front end stops early. -/
inductive Fault where
  /-- `fatal(location, ...)`: a user diagnostic; the compiler stops. -/
  | fatal (msg : String)
  /-- A failed `assert` or an `UNREACHABLE()` at `site`: an internal compiler error. -/
  | internal (site : String)
  /-- Undefined behaviour of the C code at `site` (a read past the end of a buffer). -/
  | undefined (site : String)
  /-- The bound on the model's recursion ran out; not a behaviour of the code. -/
  | fuel
  deriving DecidableEq, Repr

/-- `struct value`. A function value holds the number of its `struct function`. -/
inductive Value where
  | boolean (b : Bool)
  | byte (b : UInt8)
  | integer (t : Ty) (x : Int)
  | function (t : Ty) (f : Nat)
  | pointer (t : Ty) (a : Address)
  | array (t : Ty) (elements : List Value)
  | slice (t : Ty) (pointer count : Value)
  deriving Repr

/-- `value->type`. -/
def Value.type : Value → Ty
  | .boolean _ => .bool
  | .byte _ => .byte
  | .integer t _ => t
  | .function t _ => t
  | .pointer t _ => t
  | .array t _ => t
  | .slice t _ _ => t

/-- Stop with an internal error at `site` unless `c` holds (`assert(c)`). -/
def check (c : Bool) (site : String) : Except Fault Unit :=
  if c then pure () else throw (.internal site)

@[simp] theorem check_true (site : String) : check true site = .ok () := rfl

@[simp] theorem check_eq_ok {c : Bool} {site : String} {u : Unit} :
    check c site = .ok u ↔ c = true := by
  cases c <;> simp [check, throw, throwThe, MonadExceptOf.throw, pure, Except.pure]

/-! ## The checked constructors -/

/-- `value_new_integer`: asserts that `t` is an integer type and `x` lies in its range. -/
def valueNewInteger (t : Ty) (x : Int) : Except Fault Value :=
  match t.bounds with
  | some (lo, hi) => if lo ≤ x ∧ x ≤ hi then pure (.integer t x)
      else throw (.internal "value_new_integer")
  | none => throw (.internal "value_new_integer")

/-- `value_new_pointer`: asserts a pointer type. -/
def valueNewPointer (t : Ty) (a : Address) : Except Fault Value :=
  match t with
  | .pointer _ => pure (.pointer t a)
  | _ => throw (.internal "value_new_pointer")

/-- `value_new_array`: asserts an array type whose count is the number of elements. -/
def valueNewArray (t : Ty) (elements : List Value) : Except Fault Value :=
  match t with
  | .array n _ => if n = elements.length then pure (.array t elements)
      else throw (.internal "value_new_array")
  | _ => throw (.internal "value_new_array")

/-- `value_new_slice`: asserts a slice type, a pointer to its base and a non-negative `usize`
count. -/
def valueNewSlice (t : Ty) (p c : Value) : Except Fault Value :=
  match t, p.type, c with
  | .slice b, .pointer b', .integer (.int .usize) x =>
      if 0 ≤ x ∧ b = b' then pure (.slice t p c) else throw (.internal "value_new_slice")
  | _, _, _ => throw (.internal "value_new_slice")

mutual

/-- What the assertions of the `value_new_*` constructors guarantee of a value. -/
def Value.WellFormed : Value → Prop
  | .boolean _ | .byte _ => True
  | .integer t x => ∃ k, t = .int k ∧ k.min ≤ x ∧ x ≤ k.max
  | .function t _ => ∃ ps r, t = .function ps r
  | .pointer t _ => ∃ b, t = .pointer b
  | .array t es => ∃ b, t = .array es.length b ∧ Value.ElementsOf b es
  | .slice t p c => ∃ b, t = .slice b ∧ p.type = .pointer b ∧ p.WellFormed ∧
      c.type = usize ∧ c.WellFormed

/-- Every element is well formed and of type `b`. -/
def Value.ElementsOf (b : Ty) : List Value → Prop
  | [] => True
  | e :: es => e.type = b ∧ e.WellFormed ∧ Value.ElementsOf b es

end

/-! ## Clone, comparison and serialisation -/

mutual

/-- `value_clone`: rebuilds the value through the checked constructors. -/
def valueClone : Value → Except Fault Value
  | .boolean b => pure (.boolean b)
  | .byte b => pure (.byte b)
  | .integer t x => valueNewInteger t x
  | .function t f => pure (.function t f)
  | .pointer t a => valueNewPointer t a
  | .array t es => do valueNewArray t (← valueCloneList es)
  | .slice t p c => do valueNewSlice t (← valueClone p) (← valueClone c)

/-- Clones of the elements of an array, in order. -/
def valueCloneList : List Value → Except Fault (List Value)
  | [] => pure []
  | e :: es => do pure ((← valueClone e) :: (← valueCloneList es))

end

theorem valueNewInteger_eq_ok {t : Ty} {x : Int} {v : Value} :
    valueNewInteger t x = .ok v ↔ ∃ k, t = .int k ∧ k.min ≤ x ∧ x ≤ k.max ∧ v = .integer t x := by
  cases t with
  | int k =>
    by_cases h : k.min ≤ x ∧ x ≤ k.max
    · simp [valueNewInteger, Ty.bounds, h, pure, Except.pure, eq_comm]
    · simp only [valueNewInteger, Ty.bounds, h, if_false, throw, throwThe, MonadExceptOf.throw,
        reduceCtorEq, false_iff]
      rintro ⟨_, ⟨⟩, h0, h1, -⟩
      exact h ⟨h0, h1⟩
  | _ => simp [valueNewInteger, Ty.bounds, throw, throwThe, MonadExceptOf.throw]

theorem valueNewInteger_of_bounds {k : IntKind} {x : Int} (h0 : k.min ≤ x) (h1 : x ≤ k.max) :
    valueNewInteger (.int k) x = .ok (.integer (.int k) x) := by
  simp [valueNewInteger, Ty.bounds, h0, h1, pure, Except.pure]

mutual

/-- A well-formed value clones to itself. -/
theorem valueClone_of_wellFormed : ∀ {v : Value}, v.WellFormed → valueClone v = .ok v
  | .boolean _, _ | .byte _, _ | .function _ _, _ => rfl
  | .integer _ _, ⟨_, rfl, h0, h1⟩ => valueNewInteger_of_bounds h0 h1
  | .pointer _ _, ⟨_, rfl⟩ => rfl
  | .array _ es, ⟨_, rfl, hes⟩ => by
    simp [valueClone, valueCloneList_of_elementsOf hes, bind, Except.bind, valueNewArray,
      pure, Except.pure]
  | .slice _ p c, ⟨b, rfl, hp, hpw, hc, hcw⟩ => by
    match c, hc, hcw with
    | .integer _ x, rfl, ⟨_, h, h0, _⟩ =>
      cases h
      simp [valueClone, valueClone_of_wellFormed hpw, valueNewInteger_of_bounds h0 ‹_›, bind,
        Except.bind, valueNewSlice, hp, pure, Except.pure]
      exact h0

theorem valueCloneList_of_elementsOf : ∀ {b : Ty} {es : List Value}, Value.ElementsOf b es →
    valueCloneList es = .ok es
  | _, [], _ => rfl
  | _, _ :: _, ⟨_, he, hes⟩ => by
    simp [valueCloneList, valueClone_of_wellFormed he, valueCloneList_of_elementsOf hes, bind,
      Except.bind, pure, Except.pure]

end

/-- `value_eq`, `value_lt` and `value_gt` share their `switch`: `cmpInt` decides integers, and
bytes and booleans by their numeric values; a function compares by identity for `value_eq` only
(`functions`); pointers, arrays and slices are `UNREACHABLE()`. -/
def valueCompare (site : String) (functions : Bool) (cmpInt : Int → Int → Bool)
    (lhs rhs : Value) : Except Fault Bool := do
  check (lhs.type = rhs.type) site
  match lhs, rhs with
  | .boolean a, .boolean b => pure (cmpInt a.toNat b.toNat)
  | .byte a, .byte b => pure (cmpInt a.toNat b.toNat)
  | .integer (.int _) a, .integer (.int _) b => pure (cmpInt a b)
  | .function _ f, .function _ g =>
      if functions then pure (cmpInt f g) else throw (.internal site)
  | _, _ => throw (.internal site)

/-- `value_eq`. -/
def valueEq : Value → Value → Except Fault Bool :=
  valueCompare "value_eq" true (fun a b => a = b)

/-- `value_lt`. -/
def valueLt : Value → Value → Except Fault Bool :=
  valueCompare "value_lt" false (fun a b => a < b)

/-- `value_gt`. -/
def valueGt : Value → Value → Except Fault Bool :=
  valueCompare "value_gt" false (fun a b => a > b)

/-- Modelled from the spec: `bigint_to_bitarr` (not under `src/`) writes `x` into `w` bits,
least significant first, in two's complement; it fails when the magnitude of `x` needs more
than `w` bits. -/
def bigintToBitarr (w : Nat) (x : Int) : Option (List Bool) :=
  if x.natAbs < 2 ^ w then some ((List.range w).map fun i => (x % 2 ^ w).toNat.testBit i)
  else none

/-- Modelled from the spec: `bitarr_to_bigint` (not under `src/`) reads the bits as an unsigned
number, or in two's complement when `signed`. -/
def bitarrToBigint (bits : List Bool) (signed : Bool) : Int :=
  let u : Nat := (bits.enum.map fun (i, b) => if b then 2 ^ i else 0).sum
  if signed ∧ bits.getLastD false then u - 2 ^ bits.length else u

/-- Modelled from the spec: `bigint_to_uz` (not under `src/`) fails outside `[0, SIZE_MAX]`. -/
def bigintToUz (x : Int) : Option Nat :=
  if 0 ≤ x ∧ x < 2 ^ 64 then some x.toNat else none

/-- Bytes of a bit array: bit `i` is bit `i % 8` of byte `i / 8` (the loop of
`value_to_new_bytes`). -/
def bitarrToBytes (bits : List Bool) : List UInt8 :=
  (List.range ((bits.length + 7) / 8)).map fun j =>
    ((List.range 8).map fun i =>
      if bits.getD (8 * j + i) false then 2 ^ i else 0).sum.toUInt8

mutual

/-- `value_to_new_bytes`: the little-endian image of a value, `type->size` bytes long; `ss`
gives struct sizes. -/
def valueToNewBytes (ss : Nat → Nat) : Value → Except Fault (List UInt8)
  | .boolean b => pure [if b then 1 else 0]
  | .byte b => pure [b]
  | .integer t x => do
      let w := t.size ss * 8
      match bigintToBitarr w x with
      | some bits => pure (bitarrToBytes bits)
      | none => throw (.internal "value_to_new_bytes")
  | .function _ _ | .pointer _ _ | .slice _ _ _ => throw (.internal "value_to_new_bytes")
  | .array t es => do
      let n := match t with
        | .array _ b => b.size ss
        | _ => 0
      if t.size ss < es.length * n then throw (.undefined "value_to_new_bytes")
      let image ← valueToNewBytesList ss n es
      pure (image ++ List.replicate (t.size ss - image.length) 0)

/-- The first `n` bytes of the image of each element (`autil_memmove` of `element_size` bytes
at each offset), in order. -/
def valueToNewBytesList (ss : Nat → Nat) (n : Nat) : List Value → Except Fault (List UInt8)
  | [] => pure []
  | e :: es => do
      let b ← valueToNewBytes ss e
      if b.length < n then throw (.undefined "value_to_new_bytes")
      pure (b.take n ++ (← valueToNewBytesList ss n es))

end

end Sunder
