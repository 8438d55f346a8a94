import Mathlib

/-!
# Types of the Sunder front end

`Ty` is `struct type` of `tir.c`: one constructor per `enum type_kind`, the ten sized integer
kinds folded into `Ty.int` with an `IntKind`. Compound types are compared structurally; a struct
type is a declaration, identified by the number of its declaration (`Ty.struct_ name id`), so
two struct declarations with the same name are different types. This is the identity the
source's pointer comparison `actual != expected` decides when every type is built through the
`type_unique_*` builders (`Sunder/Registry.lean`).

* `Ty.name`: the canonical name the builders compute (`type_new_pointer` formats `"*%s"`, ...).
* `Ty.size`: `type->size`, with the sentinel `sizeofUnsized` for the untyped integer and `any`.
* `IntKind.min`, `IntKind.max`: `type->data.integer.min` and `.max` of the sized integers.
* the predicates `typeIsInteger`, `typeIsSinteger`, `typeCanCompareEquality`, ... of `tir.c`.
-/

namespace Sunder

/-- The ten sized integer kinds `TYPE_U8` .. `TYPE_SSIZE`. -/
inductive IntKind where
  | u8 | s8 | u16 | s16 | u32 | s32 | u64 | s64 | usize | ssize
  deriving DecidableEq, Repr

namespace IntKind

/-- The builtin type name (`context()->interned.u8`, ...). -/
def name : IntKind → String
  | u8 => "u8" | s8 => "s8" | u16 => "u16" | s16 => "s16" | u32 => "u32" | s32 => "s32"
  | u64 => "u64" | s64 => "s64" | usize => "usize" | ssize => "ssize"

/-- `type->size` of `type_new_u8` .. `type_new_ssize`. -/
def size : IntKind → Nat
  | u8 | s8 => 1
  | u16 | s16 => 2
  | u32 | s32 => 4
  | u64 | s64 | usize | ssize => 8

/-- `type_is_sinteger`. -/
def isSigned : IntKind → Bool
  | s8 | s16 | s32 | s64 | ssize => true
  | _ => false

/-- `type->data.integer.min` (`context()->u8_min`, ...). -/
def min (k : IntKind) : Int := if k.isSigned then -2 ^ (8 * k.size - 1) else 0

/-- `type->data.integer.max` (`context()->u8_max`, ...). -/
def max (k : IntKind) : Int :=
  if k.isSigned then 2 ^ (8 * k.size - 1) - 1 else 2 ^ (8 * k.size) - 1

theorem size_pos (k : IntKind) : 0 < k.size := by cases k <;> decide

theorem min_le_zero (k : IntKind) : k.min ≤ 0 := by cases k <;> decide

theorem zero_le_max (k : IntKind) : 0 ≤ k.max := by cases k <;> decide

/-- A signed kind of `w` bits ranges over `[-2^(w-1), 2^(w-1) - 1]`. -/
theorem bounds_of_signed {k : IntKind} (h : k.isSigned) :
    k.min = -(2 ^ (8 * k.size - 1) : Nat) ∧ k.max = (2 ^ (8 * k.size - 1) : Nat) - 1 := by
  cases k <;> simp_all [min, max, isSigned, size]

theorem min_of_unsigned {k : IntKind} (h : k.isSigned = false) : k.min = 0 := by
  simp [min, h]

theorem half_range_ge (k : IntKind) : 128 ≤ 2 ^ (8 * k.size - 1) := by cases k <;> decide

end IntKind

mutual

/-- `struct type`, by kind. `struct_ name id` is the struct declared by declaration `id`. -/
inductive Ty where
  | void
  | bool
  | byte
  | int (k : IntKind)
  /-- The untyped integer type of integer literals without a suffix (`TYPE_INTEGER`). -/
  | integer
  /-- The pointee of the generic pointer `*any` (`TYPE_ANY`). -/
  | any
  | function (params : TyList) (ret : Ty)
  | pointer (base : Ty)
  | array (count : Nat) (base : Ty)
  | slice (base : Ty)
  | struct_ (name : String) (id : Nat)
  deriving DecidableEq, Repr

/-- A parameter-type list, `sbuf(struct type const*)`. -/
inductive TyList where
  | nil
  | cons (t : Ty) (ts : TyList)
  deriving DecidableEq, Repr

end

namespace TyList

/-- The parameter types as a list. -/
def toList : TyList → List Ty
  | nil => []
  | cons t ts => t :: ts.toList

/-- A list of types as a parameter-type list. -/
def ofList : List Ty → TyList
  | [] => nil
  | t :: ts => cons t (ofList ts)

@[simp] theorem toList_nil : nil.toList = [] := rfl

@[simp] theorem toList_cons (t : Ty) (ts : TyList) : (cons t ts).toList = t :: ts.toList := rfl

@[simp] theorem toList_ofList : ∀ ts : List Ty, (ofList ts).toList = ts
  | [] => rfl
  | t :: ts => by simp [ofList, toList_ofList ts]

@[simp] theorem ofList_toList : ∀ ts : TyList, ofList ts.toList = ts
  | nil => rfl
  | cons t ts => by simp [ofList, ofList_toList ts]

end TyList

/-- The sentinel `SIZEOF_UNSIZED`, `(size_t)-1`. -/
def sizeofUnsized : Nat := 2 ^ 64 - 1

mutual

/-- The canonical name of a type, as `type_new_*` formats it: `"*%s"`, `"[%zu]%s"`, `"[]%s"`,
`"func(%s, %s) %s"`; a struct type is named by its declaration's name. -/
def Ty.name : Ty → String
  | .void => "void"
  | .bool => "bool"
  | .byte => "byte"
  | .int k => k.name
  | .integer => "integer"
  | .any => "any"
  | .function ps r => "func(" ++ TyList.names ps ++ ") " ++ r.name
  | .pointer b => "*" ++ b.name
  | .array n b => "[" ++ toString n ++ "]" ++ b.name
  | .slice b => "[]" ++ b.name
  | .struct_ n _ => n

/-- The parameter names of a function type, separated by `", "`. -/
def TyList.names : TyList → String
  | .nil => ""
  | .cons t .nil => t.name
  | .cons t ts => t.name ++ ", " ++ TyList.names ts

end

/-- `type->size`; `ss` gives the size of each struct declaration, which grows while the struct
is completed. An array type's size is exact: `type_new_array` asserts that it does not wrap. -/
def Ty.size (ss : Nat → Nat) : Ty → Nat
  | .void => 0
  | .bool | .byte => 1
  | .int k => k.size
  | .integer | .any => sizeofUnsized
  | .function _ _ | .pointer _ => 8
  | .array n b => n * b.size ss
  | .slice _ => 16
  | .struct_ _ id => ss id

/-- Modelled from the spec: `ALIGNOF_UNSIZED` (the older `tir.c` has no alignment). -/
def alignofUnsized : Nat := 2 ^ 64 - 1

/-- Modelled from the spec: `type->align`. Scalars are aligned to their size, pointers, functions
and slices to eight, an array to its element and a struct as its declaration says (`sa`); the
unsized types have the sentinel `alignofUnsized`. -/
def Ty.align (sa : Nat → Nat) : Ty → Nat
  | .void => 0
  | .bool | .byte => 1
  | .int k => k.size
  | .integer | .any => alignofUnsized
  | .function _ _ | .pointer _ | .slice _ => 8
  | .array _ b => b.align sa
  | .struct_ _ id => sa id

/-- The builtin `usize`. -/
abbrev usize : Ty := .int .usize

/-- The builtin `ssize`. -/
abbrev ssize : Ty := .int .ssize

/-- `type_is_integer`: a sized integer type. -/
def typeIsInteger : Ty → Bool
  | .int _ => true
  | _ => false

/-- `type_is_sinteger`. -/
def typeIsSinteger : Ty → Bool
  | .int k => k.isSigned
  | _ => false

/-- `type_is_uinteger`. -/
def typeIsUinteger : Ty → Bool
  | .int k => !k.isSigned
  | _ => false

/-- Modelled from the spec: `type_is_any_integer` (not under `src/`), "typed or untyped". -/
def typeIsAnyInteger : Ty → Bool
  | .int _ | .integer => true
  | _ => false

/-- `type_can_compare_equality`. -/
def typeCanCompareEquality : Ty → Bool
  | .bool | .byte | .int _ | .function _ _ | .pointer _ => true
  | _ => false

/-- `type_can_compare_order`. -/
def typeCanCompareOrder : Ty → Bool
  | .bool | .byte | .int _ | .pointer _ => true
  | _ => false

/-- `type->data.integer.min` and `.max`, where the type has them. -/
def Ty.bounds : Ty → Option (Int × Int)
  | .int k => some (k.min, k.max)
  | _ => none

@[simp] theorem typeIsInteger_int (k : IntKind) : typeIsInteger (.int k) = true := rfl

theorem typeIsInteger_iff {t : Ty} : typeIsInteger t = true ↔ ∃ k, t = .int k := by
  cases t <;> simp [typeIsInteger]

end Sunder
