import Sunder.Resolver.State

/-!
# The type registry

`typeUniquePointer`, `typeUniqueArray`, `typeUniqueSlice` and `typeUniqueFunction` are the
`type_unique_*` builders of `tir.c`. Each computes the canonical name of the new type
(`Ty.name`), looks it up in the global symbol table, and returns the type of the symbol found
there, or registers a new type symbol under that name. Types are therefore canonical by name,
and a struct type is named by its bare declaration name (`type_new_struct(decl->name, ...)` in
`resolve_decl_struct`): two struct declarations of one name in two namespaces are two types with
one canonical name.

* `typeUnique_hit`, `typeUnique_miss`: a registered name returns the type registered under it,
  a new name registers the new type.
* `typeUniqueArray_eq`: the array builder stops at `type_new_array`'s overflow assertion exactly
  when `count * size` does not fit in a `size_t`.
* `typeUniquePointer_conflates`: the pointer built for a type whose name is already taken by
  another type is the pointer to that other type.
-/

namespace Sunder

/-- The body the `type_unique_*` builders share: the type of the symbol registered under the
new type's name, or the new type, registered. -/
def typeUnique (t : Ty) : ResolveM Ty := do
  match (← get).lookup globalSymbolTable t.name with
  | some existing => return (← getSymbol existing).type
  | none =>
    let n ← newSymbol ⟨t.name, .type t⟩
    symbolTableInsert globalSymbolTable t.name n
    pure t

/-- `type_unique_pointer`. -/
def typeUniquePointer (base : Ty) : ResolveM Ty := typeUnique (.pointer base)

/-- `type_unique_array`, with the assertion of `type_new_array` that `count * base->size` does not
overflow `size_t`. -/
def typeUniqueArray (count : Nat) (base : Ty) : ResolveM Ty := do
  let s ← get
  require (count == 0 || count * base.size s.structSize < 2 ^ 64) "type_new_array: array size overflow"
  typeUnique (.array count base)

/-- `type_unique_slice`. -/
def typeUniqueSlice (base : Ty) : ResolveM Ty := typeUnique (.slice base)

/-- `type_unique_function`. -/
def typeUniqueFunction (params : List Ty) (ret : Ty) : ResolveM Ty :=
  typeUnique (.function (.ofList params) ret)

/-! ## Hits and misses -/

/-- A name already registered: the builder returns the registered symbol's type. -/
theorem typeUnique_hit {t : Ty} {n : Nat} {sym : Symbol} {s : Resolver}
    (h : s.lookup globalSymbolTable t.name = some n) (hs : s.symbol? n = some sym) :
    typeUnique t s = .ok (sym.type, s) := by
  simp [typeUnique, getSymbol, h, hs, bind, StateT.bind, get, getThe, MonadStateOf.get, StateT.get,
    pure, StateT.pure, Except.bind, Except.pure]

/-- A new name: the builder registers the new type under it. -/
theorem typeUnique_miss {t : Ty} {tbl : SymbolTable} {s : Resolver}
    (h : s.lookup globalSymbolTable t.name = none) (h0 : s.tables[globalSymbolTable]? = some tbl) :
    typeUnique t s = .ok (t, { s with
      symbols := s.symbols ++ [⟨t.name, .type t⟩],
      tables := s.tables.set globalSymbolTable
        { tbl with elements := tbl.elements ++ [(t.name, s.symbols.length)] } }) := by
  have hl := Resolver.lookupLocal_of_lookup_none h
  simp only [Resolver.lookupLocal, h0, Option.bind_some, Option.map_eq_none'] at hl
  simp [typeUnique, symbolTableInsert, newSymbol, h, hl, h0, Resolver.lookupLocal, bind, StateT.bind,
    get, getThe, MonadStateOf.get, StateT.get, set, StateT.set, modifyGet, MonadStateOf.modifyGet,
    StateT.modifyGet, pure, StateT.pure, Except.bind, Except.pure]

/-! ## Array sizes -/

/-- `type_unique_array` either stops at the assertion of `type_new_array`, when `count * size`
does not fit in a `size_t`, or is `type_unique` of the array type. -/
theorem typeUniqueArray_eq (count : Nat) (base : Ty) (s : Resolver) :
    typeUniqueArray count base s =
      if count = 0 ∨ count * base.size s.structSize < 2 ^ 64 then typeUnique (.array count base) s
      else .error (.internal "type_new_array: array size overflow") := by
  have hr : (count == 0 || decide (count * base.size s.structSize < 2 ^ 64)) =
      decide (count = 0 ∨ count * base.size s.structSize < 2 ^ 64) := by
    rw [Bool.decide_or]; cases count <;> rfl
  simp only [typeUniqueArray, ResolveM.bind_of_ok (show (get : ResolveM Resolver) s = .ok (s, s) from rfl),
    require, hr, decide_eq_true_eq]
  split_ifs <;> rfl

/-- **`type_unique_pointer` is not injective.** Once the pointer to one type is registered, the
pointer built for another type of the same name is the registered one: a struct `Node` of one
namespace and one of another, or a struct named `u8` and the builtin `u8`. -/
theorem typeUniquePointer_conflates {t₁ t₂ : Ty} {tbl : SymbolTable} {s : Resolver}
    (hn : t₂.name = t₁.name) (h : s.lookup globalSymbolTable (Ty.pointer t₁).name = none)
    (h0 : s.tables[globalSymbolTable]? = some tbl) :
    ∃ s₁ s₂, typeUniquePointer t₁ s = .ok (.pointer t₁, s₁) ∧
      typeUniquePointer t₂ s₁ = .ok (.pointer t₁, s₂) := by
  have hl := Resolver.lookupLocal_of_lookup_none h
  simp only [Resolver.lookupLocal, h0, Option.some_bind, Option.map_eq_none', Ty.name] at hl
  have hlen : globalSymbolTable < s.tables.length := (List.getElem?_eq_some_iff.1 h0).1
  refine ⟨_, _, typeUnique_miss h h0,
    @typeUnique_hit _ s.symbols.length ⟨(Ty.pointer t₁).name, .type (.pointer t₁)⟩ _ ?_ ?_⟩
  · apply Resolver.lookup_of_lookupLocal
    simp [Resolver.lookupLocal, Ty.name, hn, List.find?_append, hl, List.getElem?_set_self hlen]
  · simp [Resolver.symbol?]

theorem typeUniquePointer_conflates_u8 :
    (Ty.struct_ "u8" 0).name = (Ty.int .u8).name ∧
      contextInit.lookup globalSymbolTable (Ty.pointer (.int .u8)).name = none ∧
      ∃ s₁ s₂, typeUniquePointer (.int .u8) contextInit = .ok (.pointer (.int .u8), s₁) ∧
        typeUniquePointer (.struct_ "u8" 0) s₁ = .ok (.pointer (.int .u8), s₂) :=
  ⟨rfl, by decide, typeUniquePointer_conflates rfl (by decide) rfl⟩

end Sunder
