import Sunder.Resolver.Module
/-!
# Aggregates: array typespecs and struct literals

* `resolveTypespecArray_count`: `resolve_typespec_array` checks only that the count is a `usize`
  that fits in a `size_t` (`bigint_to_uz`), then calls `type_unique_array`, whose
  `type_new_array` asserts that `count * base->size` does not overflow (`typeUniqueArray_eq`).
  The product is never checked by the resolver, so `[0x8000000000000000]u16` stops at the
  assertion instead of a diagnostic.
* `resolveExprStruct_spec`: `resolve_expr_struct` succeeds exactly when the initializers name
  only member variables, none twice, every member variable, and each initializer casts to its
  member's type; the struct node then holds the cast initializers in declaration order. The loop
  over the initializers keeps the slots equal to `slotOf` of the initializers matched so far
  (`fillInitializers_ok`, one step per initializer), and the final loop reads them back
  (`collectSlots_ok`). The member names of a declared struct are distinct
  (`firstDuplicate_eq_none_iff`).
-/

namespace Sunder

/-! ## Array typespecs -/

/-- **The count of an array typespec is not checked against the base size.** A `usize` count
`c` below `2 ^ 64` reaches `type_unique_array`, which stops at the overflow assertion of
`type_new_array` whenever `c * size(B)` does not fit in a `size_t`. -/
theorem resolveTypespecArray_count {r : Resolvers} {count : CstExpr} {base : CstTypespec}
    {s s₁ s₂ : Resolver} {e : Expr} {c : Nat} {b : Ty}
    (hc : r.expr count s = .ok (e, s₁)) (he : e.type = usize)
    (hv : evalRvalue s₁.structSize e = .ok (.integer usize c)) (hc64 : c < 2 ^ 64)
    (hb : r.typespec base s₁ = .ok (b, s₂)) :
    resolveTypespecArray r count base s =
      if c = 0 ∨ c * b.size s₂.structSize < 2 ^ 64 then typeUnique (.array c b) s₂
      else .error (.internal "type_new_array: array size overflow") := by
  have hcast : shallowImplicitCast usize e = .ok e := by
    unfold shallowImplicitCast; rw [if_pos he.symm]; rfl
  have huz : bigintToUz c = some c := by
    rw [bigintToUz, if_pos ⟨Int.natCast_nonneg c, by exact_mod_cast hc64⟩]; rfl
  simp only [resolveTypespecArray, ResolveM.bind_of_ok hc,
    ResolveM.bind_of_ok (ResolveM.lift_ok.2 ⟨hcast, rfl⟩), he, ne_eq, not_true_eq_false, if_false,
    pure_bind, ResolveM.bind_of_ok (show (get : ResolveM Resolver) s₁ = .ok (s₁, s₁) from rfl),
    ResolveM.bind_of_ok (ResolveM.lift_ok.2 ⟨hv, rfl⟩), Value.type, decide_True, require, if_true,
    Value.intPayload]
  rw [ResolveM.bind_of_ok
      (show (liftM (pure (c : Int) : Except Fault Int) : ResolveM Int) s₁ = .ok (c, s₁) from rfl),
    huz, ResolveM.bind_of_ok (show orFatal _ (some c) s₁ = .ok (c, s₁) from rfl),
    ResolveM.bind_of_ok hb]
  exact typeUniqueArray_eq c b s₂

/-- `*[0x8000000000000000]u16`: the count fits in a `size_t`, twice it does not. -/
theorem resolveTypespecArray_count_overflow :
    resolveTypespecArray (resolvers 2) (.integer 9223372036854775808 "u")
        (.symbol false [.mk "u16" []]) contextInit =
      .error (.internal "type_new_array: array size overflow") := by
  have hc : (resolvers 2).expr (.integer 9223372036854775808 "u") contextInit =
      .ok (.integer usize 9223372036854775808, contextInit) := rfl
  have hb : (resolvers 2).typespec (.symbol false [.mk "u16" []]) contextInit =
      .ok (.int .u16, contextInit) := rfl
  rw [resolveTypespecArray_count hc rfl rfl (by decide) hb, if_neg (by decide)]

/-! ## Struct literals -/

/-- The slot of member variable `m` once the initializers `done` are matched: the cast of the
first initializer naming it, when the cast succeeds. -/
def slotOf (done : List (String × Expr)) (m : MemberVariable) : Option Expr :=
  (done.find? (·.1 = m.name)).bind fun p => (shallowImplicitCast m.type p.2).toOption

/-- The initializers `ps` fit the member variables `mvs`: no name is given twice, and each names
a member variable, to whose type its expression casts. -/
def InitializersFit (mvs : List MemberVariable) (ps : List (String × Expr)) : Prop :=
  (ps.map (·.1)).Nodup ∧ ∀ p ∈ ps, ∃ m ∈ mvs, m.name = p.1 ∧
    ∃ e, shallowImplicitCast m.type p.2 = .ok e ∧ e.type = m.type

theorem InitializersFit.snoc {mvs : List MemberVariable} {done : List (String × Expr)} {x : String}
    {e e' : Expr} {m : MemberVariable} (h : InitializersFit mvs done) (hfree : x ∉ done.map (·.1))
    (hm : m ∈ mvs) (hmx : m.name = x) (hc : shallowImplicitCast m.type e = .ok e')
    (hty : e'.type = m.type) : InitializersFit mvs (done ++ [(x, e)]) := by
  refine ⟨?_, fun p hp => ?_⟩
  · simpa [List.nodup_append, hfree] using h.1
  · rcases List.mem_append.1 hp with hp | hp
    · exact h.2 p hp
    · obtain rfl := List.mem_singleton.1 hp
      exact ⟨m, hm, hmx, e', hc, hty⟩

/-- Under matched initializers, a member's slot is full exactly when an initializer names it. -/
theorem slotOf_isSome_iff {mvs : List MemberVariable} {done : List (String × Expr)}
    {m : MemberVariable} (hnd : (mvs.map (·.name)).Nodup) (hfit : InitializersFit mvs done)
    (hm : m ∈ mvs) : (slotOf done m).isSome ↔ m.name ∈ done.map (·.1) := by
  unfold slotOf
  cases hf : done.find? (·.1 = m.name) with
  | none =>
    simp only [Option.none_bind, Option.isSome_none, Bool.false_eq_true, false_iff]
    intro hx
    obtain ⟨p, hp, hpx⟩ := List.mem_map.1 hx
    exact List.find?_eq_none.1 hf p hp (decide_eq_true hpx)
  | some p =>
    have hp := List.mem_of_find?_eq_some hf
    have hpx : p.1 = m.name := by simpa using List.find?_some hf
    obtain ⟨m', hm', hm'x, e, hc, -⟩ := hfit.2 p hp
    obtain rfl : m' = m := List.inj_on_of_nodup_map hnd hm' hm (hm'x.trans hpx)
    simp only [Option.some_bind, hc, Except.toOption, Option.isSome_some, true_iff]
    exact List.mem_map.2 ⟨p, hp, hpx⟩

theorem slotOf_eq_some {ps : List (String × Expr)} {m : MemberVariable} {e' : Expr}
    (h : slotOf ps m = some e') :
    ∃ p ∈ ps, p.1 = m.name ∧ shallowImplicitCast m.type p.2 = .ok e' := by
  obtain ⟨p, hf, hp⟩ := Option.bind_eq_some.1 h
  refine ⟨p, List.mem_of_find?_eq_some hf, by simpa using List.find?_some hf, ?_⟩
  cases hc : shallowImplicitCast m.type p.2 <;> simp_all [Except.toOption]

/-- Filling the slot of member `j` with a new initializer's cast is matching one more
initializer. -/
theorem map_slotOf_set {mvs : List MemberVariable} {done : List (String × Expr)} {j : Nat}
    {x : String} {e e' : Expr} (hnd : (mvs.map (·.name)).Nodup) (hj : j < mvs.length)
    (hx : mvs[j].name = x) (hfree : x ∉ done.map (·.1))
    (hc : shallowImplicitCast mvs[j].type e = .ok e') :
    (mvs.map (slotOf done)).set j (some e') = mvs.map (slotOf (done ++ [(x, e)])) := by
  apply List.ext_getElem (by simp)
  intro i h₁ h₂
  have hi : i < mvs.length := by simpa using h₂
  simp only [List.getElem_set, List.getElem_map, slotOf, List.find?_append]
  split_ifs with hji
  · subst hji
    have hnone : done.find? (·.1 = x) = none :=
      List.find?_eq_none.2 fun p hp h => hfree (List.mem_map.2 ⟨p, hp, by simpa using h⟩)
    simp [hnone, hx, hc, Except.toOption]
  · have hne : mvs[i].name ≠ x := fun h => hji ((List.Nodup.getElem_inj_iff (hnd.of_map _)).1
      (List.inj_on_of_nodup_map hnd (List.getElem_mem _) (List.getElem_mem _) (hx.trans h.symm)))
    simp [Ne.symm hne]

/-- **The loop over the initializers.** From the slots of the initializers `done`, the rest
are matched exactly when all of them fit, and the slots are then those of all of them. -/
theorem fillInitializers_ok {t : Ty} {mvs : List MemberVariable}
    (hnd : (mvs.map (·.name)).Nodup) :
    ∀ {rest done : List (String × Expr)} {s s' : Resolver} {out : List (Option Expr)},
      InitializersFit mvs done →
      (fillInitializers t mvs (mvs.map (slotOf done)) rest s = .ok (out, s') ↔
        InitializersFit mvs (done ++ rest) ∧ out = mvs.map (slotOf (done ++ rest)) ∧ s' = s) := by
  intro rest
  induction rest with
  | nil =>
    intro done s s' out hfit
    simp only [fillInitializers, List.append_nil, ResolveM.pure_ok, hfit, true_and]
    exact ⟨fun ⟨h₁, h₂⟩ => ⟨h₁.symm, h₂.symm⟩, fun ⟨h₁, h₂⟩ => ⟨h₁.symm, h₂.symm⟩⟩
  | cons p rest ih =>
    intro done s s' out hfit
    obtain ⟨x, e⟩ := p
    cases hj : mvs.findIdx? (·.name = x) with
    | none =>
      simp only [fillInitializers, hj, ResolveM.fatal_ok, false_iff]
      intro h
      obtain ⟨m, hm, hmx, -⟩ := h.1.2 (x, e) (by simp)
      simpa [hmx] using List.findIdx?_eq_none_iff.1 hj m hm
    | some j =>
      obtain ⟨hjl, hjx, -⟩ := List.findIdx?_eq_some_iff_getElem.1 hj
      have hmx : mvs[j].name = x := of_decide_eq_true hjx
      have hslot : ((mvs.map (slotOf done))[j]?).join = slotOf done mvs[j] := by simp [hjl]
      simp only [fillInitializers, hj, fillInitializers.orInternal, List.getElem?_eq_getElem hjl,
        hslot, pure_bind, slotOf_isSome_iff hnd hfit (List.getElem_mem _), hmx]
      by_cases hdup : x ∈ done.map (·.1)
      · -- duplicate initializer
        simp only [hdup, if_true, ResolveM.bind_ok, ResolveM.fatal_ok, false_and, exists_false,
          false_iff, not_and]
        intro h
        have hnodup := h.1
        simp only [List.map_append, List.map_cons, List.nodup_append] at hnodup
        exact (hnodup.2.2 hdup (List.mem_cons_self _ _)).elim
      · simp only [hdup, if_false, ResolveM.bind_ok, ResolveM.lift_ok, checkTypeCompatibility_ok]
        constructor
        · rintro ⟨e', _, ⟨hc, rfl⟩, _, _, ⟨hty, rfl⟩, hfill⟩
          rw [map_slotOf_set hnd hjl hmx hdup hc, ih (hfit.snoc hdup (List.getElem_mem _) hmx hc hty)]
            at hfill
          simpa using hfill
        · rintro ⟨hF, rfl, rfl⟩
          obtain ⟨m, hm, hmx', e', hc, hty⟩ := hF.2 (x, e) (by simp)
          obtain rfl := List.inj_on_of_nodup_map hnd hm (List.getElem_mem _) (hmx'.trans hmx.symm)
          refine ⟨e', _, ⟨hc, rfl⟩, (), _, ⟨hty, rfl⟩, ?_⟩
          rw [map_slotOf_set hnd hjl hmx hdup hc, ih (hfit.snoc hdup hm hmx' hc hty)]
          simpa using hF

/-- Every member variable must have been initialized: the slots are all full. -/
theorem collectSlots_ok : ∀ {mvs : List MemberVariable} {slots : List (Option Expr)}
    {es : List Expr} {s s' : Resolver}, slots.length = mvs.length →
    (collectSlots mvs slots s = .ok (es, s') ↔ slots = es.map some ∧ s' = s)
  | [], [], es, s, s', _ => by
    simp only [collectSlots, ResolveM.pure_ok]
    constructor
    · rintro ⟨rfl, rfl⟩
      exact ⟨rfl, rfl⟩
    · rintro ⟨h, rfl⟩
      exact ⟨(List.map_eq_nil_iff.1 h.symm).symm, rfl⟩
  | [], _ :: _, _, _, _, h => absurd h (by simp)
  | _ :: _, [], _, _, _, h => absurd h (by simp)
  | m :: mvs, none :: slots, es, s, s', _ => by
    cases es <;> simp [collectSlots]
  | m :: mvs, some e :: slots, es, s, s', h => by
    simp only [collectSlots, ResolveM.bind_ok, ResolveM.pure_ok,
      collectSlots_ok (Nat.succ.inj h)]
    constructor
    · rintro ⟨a, s₁, ⟨rfl, rfl⟩, rfl, rfl⟩
      exact ⟨rfl, rfl⟩
    · rintro ⟨h, rfl⟩
      cases es with
      | nil => cases h
      | cons e₀ es₀ =>
        obtain ⟨he, rfl⟩ := List.cons.inj h
        cases he
        exact ⟨es₀, s', ⟨rfl, rfl⟩, rfl, rfl⟩

theorem exists_eq_map_some_iff {α : Type} :
    ∀ {l : List (Option α)}, (∃ l' : List α, l = l'.map some) ↔ ∀ o ∈ l, o.isSome
  | [] => by simp
  | o :: l => by
    rw [List.forall_mem_cons, ← exists_eq_map_some_iff]
    cases o with
    | none =>
      simp only [Option.isSome_none, Bool.false_eq_true, false_and, iff_false]
      rintro ⟨_ | _, h⟩ <;> cases h
    | some a =>
      constructor
      · rintro ⟨_ | ⟨b, l'⟩, h⟩
        · cases h
        · exact ⟨rfl, l', (List.cons.inj h).2⟩
      · rintro ⟨-, l', rfl⟩
        exact ⟨a :: l', rfl⟩

/-- A run of `resolve_expr_struct` once its typespec and initializer expressions are resolved:
the initializers fit, and the slots are full. -/
theorem resolveExprStruct_run {r : Resolvers} {ts : CstTypespec} {inits : List (String × CstExpr)}
    {s s₁ s₂ : Resolver} {n : String} {id : Nat} {st : StructType} {es : List Expr}
    (ht : r.typespec ts s = .ok (.struct_ n id, s₁)) (hst : s₁.structs[id]? = some st)
    (hnd : (st.memberVariables.map (·.name)).Nodup)
    (hes : inits.mapM (fun p => r.expr p.2) s₁ = .ok (es, s₂)) {e : Expr} {s' : Resolver} :
    resolveExprStruct r ts inits s = .ok (e, s') ↔
      InitializersFit st.memberVariables ((inits.map (·.1)).zip es) ∧
      ∃ es', st.memberVariables.map (slotOf ((inits.map (·.1)).zip es)) = es'.map some ∧
        e = .struct_ (.struct_ n id) es' ∧ s' = s₂ := by
  rw [resolveExprStruct, ResolveM.bind_of_ok ht]
  simp only [ResolveM.bind_of_ok (show (get : ResolveM Resolver) s₁ = .ok (s₁, s₁) from rfl), hst,
    pure_bind]
  erw [ResolveM.bind_of_ok hes]
  rw [show st.memberVariables.map (fun _ => none) = st.memberVariables.map (slotOf []) from rfl]
  simp only [ResolveM.bind_ok, List.nil_append,
    fillInitializers_ok hnd (show InitializersFit _ [] from ⟨List.nodup_nil, nofun⟩)]
  constructor
  · rintro ⟨_, _, ⟨hfit, rfl, rfl⟩, es', s₃, hc, hp⟩
    obtain ⟨hsl, rfl⟩ := (collectSlots_ok (List.length_map _ _)).1 hc
    obtain ⟨rfl, rfl⟩ := ResolveM.pure_ok.1 hp
    exact ⟨hfit, es', hsl, rfl, rfl⟩
  · rintro ⟨hfit, es', hsl, rfl, rfl⟩
    exact ⟨_, _, ⟨hfit, rfl, rfl⟩, es', _, (collectSlots_ok (List.length_map _ _)).2 ⟨hsl, rfl⟩, rfl⟩

/-- **Struct literals.** For a struct whose member names are distinct, `resolve_expr_struct`
succeeds exactly when the initializers name only member variables, none twice, and every member
variable, and each cast initializer has its member's type. The node then lists, in declaration
order, the cast of the initializer naming each member variable. -/
theorem resolveExprStruct_spec {r : Resolvers} {ts : CstTypespec} {inits : List (String × CstExpr)}
    {s s₁ s₂ : Resolver} {n : String} {id : Nat} {st : StructType} {es : List Expr}
    (ht : r.typespec ts s = .ok (.struct_ n id, s₁)) (hst : s₁.structs[id]? = some st)
    (hnd : (st.memberVariables.map (·.name)).Nodup)
    (hes : inits.mapM (fun p => r.expr p.2) s₁ = .ok (es, s₂)) :
    ((∃ e s', resolveExprStruct r ts inits s = .ok (e, s')) ↔
      (∀ x ∈ inits.map (·.1), x ∈ st.memberVariables.map (·.name)) ∧ (inits.map (·.1)).Nodup ∧
      (∀ m ∈ st.memberVariables, m.name ∈ inits.map (·.1)) ∧
      ∀ p ∈ (inits.map (·.1)).zip es, ∀ m ∈ st.memberVariables, m.name = p.1 →
        ∃ e, shallowImplicitCast m.type p.2 = .ok e ∧ e.type = m.type) ∧
    ∀ e s', resolveExprStruct r ts inits s = .ok (e, s') → s' = s₂ ∧
      ∃ es', e = .struct_ (.struct_ n id) es' ∧ List.Forall₂ (fun m e' =>
        ∃ p ∈ (inits.map (·.1)).zip es, p.1 = m.name ∧ shallowImplicitCast m.type p.2 = .ok e')
        st.memberVariables es' := by
  have hnames : ((inits.map (·.1)).zip es).map (·.1) = inits.map (·.1) :=
    List.map_fst_zip _ _ (by rw [List.length_map, ResolveM.mapM_length hes])
  have hconds : ((∀ x ∈ inits.map (·.1), x ∈ st.memberVariables.map (·.name)) ∧
      (inits.map (·.1)).Nodup ∧ (∀ m ∈ st.memberVariables, m.name ∈ inits.map (·.1)) ∧
      ∀ p ∈ (inits.map (·.1)).zip es, ∀ m ∈ st.memberVariables, m.name = p.1 →
        ∃ e, shallowImplicitCast m.type p.2 = .ok e ∧ e.type = m.type) ↔
      InitializersFit st.memberVariables ((inits.map (·.1)).zip es) ∧
        ∀ m ∈ st.memberVariables, (slotOf ((inits.map (·.1)).zip es) m).isSome := by
    constructor
    · rintro ⟨hA, hB, hC, hD⟩
      have hfit : InitializersFit st.memberVariables ((inits.map (·.1)).zip es) := by
        refine ⟨by rw [hnames]; exact hB, fun p hp => ?_⟩
        obtain ⟨m, hm, hmx⟩ := List.mem_map.1 (hA p.1 (hnames ▸ List.mem_map_of_mem _ hp))
        exact ⟨m, hm, hmx, hD p hp m hm hmx⟩
      exact ⟨hfit, fun m hm => (slotOf_isSome_iff hnd hfit hm).2 (by rw [hnames]; exact hC m hm)⟩
    · rintro ⟨hfit, hall⟩
      refine ⟨fun x hx => ?_, hnames ▸ hfit.1, fun m hm => hnames ▸ (slotOf_isSome_iff hnd hfit hm).1
        (hall m hm), fun p hp m hm hmx => ?_⟩
      · obtain ⟨p, hp, rfl⟩ := List.mem_map.1 (hnames ▸ hx : x ∈ _)
        obtain ⟨m, hm, hmx, -⟩ := hfit.2 p hp
        exact List.mem_map.2 ⟨m, hm, hmx⟩
      · obtain ⟨m', hm', hm'x, hc⟩ := hfit.2 p hp
        obtain rfl := List.inj_on_of_nodup_map hnd hm' hm (hm'x.trans hmx.symm)
        exact hc
  refine ⟨hconds.trans ⟨?_, ?_⟩ |>.symm, fun e s' h => ?_⟩
  · rintro ⟨hfit, hall⟩
    obtain ⟨es', hsl⟩ := exists_eq_map_some_iff.2 (List.forall_mem_map.2 hall)
    exact ⟨_, _, (resolveExprStruct_run ht hst hnd hes).2 ⟨hfit, es', hsl, rfl, rfl⟩⟩
  · rintro ⟨e, s', h⟩
    obtain ⟨hfit, es', hsl, -⟩ := (resolveExprStruct_run ht hst hnd hes).1 h
    exact ⟨hfit, List.forall_mem_map.1 (exists_eq_map_some_iff.1 ⟨es', hsl⟩)⟩
  · obtain ⟨-, es', hsl, rfl, rfl⟩ := (resolveExprStruct_run ht hst hnd hes).1 h
    have h₂ : List.Forall₂ Eq (st.memberVariables.map (slotOf ((inits.map (·.1)).zip es)))
        (es'.map some) := by rw [List.forall₂_eq_eq_eq]; exact hsl
    rw [List.forall₂_map_left_iff, List.forall₂_map_right_iff] at h₂
    exact ⟨rfl, es', rfl, h₂.imp fun _ _ => slotOf_eq_some⟩

/-- `P { .y = true, .x = 3u8 }` for `struct P { var x: u8; var y: bool; }`. -/
theorem resolveExprStruct_spec_swapped :
    let p : StructType := ⟨"P", 2, [⟨"x", .int .u8, 0⟩, ⟨"y", .bool, 1⟩], 2, 1⟩
    let s : Resolver := { contextInit with
      symbols := contextInit.symbols ++ [⟨"P", .type (.struct_ "P" 0)⟩]
      tables := contextInit.tables ++ [⟨some 0, [("P", 14)]⟩, ⟨some 1, []⟩]
      structs := [p]
      currentSymbolTable := 1 }
    let inits : List (String × CstExpr) := [("y", .boolean true), ("x", .integer 3 "u8")]
    resolveExprStruct (resolvers 2) (.symbol false [.mk "P" []]) inits s =
        .ok (.struct_ (.struct_ "P" 0) [.integer (.int .u8) 3, .boolean true], s) ∧
      (∀ x ∈ inits.map (·.1), x ∈ p.memberVariables.map (·.name)) ∧ (inits.map (·.1)).Nodup ∧
      ∀ m ∈ p.memberVariables, m.name ∈ inits.map (·.1) := by
  intro p s inits
  have ht : (resolvers 2).typespec (.symbol false [.mk "P" []]) s = .ok (.struct_ "P" 0, s) := rfl
  have hes : inits.mapM (fun p => (resolvers 2).expr p.2) s =
      .ok ([.boolean true, .integer (.int .u8) 3], s) := rfl
  have hrun : resolveExprStruct (resolvers 2) (.symbol false [.mk "P" []]) inits s =
      .ok (.struct_ (.struct_ "P" 0) [.integer (.int .u8) 3, .boolean true], s) := rfl
  obtain ⟨hA, hB, hC, -⟩ := (resolveExprStruct_spec ht rfl (by decide) hes).1.1 ⟨_, _, hrun⟩
  exact ⟨hrun, hA, hB, hC⟩

end Sunder
