import Sunder.Resolver.State

/-!
# Storage: static names and stack slots

`normalize`, `normalizeUnique`, `reserveStorageStatic`, `registerStaticSymbol` and
`reserveStorageLocal` are the storage functions of `resolve.c`. A static name is reserved by
`normalize_unique`, which only avoids the names of symbols already registered in
`context()->static_symbols`; the symbol is registered later, and `register_static_symbol` stops
with a diagnostic on a name registered before. A stack slot is carved below `current_rbp_offset`
by `(int)ceil8zu(type->size)`, a conversion to a 32-bit `int`.

* `normalizeUnique_least`: the loop of `normalize_unique` returns `normalize` of the least free
  id, which is at most the number of registered symbols (pigeonhole, `exists_free_id`), so the
  fuel of `normalizeUnique` always suffices.
* `reserveStorageStatic_ok`: a reserved name is not the name of a registered symbol.
* `reserveStorageStatic_window`: two reservations of one name with no registration between them
  return the same address.
* `registerStaticSymbol_ok`: registration appends a symbol whose name is not registered.
* `toInt32_ceil8zu_two_pow_32`: a slot of `2^32` bytes moves the offset by zero.
-/

namespace Sunder

/-! ## Static names -/

/-- The name part of `normalize`: characters other than `[A-Za-z0-9_]` become `_`. -/
def normalizeName (name : String) : String :=
  ⟨name.data.map fun c => if c.isAlphanum || c == '_' then c else '_'⟩

/-- `normalize(prefix, name, unique_id)`: `<prefix>.<name>.<unique-id>`, the prefix and the id
part left out when absent or zero. -/
def normalize (pfx : Option String) (name : String) (uniqueId : Nat) : Except Fault String := do
  let n := normalizeName name
  check (n.length != 0) "normalize"
  let p := match pfx with
    | some p => p ++ "."
    | none => ""
  pure (p ++ n ++ if uniqueId = 0 then "" else "." ++ toString uniqueId)

/-- `symbol_xget_address(symbol)->data.static_.name` of a registered static symbol, with the
asserts of the loop of `normalize_unique` (a static address at offset zero). -/
def staticName (s : Resolver) (n : Nat) : Except Fault String :=
  match s.symbol? n |>.bind Symbol.address with
  | some (.static name 0) => pure name
  | _ => throw (.internal "normalize_unique")

/-- The names of the registered static symbols. -/
def staticNames (s : Resolver) : Except Fault (List String) := s.staticSymbols.mapM (staticName s)

/-- The loop of `normalize_unique` from `uniqueId`, for at most `fuel` more ids. -/
def normalizeUniqueFrom (names : List String) (pfx : Option String) (name : String) :
    Nat → Nat → Except Fault String
  | 0, _ => throw .fuel
  | fuel + 1, uniqueId => do
    let normalized ← normalize pfx name uniqueId
    if normalized ∈ names then normalizeUniqueFrom names pfx name fuel (uniqueId + 1)
    else pure normalized

/-- `normalize_unique(prefix, name)`: the first of `normalize(prefix, name, 0)`,
`normalize(prefix, name, 1)`, ... that no registered static symbol has. Each registered name
rules out at most one id, so one more try than there are registered symbols finds one. -/
def normalizeUnique (pfx : Option String) (name : String) : ResolveM String := do
  let names ← staticNames (← get)
  normalizeUniqueFrom names pfx name (names.length + 1) 0

/-- `resolver_reserve_storage_static`. -/
def reserveStorageStatic (name : String) : ResolveM Address := do
  let normalized ← normalizeUnique (← get).currentStaticAddrPrefix name
  pure (.static normalized 0)

/-- `symbol_xget_address(symbol)->data.static_.name` where the address is asserted static. -/
def staticAddressName (s : Resolver) (n : Nat) : Except Fault String :=
  match s.symbol? n |>.bind Symbol.address with
  | some (.static name _) => pure name
  | _ => throw (.internal "register_static_symbol")

/-- The loop of `register_static_symbol`: no registered symbol has the name `name`. -/
def checkStaticName (s : Resolver) (name : String) : List Nat → Except Fault Unit
  | [] => pure ()
  | m :: ms => do
    if (← staticAddressName s m) = name then
      throw (.fatal s!"[register_static_symbol] normalized symbol name `{name}` already exists")
    checkStaticName s name ms

/-- `register_static_symbol`: a static symbol whose name is already registered is a
diagnostic; otherwise the symbol is appended to the registry. -/
def registerStaticSymbol (n : Nat) : ResolveM Unit := do
  let s ← get
  let name ← staticAddressName s n
  checkStaticName s name s.staticSymbols
  set { s with staticSymbols := s.staticSymbols ++ [n] }

/-! ## Stack slots -/

/-- Modelled from the spec: `ceil8zu` (not under `src/`) rounds a `size_t` up to a multiple of
eight, in `size_t` arithmetic. -/
def ceil8zu (x : Nat) : Nat := (x + 7) % 2 ^ 64 / 8 * 8

/-- The conversion `(int)` of a `size_t` on the targets of the source: the value modulo `2^32`,
read as a 32-bit two's-complement integer. -/
def toInt32 (x : Nat) : Int :=
  let m : Nat := x % 2 ^ 32
  if m < 2 ^ 31 then m else (m : Int) - 2 ^ 32

/-- `int` arithmetic that leaves the range of `int` is undefined behaviour. -/
def intChecked (x : Int) (site : String) : Except Fault Int :=
  if -2 ^ 31 ≤ x ∧ x < 2 ^ 31 then pure x else throw (.undefined site)

/-- `resolver->current_function`, asserted present, and its number. -/
def currentFunctionRecord (s : Resolver) : Except Fault (Nat × Function) :=
  match s.currentFunction with
  | some f => match s.functions[f]? with
    | some fn => pure (f, fn)
    | none => throw (.internal "current_function")
  | none => throw (.internal "current_function")

/-- `resolver_reserve_storage_local`: move `current_rbp_offset` down by the slot size and lower
the function's `local_stack_offset` to it. -/
def reserveStorageLocal (t : Ty) : ResolveM Address := do
  let s ← get
  let (f, fn) ← currentFunctionRecord s
  let rbp ← intChecked (s.currentRbpOffset - toInt32 (ceil8zu (t.size s.structSize)))
    "resolver_reserve_storage_local"
  let fn := if rbp < fn.localStackOffset then { fn with localStackOffset := rbp } else fn
  set { s with currentRbpOffset := rbp, functions := s.functions.set f fn }
  pure (.local_ rbp)

/-! ## Reserved names -/

theorem normalizeUniqueFrom_fresh {names : List String} {pfx : Option String} {name r : String} :
    ∀ {fuel i : Nat}, normalizeUniqueFrom names pfx name fuel i = .ok r → r ∉ names
  | 0, _, h => by simp [normalizeUniqueFrom, throw, throwThe, MonadExceptOf.throw] at h
  | fuel + 1, i, h => by
    simp only [normalizeUniqueFrom, bind, Except.bind] at h
    split at h
    · cases h
    · split at h
      · exact normalizeUniqueFrom_fresh h
      · cases h; assumption

/-- What a reservation reads and returns: the first unregistered name; the state is unchanged. -/
theorem reserveStorageStatic_ok {name : String} {a : Address} {s s' : Resolver} :
    reserveStorageStatic name s = .ok (a, s') ↔ s' = s ∧ ∃ names r, staticNames s = .ok names ∧
      normalizeUniqueFrom names s.currentStaticAddrPrefix name (names.length + 1) 0 = .ok r ∧
      a = .static r 0 := by
  simp only [reserveStorageStatic, normalizeUnique, ResolveM.bind_ok, ResolveM.lift_ok,
    ResolveM.get_ok, ResolveM.pure_ok, liftM]
  constructor
  · rintro ⟨_, _, ⟨rfl, rfl⟩, r, _, ⟨_, _, ⟨rfl, rfl⟩, names, _, ⟨hn, rfl⟩, hr, rfl⟩, rfl, rfl⟩
    exact ⟨rfl, names, r, hn, hr, rfl⟩
  · rintro ⟨rfl, names, r, hn, hr, rfl⟩
    exact ⟨_, _, ⟨rfl, rfl⟩, r, _, ⟨_, _, ⟨rfl, rfl⟩, names, _, ⟨hn, rfl⟩, hr, rfl⟩, rfl, rfl⟩

/-- A reservation reads only the registered names and the prefix: while nothing new is
registered, a second reservation of the same name in the same scope returns the same address. -/
theorem reserveStorageStatic_window {name : String} {a : Address} {s₁ s₁' s₂ : Resolver}
    (h₁ : reserveStorageStatic name s₁ = .ok (a, s₁')) (hn : staticNames s₂ = staticNames s₁)
    (hp : s₂.currentStaticAddrPrefix = s₁.currentStaticAddrPrefix) :
    reserveStorageStatic name s₂ = .ok (a, s₂) := by
  obtain ⟨-, names, r, h1, h2, rfl⟩ := reserveStorageStatic_ok.1 h₁
  exact reserveStorageStatic_ok.2 ⟨rfl, names, r, hn.trans h1, hp ▸ h2, rfl⟩

/-! ## The least free id -/

/-- The value of a digit of `Nat.toDigits 10`. -/
theorem digitChar_toNat_sub {m : Nat} (hm : m < 10) : (Nat.digitChar m).toNat - 48 = m := by
  interval_cases m <;> rfl

/-- Reading the digits of `Nat.toDigitsCore 10` back, most significant first. -/
theorem foldl_toDigitsCore : ∀ {fuel n : Nat} (ds : List Char), n < fuel →
    (Nat.toDigitsCore 10 fuel n ds).foldl (fun a c => 10 * a + (c.toNat - 48)) 0 =
      ds.foldl (fun a c => 10 * a + (c.toNat - 48)) n
  | 0, _, _, h => absurd h (Nat.not_lt_zero _)
  | fuel + 1, n, ds, h => by
    have hd := digitChar_toNat_sub (Nat.mod_lt n (by decide : 10 > 0))
    simp only [Nat.toDigitsCore]
    split
    · simp only [List.foldl_cons, hd]; congr 1; omega
    · rw [foldl_toDigitsCore _ (by omega), List.foldl_cons, hd]
      congr 1; omega

theorem nat_toString_injective : Function.Injective (toString : Nat → String) := by
  intro a b h
  have key : ∀ n : Nat, (toString n).data.foldl (fun a c => 10 * a + (c.toNat - 48)) 0 = n :=
    fun n => foldl_toDigitsCore [] (Nat.lt_succ_self n)
  rw [← key a, ← key b, h]

theorem normalizeName_length (name : String) : (normalizeName name).length = name.length :=
  List.length_map _ _

theorem normalizeName_chars (name : String) :
    ∀ c ∈ (normalizeName name).data, c.isAlphanum ∨ c = '_' := by
  simp only [normalizeName, List.mem_map]
  rintro _ ⟨c, -, rfl⟩
  by_cases h : (c.isAlphanum || c == '_') = true
  · rw [if_pos h]
    simpa [Bool.or_eq_true] using h
  · rw [if_neg h]
    exact .inr rfl

/-- `normalize` of a nonempty name: the prefix, the name part, and `.id` for a nonzero id. -/
theorem normalize_ok {pfx : Option String} {name : String} (hn : name ≠ "") (k : Nat) :
    normalize pfx name k = .ok ((pfx.map (· ++ ".")).getD "" ++ normalizeName name ++
      if k = 0 then "" else "." ++ toString k) := by
  have h : (normalizeName name).length ≠ 0 := by
    rw [normalizeName_length]
    exact fun h0 => hn (String.ext (List.eq_nil_of_length_eq_zero h0))
  have hc : check ((normalizeName name).length != 0) "normalize" = .ok () :=
    check_eq_ok.2 (bne_iff_ne.2 h)
  cases pfx <;> simp only [normalize, bind, Except.bind, hc] <;> rfl

theorem normalize_injective {pfx : Option String} {name r : String} {j k : Nat}
    (hj : normalize pfx name j = .ok r) (hk : normalize pfx name k = .ok r) : j = k := by
  by_cases hn : name = ""
  · subst hn; cases hj
  rw [normalize_ok hn] at hj hk
  have h := String.ext_iff.1 ((Except.ok.inj hj).trans (Except.ok.inj hk).symm)
  simp only [String.data_append, List.append_assoc, List.append_cancel_left_eq] at h
  split at h <;> split at h
  · omega
  · simp at h
  · simp at h
  · simpa using nat_toString_injective (String.ext (List.append_cancel_left h))

/-- From the first id `i`, the loop of `normalize_unique` returns `normalize` of the first id `k`
whose name is free, provided `k` is within the fuel. -/
theorem normalizeUniqueFrom_least {names : List String} {pfx : Option String} {name : String} :
    ∀ {fuel i k : Nat}, i ≤ k → k < i + fuel →
      (∀ r, normalize pfx name k = .ok r → r ∉ names) →
      (∀ j, i ≤ j → j < k → ∃ r, normalize pfx name j = .ok r ∧ r ∈ names) →
      normalizeUniqueFrom names pfx name fuel i = normalize pfx name k
  | 0, _, _, hik, hkf, _, _ => absurd hkf (by omega)
  | fuel + 1, i, k, hik, hkf, hfree, hprev => by
    rw [normalizeUniqueFrom]
    rcases Nat.eq_or_lt_of_le hik with rfl | hlt
    · cases h : normalize pfx name i with
      | error e => rfl
      | ok r => simp only [bind, Except.bind, hfree r h, if_false]; rfl
    · obtain ⟨r, hr, hmem⟩ := hprev i le_rfl hlt
      simp only [hr, bind, Except.bind, hmem, if_true]
      exact normalizeUniqueFrom_least (by omega) (by omega) hfree
        fun j hj hjk => hprev j (by omega) hjk

/-- Pigeonhole: among the ids `0, ..., names.length` one has a name outside `names`. -/
theorem exists_free_id (names : List String) (pfx : Option String) (name : String) :
    ∃ k ≤ names.length, ∀ r, normalize pfx name k = .ok r → r ∉ names := by
  by_cases hn : name = ""
  · subst hn
    exact ⟨0, Nat.zero_le _, fun r h => by cases h⟩
  by_contra hall
  push_neg at hall
  let g (k : Nat) : String := (pfx.map (· ++ ".")).getD "" ++ normalizeName name ++
    if k = 0 then "" else "." ++ toString k
  have hg : ∀ k, normalize pfx name k = .ok (g k) := normalize_ok hn
  have hinj : Function.Injective g := fun j k h => normalize_injective (hg j) (h ▸ hg k)
  have hsub : (Finset.range (names.length + 1)).image g ⊆ names.toFinset := by
    intro x hx
    obtain ⟨k, hk, rfl⟩ := Finset.mem_image.1 hx
    obtain ⟨r, hr, hmem⟩ := hall k (Nat.lt_succ_iff.1 (Finset.mem_range.1 hk))
    rw [hg k] at hr
    exact List.mem_toFinset.2 (Except.ok.inj hr ▸ hmem)
  have := (Finset.card_le_card hsub).trans (List.toFinset_card_le names)
  rw [Finset.card_image_of_injective _ hinj, Finset.card_range] at this
  omega

/-- **`normalize_unique` stops at the least free id.** For a registry whose names are `names`,
it returns `normalize` of the least id whose name is not registered, an id at most the number of
registered symbols. `normalize` is injective in the id, appends nothing for the id `0` and `.id`
for any other, and its name part is made of `[A-Za-z0-9_]`. -/
theorem normalizeUnique_least {pfx : Option String} {name : String} {s : Resolver}
    {names : List String} (hs : staticNames s = .ok names) :
    (∃ k ≤ names.length, normalizeUnique pfx name s = (normalize pfx name k).map (·, s) ∧
        (∀ r, normalize pfx name k = .ok r → r ∉ names) ∧
        ∀ j < k, ∃ r, normalize pfx name j = .ok r ∧ r ∈ names) ∧
      (∀ j k r, normalize pfx name j = .ok r → normalize pfx name k = .ok r → j = k) ∧
      (name ≠ "" → ∀ k, normalize pfx name k = .ok ((pfx.map (· ++ ".")).getD "" ++
        normalizeName name ++ if k = 0 then "" else "." ++ toString k)) ∧
      ∀ c ∈ (normalizeName name).data, c.isAlphanum ∨ c = '_' := by
  classical
  refine ⟨?_, fun _ _ _ => normalize_injective, fun hn => normalize_ok hn, normalizeName_chars name⟩
  obtain ⟨k, hk, hfree, hprev⟩ : ∃ k ≤ names.length, (∀ r, normalize pfx name k = .ok r → r ∉ names) ∧
      ∀ j < k, ∃ r, normalize pfx name j = .ok r ∧ r ∈ names := by
    have hex := exists_free_id names pfx name
    refine ⟨Nat.find hex, (Nat.find_spec hex).1, (Nat.find_spec hex).2, fun j hj => ?_⟩
    have hn := Nat.find_min hex hj
    have hjl : j ≤ names.length := by have := (Nat.find_spec hex).1; omega
    push_neg at hn
    exact hn hjl
  have hloop : normalizeUniqueFrom names pfx name (names.length + 1) 0 = normalize pfx name k :=
    normalizeUniqueFrom_least (Nat.zero_le _) (by omega) hfree fun j _ hj => hprev j hj
  refine ⟨k, hk, ?_, hfree, hprev⟩
  simp only [normalizeUnique, ResolveM.bind_of_ok (show (get : ResolveM Resolver) s = .ok (s, s) from rfl),
    ResolveM.bind_of_ok (ResolveM.lift_ok.2 ⟨hs, rfl⟩)]
  rw [hloop]
  cases normalize pfx name k <;> rfl

/-- Two registered names `x` and `x.1`: the id `2` is the first free one. -/
theorem normalizeUnique_least_x :
    let s : Resolver := { contextInit with
      symbols := contextInit.symbols ++
        [⟨"a", .variable usize (.static "x" 0) none⟩, ⟨"b", .variable usize (.static "x.1" 0) none⟩]
      staticSymbols := [14, 15] }
    staticNames s = .ok ["x", "x.1"] ∧
      (∃ k ≤ 2, normalizeUnique none "x" s = (normalize none "x" k).map (·, s) ∧
        (∀ r, normalize none "x" k = .ok r → r ∉ ["x", "x.1"]) ∧
        ∀ j < k, ∃ r, normalize none "x" j = .ok r ∧ r ∈ ["x", "x.1"]) := by
  intro s
  have hs : staticNames s = .ok ["x", "x.1"] := rfl
  exact ⟨hs, (normalizeUnique_least hs).1⟩

/-! ## Registration -/

theorem checkStaticName_ok {s : Resolver} {name : String} :
    ∀ {ms : List Nat}, checkStaticName s name ms = .ok () →
      ∀ m ∈ ms, ∃ other, staticAddressName s m = .ok other ∧ other ≠ name
  | [], _ => by simp
  | m :: ms, h => by
    simp only [checkStaticName, bind, Except.bind] at h
    split at h
    · cases h
    · next other hm =>
      split at h
      · cases h
      · intro m' hm'
        rcases List.mem_cons.mp hm' with rfl | hm'
        · exact ⟨other, hm, ‹_›⟩
        · exact checkStaticName_ok h m' hm'

/-- Registration appends a static symbol whose name no registered symbol has. -/
theorem registerStaticSymbol_ok {n : Nat} {s s' : Resolver} {u : Unit}
    (h : registerStaticSymbol n s = .ok (u, s')) :
    s' = { s with staticSymbols := s.staticSymbols ++ [n] } ∧
      ∃ name, staticAddressName s n = .ok name ∧
        ∀ m ∈ s.staticSymbols, ∃ other, staticAddressName s m = .ok other ∧ other ≠ name := by
  simp only [registerStaticSymbol, ResolveM.bind_ok, ResolveM.get_ok, ResolveM.lift_ok,
    ResolveM.set_ok, liftM] at h
  obtain ⟨_, _, ⟨rfl, rfl⟩, name, _, ⟨hn, rfl⟩, ⟨⟩, _, ⟨hc, rfl⟩, rfl⟩ := h
  exact ⟨rfl, name, hn, checkStaticName_ok hc⟩

theorem staticAddressName_ok {s : Resolver} {k : Nat} {name : String} :
    staticAddressName s k = .ok name ↔
      ∃ off, (s.symbol? k).bind Symbol.address = some (.static name off) := by
  unfold staticAddressName
  split <;> simp_all [pure, Except.pure, throw, throwThe, MonadExceptOf.throw]

/-- The loop of `register_static_symbol` stops at the first registered symbol of the name. -/
theorem checkStaticName_append_clash {s : Resolver} {name : String} {m : Nat} :
    ∀ {ms : List Nat}, (∀ k ∈ ms, ∃ other, staticAddressName s k = .ok other ∧ other ≠ name) →
      staticAddressName s m = .ok name →
      checkStaticName s name (ms ++ [m]) =
        .error (.fatal s!"[register_static_symbol] normalized symbol name `{name}` already exists")
  | [], _, hm => by simp [checkStaticName, hm, bind, Except.bind, throw, throwThe, MonadExceptOf.throw]
  | k :: ms, hms, hm => by
    obtain ⟨other, hk, hne⟩ := hms k (List.mem_cons_self k ms)
    simp only [List.cons_append, checkStaticName, hk, hne, bind, Except.bind, if_false, pure,
      Except.pure]
    exact checkStaticName_append_clash (fun k' h' => hms k' (List.mem_cons_of_mem k h')) hm

theorem registerStaticSymbol_error {n : Nat} {s : Resolver} {name : String} {e : Fault}
    (hn : staticAddressName s n = .ok name) (hc : checkStaticName s name s.staticSymbols = .error e) :
    registerStaticSymbol n s = .error e := by
  simp [registerStaticSymbol, hn, hc, bind, StateT.bind, Except.bind, get, getThe,
    MonadStateOf.get, StateT.get, pure, Except.pure, liftM, monadLift, MonadLift.monadLift,
    StateT.lift]

/-- Nothing is registered between `resolver_reserve_storage_static` and `register_static_symbol`:
a name reserved in one state is reserved again in any state with the same registered names, and
when the second reserver is registered first, the registration of the first stops with the
duplicate-name diagnostic. -/
theorem reserveStorageStatic_reused {name N : String} {s₁ s₂ s₃ s₄ : Resolver} {m n : Nat}
    (h₁ : reserveStorageStatic name s₁ = .ok (.static N 0, s₁))
    (hn : staticNames s₂ = staticNames s₁)
    (hp : s₂.currentStaticAddrPrefix = s₁.currentStaticAddrPrefix)
    (hm : (s₃.symbol? m).bind Symbol.address = some (.static N 0))
    (hreg : registerStaticSymbol m s₃ = .ok ((), s₄))
    (hsym : (s₄.symbol? n).bind Symbol.address = some (.static N 0)) :
    reserveStorageStatic name s₂ = .ok (.static N 0, s₂) ∧
      registerStaticSymbol n s₄ =
        .error (.fatal s!"[register_static_symbol] normalized symbol name `{N}` already exists") := by
  refine ⟨reserveStorageStatic_window h₁ hn hp, ?_⟩
  obtain ⟨rfl, name', hm', hms⟩ := registerStaticSymbol_ok hreg
  obtain rfl : name' = N := by
    have := hm'.symm.trans (staticAddressName_ok.2 ⟨0, hm⟩)
    simpa using this
  exact registerStaticSymbol_error (staticAddressName_ok.2 ⟨0, hsym⟩)
    (checkStaticName_append_clash hms hm')

theorem reserveStorageStatic_reused_x :
    let s : Resolver := { contextInit with
      symbols := contextInit.symbols ++
        [⟨"a", .variable usize (.static "x" 0) none⟩, ⟨"b", .variable usize (.static "x" 0) none⟩] }
    reserveStorageStatic "x" contextInit = .ok (.static "x" 0, contextInit) ∧
      registerStaticSymbol 14 s = .ok ((), { s with staticSymbols := [14] }) ∧
      registerStaticSymbol 15 { s with staticSymbols := [14] } =
        .error (.fatal "[register_static_symbol] normalized symbol name `x` already exists") := by
  intro s
  have h₁ : reserveStorageStatic "x" contextInit = .ok (.static "x" 0, contextInit) := rfl
  exact ⟨h₁, rfl, (@reserveStorageStatic_reused "x" "x" contextInit contextInit s
    { s with staticSymbols := [14] } 14 15 h₁ rfl rfl rfl rfl rfl).2⟩

/-! ## Stack slots -/

theorem intChecked_ok {x r : Int} {site : String} :
    intChecked x site = .ok r ↔ (-2 ^ 31 ≤ x ∧ x < 2 ^ 31) ∧ x = r := by
  unfold intChecked
  split <;> simp_all [pure, Except.pure, throw, throwThe, MonadExceptOf.throw]

/-- What a reservation reads and writes: the slot starts `(int)ceil8zu(size)` bytes below the
current offset, which must stay in the range of `int`, and the function's `local_stack_offset`
is lowered to it. -/
theorem reserveStorageLocal_ok {t : Ty} {a : Address} {s s' : Resolver} :
    reserveStorageLocal t s = .ok (a, s') ↔ ∃ f fn rbp, currentFunctionRecord s = .ok (f, fn) ∧
      intChecked (s.currentRbpOffset - toInt32 (ceil8zu (t.size s.structSize)))
        "resolver_reserve_storage_local" = .ok rbp ∧ a = .local_ rbp ∧
      s' = { s with
        currentRbpOffset := rbp
        functions := s.functions.set f
          (if rbp < fn.localStackOffset then { fn with localStackOffset := rbp } else fn) } := by
  simp only [reserveStorageLocal, ResolveM.bind_ok, ResolveM.get_ok, ResolveM.lift_ok,
    ResolveM.set_ok, ResolveM.pure_ok, liftM]
  constructor
  · rintro ⟨_, _, ⟨rfl, rfl⟩, ⟨f, fn⟩, _, ⟨hf, rfl⟩, rbp, _, ⟨hr, rfl⟩, _, _, rfl, rfl, rfl⟩
    exact ⟨f, fn, rbp, hf, hr, rfl, rfl⟩
  · rintro ⟨f, fn, rbp, hf, hr, rfl, rfl⟩
    exact ⟨_, _, ⟨rfl, rfl⟩, (f, fn), _, ⟨hf, rfl⟩, rbp, _, ⟨hr, rfl⟩, ⟨⟩, _, rfl, rfl, rfl⟩

/-- A reservation keeps the current function, with its record updated in place. -/
theorem currentFunctionRecord_set {s : Resolver} {f : Nat} {fn fn' : Function} {rbp : Int}
    (h : currentFunctionRecord s = .ok (f, fn)) :
    currentFunctionRecord { s with currentRbpOffset := rbp, functions := s.functions.set f fn' } =
      .ok (f, fn') := by
  unfold currentFunctionRecord at h ⊢
  rcases hc : s.currentFunction with _ | g <;> simp only [hc] at h ⊢
  · cases h
  · rcases hg : s.functions[g]? with _ | gn <;> simp only [hg] at h
    · cases h
    · obtain ⟨rfl, rfl⟩ : g = f ∧ gn = fn := by simpa [pure, Except.pure] using h
      simp [List.getElem?_set_self (List.getElem?_eq_some_iff.1 hg).1, pure, Except.pure]

/-- `(int)ceil8zu(size)` is zero for a size of `2^32`. -/
theorem toInt32_ceil8zu_two_pow_32 : toInt32 (ceil8zu (2 ^ 32)) = 0 := by decide

/-- A local of `2^32` bytes reserved right after another local gets the other local's address as
its slot, and the offset does not move: the two slots overlap. -/
theorem reserveStorageLocal_overlaps {t u : Ty} {s s₁ : Resolver} {a : Address}
    (h : reserveStorageLocal u s = .ok (a, s₁)) (ht : t.size s₁.structSize = 2 ^ 32) :
    ∃ s₂, reserveStorageLocal t s₁ = .ok (a, s₂) ∧ s₂.currentRbpOffset = s₁.currentRbpOffset := by
  obtain ⟨f, fn, rbp, hf, hr, rfl, rfl⟩ := reserveStorageLocal_ok.1 h
  obtain ⟨hin, rfl⟩ := intChecked_ok.1 hr
  refine ⟨_, reserveStorageLocal_ok.2 ⟨f, _, _, currentFunctionRecord_set hf, ?_, rfl, rfl⟩, rfl⟩
  rw [intChecked_ok, ht, toInt32_ceil8zu_two_pow_32, Int.sub_zero]
  exact ⟨hin, rfl⟩

/-- The resolver in the body of `func main() void`, the first function, with no parameters. -/
def mainState : Resolver :=
  { contextInit with
    currentFunction := some 0
    functions := [⟨"main", .function .nil .void, .static "main" 0, [], 0, 0, none, 0⟩] }

theorem reserveStorageLocal_overlaps_u64 :
    ∃ s₁, reserveStorageLocal (.int .u64) mainState = .ok (.local_ (-8), s₁) ∧
      (Ty.array (2 ^ 32) (.int .u8)).size s₁.structSize = 2 ^ 32 ∧
      ∃ s₂, reserveStorageLocal (.array (2 ^ 32) (.int .u8)) s₁ = .ok (.local_ (-8), s₂) ∧
        s₂.currentRbpOffset = s₁.currentRbpOffset := by
  obtain ⟨s₁, h⟩ : ∃ s₁, reserveStorageLocal (.int .u64) mainState = .ok (.local_ (-8), s₁) :=
    ⟨_, rfl⟩
  exact ⟨s₁, h, rfl, reserveStorageLocal_overlaps h rfl⟩

end Sunder
