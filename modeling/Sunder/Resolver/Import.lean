import Sunder.Resolver.Module
import Sunder.Resolver.Merge

/-!
# Imports

`resolve_import_file` merges the export table of an imported module into the symbol table of the
importing one (`merge_symbol_table(resolver, resolver->module->symbols, module->exports)`), once
`resolve` has made the importing module's tables and entered its namespace
(`resolveModuleNamespace`). The merge's specification (`Sunder.Resolver.Merge`) asks for a tree
ready to be written, a tree ready to be read, and the two apart; this module shows that `resolve`
builds such tables, and states the laws of merging.

* `NamespaceChain s t names`: from table `t` each name binds a namespace whose table, made later,
  binds the next name, and the last table is empty. Such a tree is ready to be written
  (`NamespaceChain.writeReady`) and to be read with more fuel than names
  (`NamespaceChain.readReady`).
* `enterNamespace_chain`: the namespace loop of `resolve` links such a chain from both current
  tables and changes no other table it finds.
* `resolveModuleNamespace_chain`, `resolveModuleNamespace_mergeReady`: when `resolve` reaches its
  imports, the module table is ready to be written; every export table that was ready to be read
  before stays so and is apart from it; the module's own export table is ready to be read.
* `mergeSymbolTable_laws`: merging twice is merging once, two merges in either order both fail or
  both bind the same, and a merge fails exactly when the tables bind one path differently.
  `mergeSymbolTable_laws_import` applies them to a module `b` that imports a module `a`.
-/

namespace Sunder

/-! ## Namespace chains -/

/-- The tables the namespace loop links: from table `t` each name of `names` binds a namespace
whose table, made after `t`, binds the next name, and the last table is empty. -/
def NamespaceChain (s : Resolver) : Nat → List String → Prop
  | t, [] => ∃ par, s.tables[t]? = some ⟨par, []⟩
  | t, y :: ys => ∃ par n t', s.tables[t]? = some ⟨par, [(y, n)]⟩ ∧ s.nsTable? n = some t' ∧
      t < t' ∧ NamespaceChain s t' ys

namespace NamespaceChain

variable {s : Resolver}

/-- A path from a table that binds one name goes through that name. -/
theorem tableAt_single {t n t' u : Nat} {par : Option Nat} {y z : String} {r : List String}
    (ht : s.tables[t]? = some ⟨par, [(y, n)]⟩) (hn : s.nsTable? n = some t')
    (h : s.tableAt t (z :: r) = some u) : z = y ∧ s.tableAt t' r = some u := by
  obtain ⟨m, hl, h⟩ := Option.bind_eq_some.1 h
  obtain ⟨tbl, htbl, hmem⟩ := Resolver.lookupLocal_mem hl
  rw [ht, Option.some.injEq] at htbl
  subst htbl
  obtain ⟨rfl, rfl⟩ : z = y ∧ m = n := by simpa using hmem
  rw [hn, Option.some_bind] at h
  exact ⟨rfl, h⟩

/-- Every table of a chain's tree is made no earlier than its head, is in order, binds each name
once, and is reached by one path only, no longer than the chain. -/
theorem tableAt_spec : ∀ {t : Nat} {names : List String}, NamespaceChain s t names →
    ∀ p u, s.tableAt t p = some u → t ≤ u ∧ p.length ≤ names.length ∧ TableOk s u ∧
      (∀ tbl, s.tables[u]? = some tbl → (tbl.elements.map Prod.fst).Nodup) ∧
      ∀ q, s.tableAt t q = some u → q = p
  | t, [], ⟨par, ht⟩, p, u, hp => by
    have hflat : ∀ e ∈ ([] : List (String × Nat)), s.nsTable? e.2 = none := fun _ h => nomatch h
    obtain ⟨rfl, rfl⟩ := Resolver.tableAt_flat ht hflat p u hp
    refine ⟨le_rfl, le_rfl, ⟨_, ht, nofun⟩, fun tbl h => ?_, fun q hq =>
      (Resolver.tableAt_flat ht hflat q _ hq).1⟩
    rw [ht, Option.some.injEq] at h
    subst h
    exact List.nodup_nil
  | t, y :: ys, ⟨par, n, t', ht, hn, hlt, hc⟩, p, u, hp => by
    have hn' : n < s.symbols.length := by
      obtain ⟨_, hs⟩ := Resolver.nsTable?_eq_some.1 hn
      exact (List.getElem?_eq_some_iff.1 hs).1
    -- no path below the name leads back to the head
    have hbelow : ∀ q, s.tableAt t q = some u → t < u → ∃ r, q = y :: r ∧ s.tableAt t' r = some u
    · intro q hq hu
      match q, hq with
      | [], hq => exact absurd (Option.some.inj hq) (Nat.ne_of_lt hu)
      | z :: r, hq =>
        obtain ⟨rfl, hr⟩ := tableAt_single ht hn hq
        exact ⟨r, rfl, hr⟩
    match p, hp with
    | [], hp =>
      obtain rfl := Option.some.inj hp
      refine ⟨le_rfl, Nat.zero_le _, ⟨_, ht, fun e he => ?_⟩, fun tbl h => ?_, fun q hq => ?_⟩
      · rw [List.mem_singleton] at he
        exact he ▸ hn'
      · rw [ht, Option.some.injEq] at h
        subst h
        exact List.nodup_singleton y
      · match q, hq with
        | [], _ => rfl
        | z :: r, hq =>
          have := (tableAt_spec hc r t (tableAt_single ht hn hq).2).1
          omega
    | z :: r, hp =>
      obtain ⟨rfl, hr⟩ := tableAt_single ht hn hp
      obtain ⟨hu, hl, hok, hnd, huniq⟩ := tableAt_spec hc r u hr
      refine ⟨by omega, Nat.succ_le_succ hl, hok, hnd, fun q hq => ?_⟩
      obtain ⟨r', rfl, hr'⟩ := hbelow q hq (by omega)
      rw [huniq r' hr']

theorem writeReady {t : Nat} {names : List String} (h : NamespaceChain s t names) :
    WriteReady s t where
  tree p q u hp hq := by
    obtain ⟨-, -, -, -, huniq⟩ := tableAt_spec h p u hp
    exact (huniq q hq).symm
  ok p u hp := (tableAt_spec h p u hp).2.2.1

theorem readReady {t fuel : Nat} {names : List String} (h : NamespaceChain s t names)
    (hfuel : names.length < fuel) : ReadReady s fuel t where
  ok p u hp := (tableAt_spec h p u hp).2.2.1
  nodup p u tbl hp := (tableAt_spec h p u hp).2.2.2.1 tbl
  depth p u hp := Nat.lt_of_le_of_lt (tableAt_spec h p u hp).2.1 hfuel

/-- A chain depends only on the tables and the symbols. -/
theorem of_eq {r : Resolver} : ∀ {t : Nat} {names : List String}, NamespaceChain s t names →
    r.tables = s.tables → r.symbols = s.symbols → NamespaceChain r t names
  | _, [], ⟨par, ht⟩, htab, _ => ⟨par, htab ▸ ht⟩
  | _, _ :: _, ⟨par, n, t', ht, hn, hlt, hc⟩, htab, hsym => ⟨par, n, t', htab ▸ ht,
      by rwa [Resolver.nsTable?, Resolver.symbol?, hsym], hlt, of_eq hc htab hsym⟩

end NamespaceChain

/-! ## The namespace loop -/

/-- The state one pass of the namespace loop leaves, from empty current tables with parents `p`
and `q`: a new empty table under each, two namespace symbols named `nsname` for the first new
table, bound to `name` in the current tables, and the new tables made current. -/
def Resolver.namespacePass (s : Resolver) (nsname name : String) (p q : Option Nat) : Resolver :=
  { s with
    symbols := s.symbols ++ [(⟨nsname, .namespace_ s.tables.length⟩ : Symbol),
      ⟨nsname, .namespace_ s.tables.length⟩]
    tables := ((s.tables ++ [(⟨some s.currentSymbolTable, []⟩ : SymbolTable),
        ⟨some s.currentExportTable, []⟩]).set
      s.currentSymbolTable ⟨p, [(name, s.symbols.length)]⟩).set s.currentExportTable
      ⟨q, [(name, s.symbols.length + 1)]⟩
    currentSymbolTable := s.tables.length
    currentExportTable := s.tables.length + 1 }

namespace Resolver

variable {s : Resolver} {nsname name : String} {p q : Option Nat}

theorem namespacePass_current (hlc : s.currentSymbolTable < s.tables.length)
    (hlx : s.currentExportTable < s.tables.length) :
    (s.namespacePass nsname name p q).tables[s.tables.length]? =
      some ⟨some s.currentSymbolTable, []⟩ := by
  rw [namespacePass, List.getElem?_set_ne (Nat.ne_of_lt hlx),
    List.getElem?_set_ne (Nat.ne_of_lt hlc), List.getElem?_append_right le_rfl, Nat.sub_self]
  rfl

theorem namespacePass_export (hlc : s.currentSymbolTable < s.tables.length)
    (hlx : s.currentExportTable < s.tables.length) :
    (s.namespacePass nsname name p q).tables[s.tables.length + 1]? =
      some ⟨some s.currentExportTable, []⟩ := by
  rw [namespacePass, List.getElem?_set_ne (Nat.ne_of_lt (Nat.lt_succ_of_lt hlx)),
    List.getElem?_set_ne (Nat.ne_of_lt (Nat.lt_succ_of_lt hlc)),
    List.getElem?_append_right (Nat.le_succ _)]
  simp

theorem namespacePass_symbolTable (hlc : s.currentSymbolTable < s.tables.length)
    (hne : s.currentExportTable ≠ s.currentSymbolTable) :
    (s.namespacePass nsname name p q).tables[s.currentSymbolTable]? =
      some ⟨p, [(name, s.symbols.length)]⟩ := by
  rw [namespacePass, List.getElem?_set_ne hne, List.getElem?_set_self (by simp; omega)]

theorem namespacePass_exportTable (hlx : s.currentExportTable < s.tables.length) :
    (s.namespacePass nsname name p q).tables[s.currentExportTable]? =
      some ⟨q, [(name, s.symbols.length + 1)]⟩ := by
  rw [namespacePass, List.getElem?_set_self (by simp; omega)]

theorem namespacePass_other {u : Nat} (hu : u < s.tables.length) (hc : u ≠ s.currentSymbolTable)
    (hx : u ≠ s.currentExportTable) :
    (s.namespacePass nsname name p q).tables[u]? = s.tables[u]? := by
  rw [namespacePass, List.getElem?_set_ne (Ne.symm hx), List.getElem?_set_ne (Ne.symm hc),
    List.getElem?_append_left hu]

/-- The two symbols a pass makes name the first new table. -/
theorem namespacePass_nsTable? {k : Nat} (hk : k < 2) :
    (s.namespacePass nsname name p q).nsTable? (s.symbols.length + k) = some s.tables.length := by
  unfold nsTable? symbol? namespacePass
  dsimp only
  rw [List.getElem?_append_right (Nat.le_add_right _ _), Nat.add_sub_cancel_left]
  interval_cases k <;> rfl

end Resolver

theorem symbolTableInsert_empty {s : Resolver} {t n : Nat} {p : Option Nat} {name : String}
    (ht : s.tables[t]? = some ⟨p, []⟩) :
    symbolTableInsert t name n s = .ok ((), { s with tables := s.tables.set t ⟨p, [(name, n)]⟩ }) :=
  symbolTableInsert_fresh ht (Resolver.lookupLocal_empty ht)

/-- One pass of the namespace loop from empty current tables. -/
theorem enterNamespace_cons {nsname nsaddr : Option String} {name : String} {rest : List String}
    {s : Resolver} {p q : Option Nat}
    (hc : s.tables[s.currentSymbolTable]? = some ⟨p, []⟩)
    (hx : s.tables[s.currentExportTable]? = some ⟨q, []⟩)
    (hne : s.currentExportTable ≠ s.currentSymbolTable) :
    enterNamespace nsname nsaddr (name :: rest) s =
      enterNamespace (some (qualifiedName nsname name)) (some (qualifiedAddr nsaddr name)) rest
        (s.namespacePass (qualifiedName nsname name) name p q) := by
  have hlc : s.currentSymbolTable < s.tables.length := (List.getElem?_eq_some_iff.1 hc).1
  have hlx : s.currentExportTable < s.tables.length := (List.getElem?_eq_some_iff.1 hx).1
  simp only [enterNamespace, bind, StateT.bind, get, getThe, MonadStateOf.get, StateT.get,
    symbolTableNew, newSymbol, modifyGet, MonadStateOf.modifyGet, StateT.modifyGet, pure,
    Except.pure, Except.bind]
  rw [symbolTableInsert_empty (p := p) (by simp [List.getElem?_append_left hlc, hc])]
  simp only
  rw [symbolTableInsert_empty (p := q)
    (by simp [List.getElem?_set_ne (Ne.symm hne), List.getElem?_append_left hlx, hx])]
  simp [modify, modifyGet, MonadStateOf.modifyGet, StateT.modifyGet, pure, Except.pure,
    List.append_assoc, Resolver.namespacePass]

/-- **The namespace loop.** From empty current tables the loop succeeds; it links a chain of
namespaces from each of them, adds symbols, and changes no other table it found. -/
theorem enterNamespace_chain : ∀ (names : List String) (nsname nsaddr : Option String)
    {s : Resolver} {p q : Option Nat},
    s.tables[s.currentSymbolTable]? = some ⟨p, []⟩ →
    s.tables[s.currentExportTable]? = some ⟨q, []⟩ →
    s.currentExportTable ≠ s.currentSymbolTable →
    ∃ pfx s', enterNamespace nsname nsaddr names s = .ok (pfx, s') ∧
      NamespaceChain s' s.currentSymbolTable names ∧ NamespaceChain s' s.currentExportTable names ∧
      s.symbols <+: s'.symbols ∧ s'.moduleSymbols = s.moduleSymbols ∧
      ∀ u, u < s.tables.length → u ≠ s.currentSymbolTable → u ≠ s.currentExportTable →
        s'.tables[u]? = s.tables[u]?
  | [], _, nsaddr, s, p, q, hc, hx, _ =>
    ⟨nsaddr, s, rfl, ⟨p, hc⟩, ⟨q, hx⟩, List.prefix_refl _, rfl, fun _ _ _ _ => rfl⟩
  | name :: rest, nsname, nsaddr, s, p, q, hc, hx, hne => by
    have hlc : s.currentSymbolTable < s.tables.length := (List.getElem?_eq_some_iff.1 hc).1
    have hlx : s.currentExportTable < s.tables.length := (List.getElem?_eq_some_iff.1 hx).1
    obtain ⟨pfx, s', h, hcT, -, hsym, hmod, hold⟩ := enterNamespace_chain rest
      (some (qualifiedName nsname name)) (some (qualifiedAddr nsaddr name))
      (s := s.namespacePass (qualifiedName nsname name) name p q)
      (Resolver.namespacePass_current hlc hlx) (Resolver.namespacePass_export hlc hlx)
      (by simp [Resolver.namespacePass])
    -- the pass's tables below the new ones are as the pass left them
    have hkeep : ∀ u, u < s.tables.length →
        s'.tables[u]? = (s.namespacePass (qualifiedName nsname name) name p q).tables[u]? :=
      fun u hu => hold u (by simp [Resolver.namespacePass]; omega) (Nat.ne_of_lt hu)
        (Nat.ne_of_lt (Nat.lt_succ_of_lt hu))
    have hns : ∀ k, k < 2 → s'.nsTable? (s.symbols.length + k) = some s.tables.length :=
      fun k hk => (Resolver.nsTable?_of_prefix hsym (by simp [Resolver.namespacePass]; omega)).trans
        (Resolver.namespacePass_nsTable? hk)
    refine ⟨pfx, s', (enterNamespace_cons hc hx hne).trans h,
      ⟨p, _, _, ?_, hns 0 (by omega), hlc, hcT⟩, ⟨q, _, _, ?_, hns 1 (by omega), hlx, hcT⟩,
      (List.prefix_append _ _).trans hsym, hmod, fun u hu hc' hx' => ?_⟩
    · rw [hkeep _ hlc, Resolver.namespacePass_symbolTable hlc hne]
      rfl
    · rw [hkeep _ hlx, Resolver.namespacePass_exportTable hlx]
    · rw [hkeep _ hu, Resolver.namespacePass_other hu hc' hx']

/-! ## The start of `resolve` -/

/-- `module_new` appends the module's empty symbol table, under the global table, and its empty
export table. -/
theorem moduleNew_eq (s : Resolver) :
    moduleNew s = .ok ((s.tables.length, s.tables.length + 1),
      { s with tables := s.tables ++ [⟨some globalSymbolTable, []⟩, ⟨none, []⟩] }) := by
  simp [moduleNew, symbolTableNew, bind, StateT.bind, modifyGet, MonadStateOf.modifyGet,
    StateT.modifyGet, pure, StateT.pure, Except.pure, Except.bind]

/-- **The module's tables when `resolve` reaches its imports.** The start of `resolve` succeeds;
the module table is `resolver->module->symbols`, and it and the export table, the two tables
`module_new` made, each head the chain of the module's namespace; the symbols and the tables
found before are kept. -/
theorem resolveModuleNamespace_chain (m : CstModule) (s : Resolver) :
    ∃ s', resolveModuleNamespace m s = .ok ((s.tables.length, s.tables.length + 1), s') ∧
      s'.moduleSymbols = s.tables.length ∧ NamespaceChain s' s.tables.length m.namespace_ ∧
      NamespaceChain s' (s.tables.length + 1) m.namespace_ ∧ s.symbols <+: s'.symbols ∧
      ∀ u, u < s.tables.length → s'.tables[u]? = s.tables[u]? := by
  -- `resolver_new` makes the two new empty tables current
  obtain ⟨s₂, h₂⟩ : ∃ s₂, resolverNew s.tables.length (s.tables.length + 1)
      { s with tables := s.tables ++ [⟨some globalSymbolTable, []⟩, ⟨none, []⟩] } = .ok ((), s₂) :=
    ⟨_, rfl⟩
  have hs₂ := ResolveM.modify_ok.1 h₂
  obtain ⟨pfx, s₃, h₃, hc, hx, hsym, hmod, hold⟩ := enterNamespace_chain m.namespace_ none none
    (s := s₂) (p := some globalSymbolTable) (q := none)
    (by rw [hs₂]; dsimp only; rw [List.getElem?_append_right le_rfl, Nat.sub_self]; rfl)
    (by rw [hs₂]; dsimp only; rw [List.getElem?_append_right (Nat.le_succ _)]; simp)
    (by rw [hs₂]; simp)
  subst hs₂
  have hkeep : ∀ u, u < s.tables.length → s₃.tables[u]? = s.tables[u]? := fun u hu => by
    rw [hold u (by simp; omega) (Nat.ne_of_lt hu) (Nat.ne_of_lt (Nat.lt_succ_of_lt hu))]
    exact List.getElem?_append_left hu
  unfold resolveModuleNamespace
  rw [ResolveM.bind_of_ok (moduleNew_eq s)]
  dsimp only
  rw [ResolveM.bind_of_ok h₂]
  split
  · rw [ResolveM.bind_of_ok h₃]
    let s' : Resolver := { s₃ with currentStaticAddrPrefix := pfx }
    exact ⟨s', rfl, hmod, hc.of_eq (r := s') rfl rfl, hx.of_eq (r := s') rfl rfl, hsym, hkeep⟩
  · next hn =>
    have hnil : m.namespace_ = [] := by simpa using hn
    rw [hnil] at h₃
    obtain ⟨-, rfl⟩ := ResolveM.pure_ok.1 h₃
    exact ⟨_, rfl, hmod, hnil ▸ hc, hnil ▸ hx, hsym, hkeep⟩

/-- **The tables a merge at `resolve`'s imports meets.** When `resolve` reaches its imports, the
module table is ready to be written, and every export table that was ready to be read before
stays so and is apart from it; the module's own export table is ready to be read with more fuel
than its namespace has names. -/
theorem resolveModuleNamespace_mergeReady {m : CstModule} {s s' : Resolver} {S X : Nat}
    (h : resolveModuleNamespace m s = .ok ((S, X), s')) :
    WriteReady s' S ∧ ReadReady s' (m.namespace_.length + 1) X ∧
      ∀ fuel E, ReadReady s fuel E → ReadReady s' fuel E ∧ Apart s' S E := by
  obtain ⟨_, h', -, hc, hx, hsym, hold⟩ := resolveModuleNamespace_chain m s
  rw [h'] at h
  cases h
  refine ⟨hc.writeReady, hx.readReady (Nat.lt_succ_self _), fun fuel E hr => ?_⟩
  obtain ⟨hr', ht, -⟩ := hr.transfer hsym fun q u hq => hold u (hr.ok q u hq).lt
  refine ⟨hr', fun p q u hp hq => ?_⟩
  rw [ht] at hq
  -- the module's tables are new, the export table's are old
  have hnew := (NamespaceChain.tableAt_spec hc p u hp).1
  have hexp := (hr.ok q u hq).lt
  omega

/-! ## Laws of merging -/

theorem Bindings.not_compatible_iff {V W : List String → Option Binding} :
    ¬Bindings.Compatible V W ↔ ∃ p b c, V p = some b ∧ W p = some c ∧ b ≠ c := by
  simp only [Bindings.Compatible, not_forall, exists_prop]

theorem MergeResult.compatible_of_ok {run : ResolveM Unit} {s s₁ : Resolver} {self : Nat}
    {V A : List String → Option Binding} (h : MergeResult run s self V A)
    (hrun : run s = .ok ((), s₁)) : Bindings.Compatible V A := by
  by_contra hc
  obtain ⟨_, herr⟩ := h.2 hc
  rw [herr] at hrun
  cases hrun

theorem MergeResult.error_iff {run : ResolveM Unit} {s : Resolver} {self : Nat}
    {V A : List String → Option Binding} (h : MergeResult run s self V A) :
    (∃ name : String, run s = .error (.fatal s!"redeclaration of `{name}`")) ↔
      ¬Bindings.Compatible V A := by
  refine ⟨fun ⟨_, herr⟩ hc => ?_, h.2⟩
  obtain ⟨_, hrun, -⟩ := h.1 hc
  rw [herr] at hrun
  cases hrun

section
variable {fuel S E₁ E₂ : Nat} {s : Resolver}

/-- Merging `E₁` and then `E₂` into `S` succeeds exactly when no two of the three tables bind a
path differently, and then `S` binds the union of all three. -/
theorem mergeSymbolTable_then (hw : WriteReady s S) (h₁ : ReadReady s fuel E₁)
    (h₂ : ReadReady s fuel E₂) (ha₁ : Apart s S E₁) (ha₂ : Apart s S E₂) :
    (Bindings.Compatible (s.bindingAt S) (s.bindingAt E₁) ∧
        Bindings.Compatible (s.bindingAt S) (s.bindingAt E₂) ∧
        Bindings.Compatible (s.bindingAt E₁) (s.bindingAt E₂) →
      ∃ s', (mergeSymbolTable fuel S E₁ >>= fun _ => mergeSymbolTable fuel S E₂) s = .ok ((), s') ∧
        s'.bindingAt S =
          Bindings.union (Bindings.union (s.bindingAt S) (s.bindingAt E₁)) (s.bindingAt E₂)) ∧
    (¬(Bindings.Compatible (s.bindingAt S) (s.bindingAt E₁) ∧
        Bindings.Compatible (s.bindingAt S) (s.bindingAt E₂) ∧
        Bindings.Compatible (s.bindingAt E₁) (s.bindingAt E₂)) →
      ∃ name : String, (mergeSymbolTable fuel S E₁ >>= fun _ => mergeSymbolTable fuel S E₂) s =
        .error (.fatal s!"redeclaration of `{name}`")) := by
  obtain ⟨hok₁, herr₁⟩ := mergeSymbolTable_spec fuel hw h₁ ha₁
  -- after a first merge that succeeds, the second merges `E₂` into the union
  have hsecond : ∀ (c₁ : Bindings.Compatible (s.bindingAt S) (s.bindingAt E₁)), ∃ s₁,
      mergeSymbolTable fuel S E₁ s = .ok ((), s₁) ∧ MergeResult (mergeSymbolTable fuel S E₂) s₁ S
        (Bindings.union (s.bindingAt S) (s.bindingAt E₁)) (s.bindingAt E₂) := fun c₁ => by
    obtain ⟨s₁, hrun₁, hb₁, hg₁, hw₁⟩ := hok₁ c₁
    obtain ⟨h₂', ha₂', -, hb₂⟩ := hg₁.keeps h₂ ha₂
    have h := mergeSymbolTable_spec fuel hw₁ h₂' ha₂'
    rw [hb₁, hb₂] at h
    exact ⟨s₁, hrun₁, h⟩
  refine ⟨fun ⟨c₁, c₂, c₁₂⟩ => ?_, fun hn => ?_⟩
  · obtain ⟨s₁, hrun₁, h⟩ := hsecond c₁
    obtain ⟨s₂, hrun₂, hb₂, -, -⟩ := h.1 ((Bindings.compatible_union_iff c₁).2 ⟨c₂, c₁₂⟩)
    exact ⟨s₂, (ResolveM.bind_of_ok hrun₁).trans hrun₂, hb₂⟩
  · by_cases c₁ : Bindings.Compatible (s.bindingAt S) (s.bindingAt E₁)
    · obtain ⟨s₁, hrun₁, h⟩ := hsecond c₁
      obtain ⟨name, herr⟩ := h.2 fun c => hn ⟨c₁, (Bindings.compatible_union_iff c₁).1 c⟩
      exact ⟨name, (ResolveM.bind_of_ok hrun₁).trans herr⟩
    · obtain ⟨name, herr⟩ := herr₁ c₁
      exact ⟨name, ResolveM.bind_of_error herr⟩

theorem mergeSymbolTable_laws (hw : WriteReady s S) (h₁ : ReadReady s fuel E₁)
    (h₂ : ReadReady s fuel E₂) (ha₁ : Apart s S E₁) (ha₂ : Apart s S E₂) :
    (∀ s₁, mergeSymbolTable fuel S E₁ s = .ok ((), s₁) →
      mergeSymbolTable fuel S E₁ s₁ = .ok ((), s₁)) ∧
    ((∃ s₁₂ s₂₁,
        (mergeSymbolTable fuel S E₁ >>= fun _ => mergeSymbolTable fuel S E₂) s = .ok ((), s₁₂) ∧
        (mergeSymbolTable fuel S E₂ >>= fun _ => mergeSymbolTable fuel S E₁) s = .ok ((), s₂₁) ∧
        s₁₂.bindingAt S = s₂₁.bindingAt S ∧
        s₁₂.bindingAt S =
          Bindings.union (Bindings.union (s.bindingAt S) (s.bindingAt E₁)) (s.bindingAt E₂)) ∨
      ∃ name₁₂ name₂₁ : String,
        (mergeSymbolTable fuel S E₁ >>= fun _ => mergeSymbolTable fuel S E₂) s =
          .error (.fatal s!"redeclaration of `{name₁₂}`") ∧
        (mergeSymbolTable fuel S E₂ >>= fun _ => mergeSymbolTable fuel S E₁) s =
          .error (.fatal s!"redeclaration of `{name₂₁}`")) ∧
    ((∃ name : String, mergeSymbolTable fuel S E₁ s = .error (.fatal s!"redeclaration of `{name}`")) ↔
      ∃ p b c, s.bindingAt S p = some b ∧ s.bindingAt E₁ p = some c ∧ b ≠ c) := by
  have hspec := mergeSymbolTable_spec fuel hw h₁ ha₁
  refine ⟨fun s₁ hrun => ?_, ?_, hspec.error_iff.trans Bindings.not_compatible_iff⟩
  · -- the second merge finds every binding of `E₁` in `S`
    have c₁ := hspec.compatible_of_ok hrun
    obtain ⟨s₁', hrun', hb, hg, -⟩ := hspec.1 c₁
    obtain rfl : s₁' = s₁ := (Prod.mk.inj (Except.ok.inj (hrun'.symm.trans hrun))).2
    obtain ⟨h₁', -, -, hb₁⟩ := hg.keeps h₁ ha₁
    exact mergeSymbolTable_noop h₁' fun p b h => by
      rw [hb]
      exact Bindings.le_union_right c₁ (hb₁ ▸ h)
  · have h₁₂ := mergeSymbolTable_then hw h₁ h₂ ha₁ ha₂
    have h₂₁ := mergeSymbolTable_then hw h₂ h₁ ha₂ ha₁
    by_cases hall : Bindings.Compatible (s.bindingAt S) (s.bindingAt E₁) ∧
        Bindings.Compatible (s.bindingAt S) (s.bindingAt E₂) ∧
        Bindings.Compatible (s.bindingAt E₁) (s.bindingAt E₂)
    · obtain ⟨c₁, c₂, c₁₂⟩ := hall
      obtain ⟨s₁₂, hrun₁₂, hb₁₂⟩ := h₁₂.1 ⟨c₁, c₂, c₁₂⟩
      obtain ⟨s₂₁, hrun₂₁, hb₂₁⟩ := h₂₁.1 ⟨c₂, c₁, c₁₂.symm⟩
      refine .inl ⟨s₁₂, s₂₁, hrun₁₂, hrun₂₁, ?_, hb₁₂⟩
      calc s₁₂.bindingAt S
          = Bindings.union (s.bindingAt S) (Bindings.union (s.bindingAt E₁) (s.bindingAt E₂)) := by
            rw [hb₁₂, Bindings.union_assoc]
        _ = Bindings.union (s.bindingAt S) (Bindings.union (s.bindingAt E₂) (s.bindingAt E₁)) := by
            rw [Bindings.union_comm c₁₂]
        _ = s₂₁.bindingAt S := by rw [hb₂₁, Bindings.union_assoc]
    · obtain ⟨name₁₂, herr₁₂⟩ := h₁₂.2 hall
      obtain ⟨name₂₁, herr₂₁⟩ := h₂₁.2 fun ⟨c₂, c₁, c₂₁⟩ => hall ⟨c₁, c₂, c₂₁.symm⟩
      exact .inr ⟨name₁₂, name₂₁, herr₁₂, herr₂₁⟩

end


/-- A module `b` that imports a module `a`: once a merge of the export table of `a` into the
module table of `b` succeeds, merging it again changes nothing. The laws' conditions come from
the runs of `resolve`. -/
theorem mergeSymbolTable_laws_import : ∃ SA XA s₁ SB XB s₂,
    resolveModuleNamespace ⟨["a"], [], []⟩ contextInit = .ok ((SA, XA), s₁) ∧
    resolveModuleNamespace ⟨["b"], [], []⟩ s₁ = .ok ((SB, XB), s₂) ∧
    ∀ s₃, mergeSymbolTable 2 SB XA s₂ = .ok ((), s₃) →
      mergeSymbolTable 2 SB XA s₃ = .ok ((), s₃) := by
  obtain ⟨s₁, ha, -⟩ := resolveModuleNamespace_chain ⟨["a"], [], []⟩ contextInit
  obtain ⟨s₂, hb, -⟩ := resolveModuleNamespace_chain ⟨["b"], [], []⟩ s₁
  obtain ⟨hw, -, hB⟩ := resolveModuleNamespace_mergeReady hb
  obtain ⟨hr, hap⟩ := hB 2 _ (resolveModuleNamespace_mergeReady ha).2.1
  exact ⟨_, _, s₁, _, _, s₂, ha, hb, (mergeSymbolTable_laws hw hr hr hap hap).1⟩

end Sunder
