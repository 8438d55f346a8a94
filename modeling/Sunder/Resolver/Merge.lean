import Sunder.Resolver.State

/-!
# Merging an export table

`mergeSymbolTable` is `merge_symbol_table` of `resolve.c`, which `resolve_import_file` runs to
merge the export table of an imported module into the importing module's symbol table. Each
element of the other table is merged in order: a namespace into the namespace the table binds to
its name (a new one when there is none), any other symbol by `symbol_table_insert`, which is a
redeclaration when the name is bound to another symbol.

What a table binds is read through namespace paths: `Resolver.bindingAt s t p` is what the path
of names `p` names from table `t`, a namespace or a symbol of another kind. On these bindings a
merge is a union (`Bindings.union`), defined when the two tables bind no path differently
(`Bindings.Compatible`).

* `mergeSymbolTable_spec`: from a table whose namespaces form a tree, apart from the tree of the
  other table, with fuel for the other table's depth, the merge succeeds exactly when the two
  tables are compatible, and then binds the union of both; otherwise it stops with a
  redeclaration.
* `mergeSymbolTable_noop`: a merge of a table whose bindings are all bound already changes
  nothing.

The laws of merging, and that the tables `resolve` merges meet these conditions, are in
`Sunder.Resolver.Import`.
-/

namespace Sunder

/-! ## The merge -/

/-- The elements of table `t`, in insertion order. -/
def tableElements (t : Nat) : ResolveM (List (String × Nat)) := do
  match (← get).tables[t]? with
  | some tbl => pure tbl.elements
  | none => throw (.internal "symbol_table")

/-- The namespace of `self` that a namespace element named `name` is merged into: the symbol
`self` binds to the name, or else a new namespace symbol with a new table under `self`. -/
def mergeTarget (self : Nat) (name : String) (symbol : Symbol) : ResolveM Nat := do
  match (← get).lookupLocal self name with
  | some existing => pure existing
  | none =>
    let table ← symbolTableNew (some self)
    let ns ← newSymbol ⟨symbol.name, .namespace_ table⟩
    symbolTableInsert self name ns
    pure ns

/-- One element `(name, sym)` of the loop of `merge_symbol_table`, with `merge` for the recursive
call. A namespace merged with a symbol of another kind is inserted, which raises the
redeclaration. -/
def mergeElement (merge : Nat → Nat → ResolveM Unit) (self : Nat) (name : String) (sym : Nat) :
    ResolveM Unit := do
  let symbol ← getSymbol sym
  match symbol.data with
  | .namespace_ othr =>
    let existing ← mergeTarget self name symbol
    match (← getSymbol existing).data with
    | .namespace_ table => merge table othr
    | _ =>
      symbolTableInsert self name sym
      throw (.internal "merge_symbol_table: namespace")
  | _ =>
    if (← get).lookupLocal self name ≠ some sym then symbolTableInsert self name sym

/-- The loop of `merge_symbol_table` over the elements of the other table. -/
def mergeElements (merge : Nat → Nat → ResolveM Unit) (self : Nat) :
    List (String × Nat) → ResolveM Unit
  | [] => pure ()
  | (name, sym) :: rest => do
    mergeElement merge self name sym
    mergeElements merge self rest

/-- `merge_symbol_table(self, othr)`, for at most `fuel` levels of nested namespaces. The elements
of `othr` are read when the loop starts (the source rereads their count at each step, which
differs only for a merge into the table it reads). -/
def mergeSymbolTable : Nat → Nat → Nat → ResolveM Unit
  | 0, _, _ => throw .fuel
  | fuel + 1, self, othr => do
    mergeElements (mergeSymbolTable fuel) self (← tableElements othr)

/-! ## What a table binds -/

/-- What a namespace path names: a namespace, or a symbol of another kind. -/
inductive Binding where
  | symbol (n : Nat)
  | namespace_
  deriving DecidableEq, Repr

namespace Resolver

/-- The table of symbol `n` when it is a namespace. -/
def nsTable? (s : Resolver) (n : Nat) : Option Nat :=
  match s.symbol? n with
  | some ⟨_, .namespace_ t⟩ => some t
  | _ => none

/-- The table a namespace path leads to from table `t`. -/
def tableAt (s : Resolver) (t : Nat) : List String → Option Nat
  | [] => some t
  | name :: path => (s.lookupLocal t name).bind fun n => (s.nsTable? n).bind (s.tableAt · path)

/-- What a path names from table `t`. -/
def bindingAt (s : Resolver) (t : Nat) : List String → Option Binding
  | [] => some .namespace_
  | name :: path => (s.lookupLocal t name).bind fun n =>
    match s.nsTable? n with
    | some t' => s.bindingAt t' path
    | none => if path = [] then some (.symbol n) else none

/-- What a path names below a symbol `n` that a table binds. -/
def bindingBelow (s : Resolver) (n : Nat) (path : List String) : Option Binding :=
  match s.nsTable? n with
  | some t' => s.bindingAt t' path
  | none => if path = [] then some (.symbol n) else none

/-- What a path names from a list of elements, as `bindingAt` reads a table's elements. -/
def bindingIn (s : Resolver) (es : List (String × Nat)) : List String → Option Binding
  | [] => some .namespace_
  | name :: path => ((es.find? (·.1 == name)).map (·.2)).bind (s.bindingBelow · path)

theorem bindingAt_cons {s : Resolver} {t : Nat} {name : String} {path : List String} :
    s.bindingAt t (name :: path) = (s.lookupLocal t name).bind (s.bindingBelow · path) := rfl

theorem bindingAt_eq_bindingIn {s : Resolver} {t : Nat} {tbl : SymbolTable}
    (h : s.tables[t]? = some tbl) : s.bindingAt t = s.bindingIn tbl.elements := by
  funext p
  cases p with
  | nil => rfl
  | cons name path => simp [bindingAt_cons, bindingIn, lookupLocal, h]

theorem tableAt_cons_of_lookupLocal {s : Resolver} {t n t' : Nat} {name : String}
    {p : List String} (hn : s.lookupLocal t name = some n) (ht : s.nsTable? n = some t') :
    s.tableAt t (name :: p) = s.tableAt t' p := by
  simp [tableAt, hn, ht]

theorem bindingAt_cons_of_lookupLocal {s : Resolver} {t n t' : Nat} {name : String}
    {p : List String} (hn : s.lookupLocal t name = some n) (ht : s.nsTable? n = some t') :
    s.bindingAt t (name :: p) = s.bindingAt t' p := by
  simp [bindingAt_cons, bindingBelow, hn, ht]

end Resolver

/-! ## Unions of bindings -/

namespace Bindings

variable {V W X : List String → Option Binding}

/-- Two tables bind no path differently. -/
def Compatible (V W : List String → Option Binding) : Prop :=
  ∀ p b c, V p = some b → W p = some c → b = c

/-- The bindings of both tables. -/
def union (V W : List String → Option Binding) : List String → Option Binding :=
  fun p => (V p).or (W p)

theorem Compatible.refl : Compatible V V := fun _ _ _ hb hc => Option.some.inj (hb.symm.trans hc)

theorem Compatible.symm (h : Compatible V W) : Compatible W V :=
  fun p b c hb hc => (h p c b hc hb).symm

theorem union_comm (h : Compatible V W) : union V W = union W V := by
  funext p
  simp only [union]
  rcases hv : V p with _ | b <;> rcases hw : W p with _ | c
  · rfl
  · rfl
  · rfl
  · simp [h p b c hv hw]

theorem union_assoc : union (union V W) X = union V (union W X) :=
  funext fun _ => Option.or_assoc

/-- A union with bindings that are all bound already adds nothing. -/
theorem union_eq_left (h : ∀ p b, W p = some b → V p = some b) : union V W = V := by
  funext p
  simp only [union]
  rcases hw : W p with _ | c
  · exact Option.or_none
  · rw [h p c hw, Option.or_some]

theorem le_union_left {p : List String} {b : Binding} (h : V p = some b) : union V W p = some b := by
  simp [union, h]

theorem le_union_right (h : Compatible V W) {p : List String} {b : Binding} (hw : W p = some b) :
    union V W p = some b := by
  rw [union_comm h]
  exact le_union_left hw

theorem compatible_comm : Compatible V W ↔ Compatible W V :=
  ⟨Compatible.symm, Compatible.symm⟩

theorem compatible_union_iff (h : Compatible V W) :
    Compatible (union V W) X ↔ Compatible V X ∧ Compatible W X := by
  constructor
  · intro hu
    exact ⟨fun p b c hb hc => hu p b c (le_union_left hb) hc,
      fun p b c hb hc => hu p b c (le_union_right h hb) hc⟩
  · rintro ⟨h₁, h₂⟩ p b c hb hc
    simp only [union] at hb
    rcases hv : V p with _ | a
    · rw [hv, Option.none_or] at hb
      exact h₂ p b c hb hc
    · rw [hv, Option.or_some] at hb
      cases hb
      exact h₁ p _ c hv hc

theorem Compatible.of_union_right (hwx : Compatible W X) (h : Compatible V (union W X)) :
    Compatible V W :=
  ((compatible_union_iff hwx).1 h.symm).1.symm

/-- Adding `W` and then `X` to `V` is defined exactly when adding their union is. -/
theorem compatible_union_right_iff (h : Compatible V W) (hwx : Compatible W X) :
    Compatible V (union W X) ↔ Compatible (union V W) X := by
  rw [compatible_comm, compatible_union_iff hwx, compatible_union_iff h, compatible_comm (V := X)]
  exact ⟨fun ⟨_, h'⟩ => ⟨h', hwx⟩, fun ⟨h', _⟩ => ⟨h.symm, h'⟩⟩

end Bindings

/-! ## Tables an insertion leaves -/

/-- `s` with `(name, n)` appended to the elements `tbl` of table `t`: the state
`symbol_table_insert` leaves for a name the table does not bind. -/
def Resolver.insertElement (s : Resolver) (t : Nat) (tbl : SymbolTable) (name : String)
    (n : Nat) : Resolver :=
  { s with tables := s.tables.set t { tbl with elements := tbl.elements ++ [(name, n)] } }

namespace Resolver

section
variable {s : Resolver} {t u : Nat} {tbl : SymbolTable} {x : String} {n : Nat}

@[simp] theorem insertElement_symbols : (s.insertElement t tbl x n).symbols = s.symbols := rfl

@[simp] theorem insertElement_nsTable? {m : Nat} :
    (s.insertElement t tbl x n).nsTable? m = s.nsTable? m := rfl

theorem insertElement_length : (s.insertElement t tbl x n).tables.length = s.tables.length :=
  List.length_set ..

theorem insertElement_tables_ne (h : u ≠ t) :
    (s.insertElement t tbl x n).tables[u]? = s.tables[u]? :=
  List.getElem?_set_ne (Ne.symm h)

theorem insertElement_tables_self (ht : s.tables[t]? = some tbl) :
    (s.insertElement t tbl x n).tables[t]? = some { tbl with elements := tbl.elements ++ [(x, n)] } :=
  List.getElem?_set_self (List.getElem?_eq_some_iff.1 ht).1

theorem lookupLocal_empty {p : Option Nat} (h : s.tables[t]? = some ⟨p, []⟩) :
    s.lookupLocal t x = none := by
  simp [lookupLocal, h]

end

end Resolver

theorem Resolver.lookupLocal_mem {s : Resolver} {t n : Nat} {name : String}
    (h : s.lookupLocal t name = some n) : ∃ tbl, s.tables[t]? = some tbl ∧ (name, n) ∈ tbl.elements := by
  simp only [Resolver.lookupLocal] at h
  rcases ht : s.tables[t]? with _ | tbl
  · simp [ht] at h
  · simp only [ht, Option.some_bind, Option.map_eq_some'] at h
    obtain ⟨⟨x, m⟩, hf, rfl⟩ := h
    obtain rfl : x = name := by simpa using List.find?_some hf
    exact ⟨tbl, rfl, List.mem_of_find?_eq_some hf⟩

theorem Resolver.lookupLocal_insertElement {s : Resolver} {t u n : Nat} {name y : String}
    {tbl : SymbolTable} (ht : s.tables[t]? = some tbl) (hx : s.lookupLocal t name = none) :
    (s.insertElement t tbl name n).lookupLocal u y =
      if u = t ∧ y = name then some n else s.lookupLocal u y := by
  have hlen : t < s.tables.length := (List.getElem?_eq_some_iff.1 ht).1
  simp only [Resolver.lookupLocal, Resolver.insertElement, List.getElem?_set]
  by_cases hu : u = t
  · subst hu
    simp only [Resolver.lookupLocal, ht, Option.some_bind, Option.map_eq_none'] at hx
    by_cases hy : y = name
    · subst hy
      simp [hlen, ht, List.find?_append, hx]
    · simp [hlen, ht, List.find?_append, hy, Ne.symm hy]
  · simp [Ne.symm hu, hu]

theorem symbolTableInsert_fresh {s : Resolver} {t n : Nat} {name : String} {tbl : SymbolTable}
    (ht : s.tables[t]? = some tbl) (hx : s.lookupLocal t name = none) :
    symbolTableInsert t name n s = .ok ((), s.insertElement t tbl name n) := by
  simp [symbolTableInsert, hx, ht, Resolver.insertElement, bind, StateT.bind, get, getThe,
    MonadStateOf.get, StateT.get, set, StateT.set, pure, Except.pure, Except.bind]

theorem symbolTableInsert_same {s : Resolver} {t n : Nat} {name : String}
    (hx : s.lookupLocal t name = some n) : symbolTableInsert t name n s = .ok ((), s) := by
  simp [symbolTableInsert, hx, bind, StateT.bind, get, getThe, MonadStateOf.get, StateT.get,
    pure, StateT.pure, Except.pure, Except.bind]

theorem symbolTableInsert_other {s : Resolver} {t m n : Nat} {name : String}
    (hx : s.lookupLocal t name = some m) (hne : m ≠ n) :
    symbolTableInsert t name n s = .error (.fatal s!"redeclaration of `{name}`") := by
  simp [symbolTableInsert, hx, hne, fatal, bind, StateT.bind, get, getThe, MonadStateOf.get,
    StateT.get, throw, throwThe, MonadExceptOf.throw, StateT.lift, Except.bind, pure, Except.pure]

/-! ## Frames -/

/-- Table `u` exists and every symbol it binds exists. -/
def TableOk (s : Resolver) (u : Nat) : Prop :=
  ∃ tbl, s.tables[u]? = some tbl ∧ ∀ e ∈ tbl.elements, e.2 < s.symbols.length

theorem Resolver.symbol?_of_prefix {s s' : Resolver} {n : Nat} (hsym : s.symbols <+: s'.symbols)
    (hn : n < s.symbols.length) : s'.symbol? n = s.symbol? n := by
  simp only [Resolver.symbol?, getElem?_of_isPrefixOf hsym (List.getElem?_eq_getElem hn),
    List.getElem?_eq_getElem hn]

theorem Resolver.nsTable?_of_prefix {s s' : Resolver} {n : Nat} (hsym : s.symbols <+: s'.symbols)
    (hn : n < s.symbols.length) : s'.nsTable? n = s.nsTable? n := by
  simp only [Resolver.nsTable?, Resolver.symbol?_of_prefix hsym hn]

theorem TableOk.lt {s : Resolver} {u : Nat} (h : TableOk s u) : u < s.tables.length :=
  let ⟨_, ht, _⟩ := h
  (List.getElem?_eq_some_iff.1 ht).1

theorem TableOk.lookupLocal_lt {s : Resolver} {t n : Nat} {name : String} (h : TableOk s t)
    (hn : s.lookupLocal t name = some n) : n < s.symbols.length := by
  obtain ⟨tbl, htbl, hmem⟩ := Resolver.lookupLocal_mem hn
  obtain ⟨tbl', htbl', hlt⟩ := h
  obtain rfl : tbl' = tbl := Option.some.inj (htbl'.symm.trans htbl)
  exact hlt _ hmem

theorem TableOk.mono {s s' : Resolver} {u : Nat} (h : TableOk s u) (hsym : s.symbols <+: s'.symbols)
    (ht : s'.tables[u]? = s.tables[u]?) : TableOk s' u :=
  let ⟨tbl, htbl, hlt⟩ := h
  ⟨tbl, ht.trans htbl, fun e he => Nat.lt_of_lt_of_le (hlt e he) hsym.length_le⟩

/-- What a table binds under one of its names depends only on that name's symbol, on the tables
below it and on the symbols they bind. -/
theorem Resolver.child_frame {s s' : Resolver} (hsym : s.symbols <+: s'.symbols) :
    ∀ {t : Nat} {y : String} (r : List String), s'.lookupLocal t y = s.lookupLocal t y →
      (∀ n, s.lookupLocal t y = some n → n < s.symbols.length) →
      (∀ q u, s.tableAt t (y :: q) = some u → TableOk s u) →
      (∀ q u, s.tableAt t (y :: q) = some u → s'.tables[u]? = s.tables[u]?) →
      s'.tableAt t (y :: r) = s.tableAt t (y :: r) ∧ s'.bindingAt t (y :: r) = s.bindingAt t (y :: r)
  | t, y, r, hl, hlt, hok, htab => by
    rcases hn : s.lookupLocal t y with _ | n
    · simp [Resolver.tableAt, Resolver.bindingAt_cons, hl, hn]
    have hs := Resolver.nsTable?_of_prefix hsym (hlt n hn)
    rcases ht : s.nsTable? n with _ | t'
    · simp [Resolver.tableAt, Resolver.bindingAt_cons, Resolver.bindingBelow, hl, hn, hs, ht]
    have hsub : ∀ q u, s.tableAt t' q = some u → s.tableAt t (y :: q) = some u := fun q u h => by
      rwa [Resolver.tableAt_cons_of_lookupLocal hn ht]
    have hself : s.tableAt t (y :: []) = some t' := hsub [] t' rfl
    match r with
    | [] =>
      simp [Resolver.tableAt, Resolver.bindingAt_cons, Resolver.bindingBelow, Resolver.bindingAt, hl,
        hn, hs, ht]
    | z :: r =>
      have ih := Resolver.child_frame hsym (t := t') (y := z) r
        (by simp only [Resolver.lookupLocal, htab _ _ hself])
        (fun m hm => (hok _ _ hself).lookupLocal_lt hm)
        (fun q u h => hok _ u (hsub _ u h)) (fun q u h => htab _ u (hsub _ u h))
      simp only [Resolver.tableAt_cons_of_lookupLocal hn ht, Resolver.bindingAt_cons_of_lookupLocal hn ht,
        Resolver.tableAt_cons_of_lookupLocal (hl.trans hn) (hs.trans ht),
        Resolver.bindingAt_cons_of_lookupLocal (hl.trans hn) (hs.trans ht), ih, and_self]

/-- What a table binds depends only on the tables of its tree and on the symbols they bind. -/
theorem Resolver.tableAt_frame {s s' : Resolver} {t : Nat} (hsym : s.symbols <+: s'.symbols)
    (hok : ∀ q u, s.tableAt t q = some u → TableOk s u)
    (htab : ∀ q u, s.tableAt t q = some u → s'.tables[u]? = s.tables[u]?) :
    ∀ p, s'.tableAt t p = s.tableAt t p ∧ s'.bindingAt t p = s.bindingAt t p
  | [] => ⟨rfl, rfl⟩
  | y :: r => Resolver.child_frame hsym r (by simp only [Resolver.lookupLocal, htab [] t rfl])
    (fun _ hn => (hok [] t rfl).lookupLocal_lt hn) (fun q u h => hok _ u h) (fun q u h => htab _ u h)

/-! ## Trees a merge reads and writes -/

/-- The tree of the table a merge writes: two paths lead to two tables, and every table of it is
in order. -/
structure WriteReady (s : Resolver) (t : Nat) : Prop where
  tree : ∀ p q u, s.tableAt t p = some u → s.tableAt t q = some u → p = q
  ok : ∀ p u, s.tableAt t p = some u → TableOk s u

/-- The tree of the table a merge reads: every table of it is in order and binds each name once,
and it is less than `fuel` namespaces deep. -/
structure ReadReady (s : Resolver) (fuel othr : Nat) : Prop where
  ok : ∀ p u, s.tableAt othr p = some u → TableOk s u
  nodup : ∀ p u tbl, s.tableAt othr p = some u → s.tables[u]? = some tbl →
    (tbl.elements.map Prod.fst).Nodup
  depth : ∀ p u, s.tableAt othr p = some u → p.length < fuel

/-- No table of the tree of `self` is in the tree of `othr`. -/
def Apart (s : Resolver) (self othr : Nat) : Prop :=
  ∀ p q u, s.tableAt self p = some u → s.tableAt othr q ≠ some u

/-- What a merge into the tree of `self` changes: it adds symbols and tables and writes only
tables of that tree, which keep their paths; every other table of the new tree is new. -/
structure Grows (s s' : Resolver) (t : Nat) : Prop where
  symbols : s.symbols <+: s'.symbols
  length : s.tables.length ≤ s'.tables.length
  other : ∀ u, u < s.tables.length → (∀ p, s.tableAt t p ≠ some u) → s'.tables[u]? = s.tables[u]?
  fresh : ∀ p u, s'.tableAt t p = some u → s.tableAt t p = some u ∨ s.tables.length ≤ u

theorem Grows.refl (s : Resolver) (self : Nat) : Grows s s self :=
  ⟨List.prefix_refl _, le_rfl, fun _ _ _ => rfl, fun _ _ h => .inl h⟩

theorem Grows.trans {s₁ s₂ s₃ : Resolver} {self : Nat} (h₁ : Grows s₁ s₂ self)
    (h₂ : Grows s₂ s₃ self) : Grows s₁ s₃ self := by
  refine ⟨h₁.symbols.trans h₂.symbols, h₁.length.trans h₂.length, fun u hu hn => ?_,
    fun p u hp => ?_⟩
  · have hn₂ : ∀ p, s₂.tableAt self p ≠ some u := fun p hp => by
      rcases h₁.fresh p u hp with h | h
      · exact hn p h
      · omega
    rw [h₂.other u (Nat.lt_of_lt_of_le hu h₁.length) hn₂, h₁.other u hu hn]
  · rcases h₂.fresh p u hp with h | h
    · exact h₁.fresh p u h
    · exact .inr (h₁.length.trans h)

/-- A tree whose tables are left as they were keeps what it binds and stays ready to be read. -/
theorem ReadReady.transfer {s s' : Resolver} {t fuel : Nat} (hr : ReadReady s fuel t)
    (hsym : s.symbols <+: s'.symbols)
    (htab : ∀ q u, s.tableAt t q = some u → s'.tables[u]? = s.tables[u]?) :
    ReadReady s' fuel t ∧ s'.tableAt t = s.tableAt t ∧ s'.bindingAt t = s.bindingAt t := by
  have hf := Resolver.tableAt_frame hsym hr.ok htab
  have ht : s'.tableAt t = s.tableAt t := funext fun p => (hf p).1
  refine ⟨⟨fun p u hp => ?_, fun p u tbl hp htbl => ?_, fun p u hp => ?_⟩, ht,
    funext fun p => (hf p).2⟩ <;> rw [ht] at hp
  · exact (hr.ok p u hp).mono hsym (htab p u hp)
  · rw [htab p u hp] at htbl
    exact hr.nodup p u tbl hp htbl
  · exact hr.depth p u hp

/-- A tree apart from the tree a merge writes keeps its tables and what it binds. -/
theorem Grows.keeps {s s' : Resolver} {self t fuel : Nat} (hg : Grows s s' self)
    (hr : ReadReady s fuel t) (ha : Apart s self t) :
    ReadReady s' fuel t ∧ Apart s' self t ∧ s'.tableAt t = s.tableAt t ∧
      s'.bindingAt t = s.bindingAt t := by
  obtain ⟨hr', ht, hb⟩ := hr.transfer hg.symbols fun q u hq =>
    hg.other u (hr.ok q u hq).lt fun p hp => ha p q u hp hq
  refine ⟨hr', fun p q u hp hq => ?_, ht, hb⟩
  rw [ht] at hq
  rcases hg.fresh p u hp with h | h
  · exact ha p q u h hq
  · exact absurd (hr.ok q u hq).lt (by omega)

/-- The outcome of a merge from state `s` into the tree of `self`, which binds `V`, of bindings
`A`: when the two are compatible it succeeds and binds their union, otherwise it stops with a
redeclaration. -/
def MergeResult (run : ResolveM Unit) (s : Resolver) (self : Nat)
    (V A : List String → Option Binding) : Prop :=
  (Bindings.Compatible V A → ∃ s', run s = .ok ((), s') ∧
      s'.bindingAt self = Bindings.union V A ∧ Grows s s' self ∧ WriteReady s' self) ∧
    (¬Bindings.Compatible V A → ∃ name : String, run s = .error (.fatal s!"redeclaration of `{name}`"))

/-- What every merge of one table into another ready for it does. -/
def MergeSpec (merge : Nat → Nat → ResolveM Unit) (fuel : Nat) : Prop :=
  ∀ ⦃self othr : Nat⦄ ⦃s : Resolver⦄, WriteReady s self → ReadReady s fuel othr →
    Apart s self othr → MergeResult (merge self othr) s self (s.bindingAt self) (s.bindingAt othr)

/-! ## One element -/

namespace Resolver

theorem bindingIn_single_self {s : Resolver} {x : String} {n : Nat} {r : List String} :
    s.bindingIn [(x, n)] (x :: r) = s.bindingBelow n r := by
  simp [bindingIn]

theorem bindingIn_single_ne {s : Resolver} {x y : String} {n : Nat} {r : List String}
    (h : y ≠ x) : s.bindingIn [(x, n)] (y :: r) = none := by
  simp [bindingIn, Ne.symm h]

theorem bindingIn_of_not_mem {s : Resolver} {x : String} {es : List (String × Nat)}
    {r : List String} (hx : x ∉ es.map Prod.fst) : s.bindingIn es (x :: r) = none := by
  have hnone : es.find? (·.1 == x) = none := by
    rw [List.find?_eq_none]
    intro e he hex
    exact hx (List.mem_map.2 ⟨e, he, by simpa using hex⟩)
  simp [bindingIn, hnone]

theorem bindingIn_cons {s : Resolver} {x : String} {n : Nat} {rest : List (String × Nat)}
    (hx : x ∉ rest.map Prod.fst) :
    s.bindingIn ((x, n) :: rest) = Bindings.union (s.bindingIn [(x, n)]) (s.bindingIn rest) := by
  funext p
  cases p with
  | nil => rfl
  | cons y r =>
    by_cases hy : y = x
    · subst hy
      show _ = (s.bindingIn [(y, n)] (y :: r)).or (s.bindingIn rest (y :: r))
      rw [bindingIn_of_not_mem hx, Option.or_none]
      simp [bindingIn]
    · simp [bindingIn, Bindings.union, Ne.symm hy]

/-- An element binds nothing the other elements bind, when they do not bind its name. -/
theorem bindingIn_single_compatible {s : Resolver} {x : String} {n : Nat}
    {rest : List (String × Nat)} (hx : x ∉ rest.map Prod.fst) :
    Bindings.Compatible (s.bindingIn [(x, n)]) (s.bindingIn rest) := fun p b c hb hc => by
  match p with
  | [] => exact (Option.some.inj hb).symm.trans (Option.some.inj hc)
  | y :: r =>
    by_cases hy : y = x
    · subst hy
      simp [bindingIn_of_not_mem hx] at hc
    · simp [bindingIn_single_ne hy] at hb

/-- A table that binds each name once binds each of its elements' names to that element. -/
theorem lookupLocal_of_mem {s : Resolver} {t : Nat} {tbl : SymbolTable} {e : String × Nat}
    (htbl : s.tables[t]? = some tbl) (hnd : (tbl.elements.map Prod.fst).Nodup)
    (he : e ∈ tbl.elements) : s.lookupLocal t e.1 = some e.2 := by
  have hsome : (tbl.elements.find? (·.1 == e.1)).isSome := List.find?_isSome.2 ⟨e, he, by simp⟩
  obtain ⟨e', hf⟩ := Option.isSome_iff_exists.1 hsome
  have hee : e' = e := List.inj_on_of_nodup_map hnd (List.mem_of_find?_eq_some hf) he
    (by simpa using List.find?_some hf)
  simp [lookupLocal, htbl, hf, hee]

theorem nsTable?_eq_some {s : Resolver} {n t : Nat} :
    s.nsTable? n = some t ↔ ∃ name, s.symbol? n = some ⟨name, .namespace_ t⟩ := by
  unfold nsTable?
  split <;> simp_all

end Resolver

/-- An element is compatible with a table when what it binds below its name is compatible with what
the table binds below it. -/
theorem Bindings.compatible_single {s : Resolver} {V : List String → Option Binding} {x : String}
    {n : Nat} (h0 : V [] = some .namespace_) :
    Bindings.Compatible V (s.bindingIn [(x, n)]) ↔
      Bindings.Compatible (fun r => V (x :: r)) (s.bindingBelow n) := by
  constructor
  · intro h r b c hb hc
    exact h (x :: r) b c hb (by rwa [Resolver.bindingIn_single_self])
  · intro h p b c hb hc
    match p, hc with
    | [], hc => simp_all [Resolver.bindingIn]
    | y :: r, hc =>
      by_cases hy : y = x
      · subst hy
        exact h r b c hb (by rwa [Resolver.bindingIn_single_self] at hc)
      · simp [Resolver.bindingIn_single_ne hy] at hc

/-- An element merged into `self` under `x`: when the tables under the other names are untouched,
the new tables under `x` are new and form a tree, and the bindings under `x` are the union, then
the merge grows the tree of `self` as a merge may. -/
theorem Grows.of_branch {s : Resolver} (s' : Resolver) {self : Nat} {x : String}
    {A : List String → Option Binding} (hw : WriteReady s self) (hsym : s.symbols <+: s'.symbols)
    (hlen : s.tables.length ≤ s'.tables.length)
    (hother : ∀ u, u < s.tables.length → (∀ p, s.tableAt self p ≠ some u) →
      s'.tables[u]? = s.tables[u]?)
    (hl : ∀ y, y ≠ x → s'.lookupLocal self y = s.lookupLocal self y)
    (hyt : ∀ y, y ≠ x → ∀ r u, s.tableAt self (y :: r) = some u → s'.tables[u]? = s.tables[u]?)
    (hself : TableOk s' self)
    (hx : ∀ r u, s'.tableAt self (x :: r) = some u →
      s.tableAt self (x :: r) = some u ∨ s.tables.length ≤ u)
    (hxtree : ∀ r r' u, s'.tableAt self (x :: r) = some u → s'.tableAt self (x :: r') = some u →
      s.tables.length ≤ u → r = r')
    (hxok : ∀ r u, s'.tableAt self (x :: r) = some u → TableOk s' u)
    (hA : ∀ y r, y ≠ x → A (y :: r) = none)
    (hbx : ∀ r, s'.bindingAt self (x :: r) = Bindings.union (s.bindingAt self) A (x :: r)) :
    s'.bindingAt self = Bindings.union (s.bindingAt self) A ∧ Grows s s' self ∧
      WriteReady s' self := by
  have hy : ∀ y, y ≠ x → ∀ r, s'.tableAt self (y :: r) = s.tableAt self (y :: r) ∧
      s'.bindingAt self (y :: r) = s.bindingAt self (y :: r) := fun y hyx r =>
    Resolver.child_frame hsym r (hl y hyx) (fun _ hn => (hw.ok [] self rfl).lookupLocal_lt hn)
      (fun q u h => hw.ok _ u h) (hyt y hyx)
  have hself_lt : self < s.tables.length := (hw.ok [] self rfl).lt
  have hg : Grows s s' self := by
    refine ⟨hsym, hlen, hother, fun p u hp => ?_⟩
    match p with
    | [] => exact .inl hp
    | y :: r =>
      by_cases hyx : y = x
      · subst hyx
        exact hx r u hp
      · exact .inl ((hy y hyx r).1 ▸ hp)
  -- a new table is under `x`
  have hnew : ∀ p u, s'.tableAt self p = some u → s.tables.length ≤ u → ∃ r, p = x :: r := by
    intro p u hp hu
    match p with
    | [] =>
      simp only [Resolver.tableAt, Option.some.injEq] at hp
      omega
    | y :: r =>
      by_cases hyx : y = x
      · exact ⟨r, by rw [hyx]⟩
      · rw [(hy y hyx r).1] at hp
        exact absurd (hw.ok _ u hp).lt (by omega)
  refine ⟨funext fun p => ?_, hg, ⟨fun p q u hp hq => ?_, fun p u hp => ?_⟩⟩
  · match p with
    | [] => simp [Resolver.bindingAt, Bindings.union]
    | y :: r =>
      by_cases hyx : y = x
      · subst hyx
        exact hbx r
      · simp [(hy y hyx r).2, Bindings.union, hA y r hyx]
  · rcases hg.fresh p u hp with hp' | hu
    · rcases hg.fresh q u hq with hq' | hu
      · exact hw.tree p q u hp' hq'
      · exact absurd (hw.ok _ u hp').lt (by omega)
    · obtain ⟨r, rfl⟩ := hnew p u hp hu
      obtain ⟨r', rfl⟩ := hnew q u hq hu
      rw [hxtree r r' u hp hq hu]
  · match p with
    | [] =>
      simp only [Resolver.tableAt, Option.some.injEq] at hp
      exact hp ▸ hself
    | y :: r =>
      by_cases hyx : y = x
      · subst hyx
        exact hxok r u hp
      · rw [(hy y hyx r).1] at hp
        exact (hw.ok _ u hp).mono hsym (hyt y hyx r u hp)

/-! ## Running one element -/

section
variable {merge : Nat → Nat → ResolveM Unit} {self n : Nat} {x : String} {s : Resolver}

/-- A symbol other than a namespace is inserted, unless `self` binds the name to it already. -/
theorem mergeElement_symbol (hn : n < s.symbols.length) (hns : s.nsTable? n = none) :
    mergeElement merge self x n s =
      (if s.lookupLocal self x ≠ some n then symbolTableInsert self x n else pure ()) s := by
  obtain ⟨⟨nm, data⟩, hsym⟩ : ∃ sym, s.symbol? n = some sym := ⟨_, List.getElem?_eq_getElem hn⟩
  unfold mergeElement
  rw [ResolveM.bind_of_ok (getSymbol_ok.2 ⟨hsym, rfl⟩)]
  cases data with
  | namespace_ t => simp [Resolver.nsTable?, hsym] at hns
  | _ => exact ResolveM.bind_of_ok (ResolveM.get_ok.2 ⟨rfl, rfl⟩)

/-- A namespace under a name `self` binds to a namespace is merged into that namespace. -/
theorem mergeElement_namespace_hit {othr m t : Nat} (ho : s.nsTable? n = some othr)
    (hm : s.lookupLocal self x = some m) (ht : s.nsTable? m = some t) :
    mergeElement merge self x n s = merge t othr s := by
  obtain ⟨nm, hsym⟩ := Resolver.nsTable?_eq_some.1 ho
  obtain ⟨nm', hsym'⟩ := Resolver.nsTable?_eq_some.1 ht
  have htarget : mergeTarget self x ⟨nm, .namespace_ othr⟩ s = .ok (m, s) := by
    simp [mergeTarget, hm, bind, StateT.bind, get, getThe, MonadStateOf.get, StateT.get, pure,
      StateT.pure, Except.pure, Except.bind]
  unfold mergeElement
  rw [ResolveM.bind_of_ok (getSymbol_ok.2 ⟨hsym, rfl⟩)]
  exact (ResolveM.bind_of_ok htarget).trans (ResolveM.bind_of_ok (getSymbol_ok.2 ⟨hsym', rfl⟩))

/-- A namespace under a name `self` binds to a symbol of another kind is a redeclaration. -/
theorem mergeElement_namespace_clash {othr m : Nat} (ho : s.nsTable? n = some othr)
    (hm : s.lookupLocal self x = some m) (hmlt : m < s.symbols.length) (ht : s.nsTable? m = none) :
    mergeElement merge self x n s = .error (.fatal s!"redeclaration of `{x}`") := by
  obtain ⟨nm, hsym⟩ := Resolver.nsTable?_eq_some.1 ho
  obtain ⟨⟨nm', data⟩, hsym'⟩ : ∃ sym, s.symbol? m = some sym := ⟨_, List.getElem?_eq_getElem hmlt⟩
  have hne : m ≠ n := by rintro rfl; simp [ho] at ht
  have htarget : mergeTarget self x ⟨nm, .namespace_ othr⟩ s = .ok (m, s) := by
    simp [mergeTarget, hm, bind, StateT.bind, get, getThe, MonadStateOf.get, StateT.get, pure,
      StateT.pure, Except.pure, Except.bind]
  unfold mergeElement
  rw [ResolveM.bind_of_ok (getSymbol_ok.2 ⟨hsym, rfl⟩)]
  refine (ResolveM.bind_of_ok htarget).trans ((ResolveM.bind_of_ok (getSymbol_ok.2 ⟨hsym', rfl⟩)).trans ?_)
  cases data with
  | namespace_ t => simp [Resolver.nsTable?, hsym'] at ht
  | _ => exact ResolveM.bind_of_error (symbolTableInsert_other hm hne)

end

/-! ## A new namespace -/

/-- A new empty table under `self` and a new namespace symbol named `nm` for it. -/
def Resolver.addNamespace (s : Resolver) (self : Nat) (nm : String) : Resolver :=
  { s with
    tables := s.tables ++ [⟨some self, []⟩]
    symbols := s.symbols ++ [⟨nm, .namespace_ s.tables.length⟩] }

/-- The state `mergeTarget` leaves for a name `self` does not bind: the new namespace inserted
under the name. -/
def Resolver.withNamespace (s : Resolver) (self : Nat) (tbl : SymbolTable) (x nm : String) :
    Resolver :=
  (s.addNamespace self nm).insertElement self tbl x s.symbols.length

namespace Resolver

variable {s : Resolver} {self u : Nat} {tbl : SymbolTable} {x nm : String}

@[simp] theorem withNamespace_symbols_length :
    (s.withNamespace self tbl x nm).symbols.length = s.symbols.length + 1 := by
  simp [withNamespace, addNamespace]

theorem withNamespace_length :
    (s.withNamespace self tbl x nm).tables.length = s.tables.length + 1 := by
  simp [withNamespace, insertElement_length, addNamespace]

theorem withNamespace_nsTable? :
    (s.withNamespace self tbl x nm).nsTable? s.symbols.length = some s.tables.length := by
  simp [withNamespace, addNamespace, nsTable?, symbol?]

theorem withNamespace_tables_old (hu : u < s.tables.length) (hne : u ≠ self) :
    (s.withNamespace self tbl x nm).tables[u]? = s.tables[u]? := by
  rw [withNamespace, insertElement_tables_ne hne, addNamespace, List.getElem?_append_left hu]

theorem withNamespace_tables_new (hself : self < s.tables.length) :
    (s.withNamespace self tbl x nm).tables[s.tables.length]? = some ⟨some self, []⟩ := by
  rw [withNamespace, insertElement_tables_ne (Nat.ne_of_gt hself), addNamespace]
  simp

section
variable (htbl : s.tables[self]? = some tbl) (hx : s.lookupLocal self x = none)
include htbl

theorem addNamespace_tables_self : (s.addNamespace self nm).tables[self]? = some tbl := by
  rw [addNamespace, List.getElem?_append_left (List.getElem?_eq_some_iff.1 htbl).1, htbl]

theorem withNamespace_tableOk (hlt : ∀ e ∈ tbl.elements, e.2 < s.symbols.length) :
    TableOk (s.withNamespace self tbl x nm) self := by
  refine ⟨_, insertElement_tables_self (addNamespace_tables_self htbl), fun e he => ?_⟩
  simp only [List.mem_append, List.mem_singleton] at he
  rcases he with he | rfl
  · simpa using Nat.lt_succ_of_lt (hlt e he)
  · simp

include hx

theorem addNamespace_lookupLocal_self : (s.addNamespace self nm).lookupLocal self x = none := by
  simpa [lookupLocal, addNamespace_tables_self htbl, htbl] using hx

theorem withNamespace_lookupLocal_self (y : String) :
    (s.withNamespace self tbl x nm).lookupLocal self y =
      if y = x then some s.symbols.length else s.lookupLocal self y := by
  rw [withNamespace, lookupLocal_insertElement (addNamespace_tables_self htbl)
    (addNamespace_lookupLocal_self htbl hx)]
  simp only [true_and]
  split
  · rfl
  · simp [lookupLocal, addNamespace_tables_self htbl, htbl]

end

end Resolver

section
variable {merge : Nat → Nat → ResolveM Unit} {self n : Nat} {x : String} {s : Resolver}

/-- A namespace under a name `self` does not bind is merged into a new namespace. -/
theorem mergeElement_namespace_new {othr : Nat} {tbl : SymbolTable} (ho : s.nsTable? n = some othr)
    (htbl : s.tables[self]? = some tbl) (hx : s.lookupLocal self x = none) :
    ∃ nm, mergeElement merge self x n s = merge s.tables.length othr (s.withNamespace self tbl x nm) := by
  obtain ⟨nm, hsym⟩ := Resolver.nsTable?_eq_some.1 ho
  have htarget : mergeTarget self x ⟨nm, .namespace_ othr⟩ s =
      .ok (s.symbols.length, s.withNamespace self tbl x nm) := by
    simp only [mergeTarget, hx, symbolTableNew, newSymbol, bind, StateT.bind, get, getThe,
      MonadStateOf.get, StateT.get, modifyGet, MonadStateOf.modifyGet, StateT.modifyGet, pure,
      Except.pure, Except.bind]
    have hx' : (s.addNamespace self nm).lookupLocal self x = none :=
      Resolver.addNamespace_lookupLocal_self htbl hx
    have h := symbolTableInsert_fresh (n := s.symbols.length) (Resolver.addNamespace_tables_self htbl) hx'
    unfold Resolver.addNamespace at h
    rw [h]
    rfl
  have hget : getSymbol s.symbols.length (s.withNamespace self tbl x nm) =
      .ok (⟨nm, .namespace_ s.tables.length⟩, s.withNamespace self tbl x nm) :=
    getSymbol_ok.2 ⟨by simp [Resolver.withNamespace, Resolver.addNamespace, Resolver.insertElement,
      Resolver.symbol?], rfl⟩
  refine ⟨nm, ?_⟩
  unfold mergeElement
  rw [ResolveM.bind_of_ok (getSymbol_ok.2 ⟨hsym, rfl⟩)]
  exact (ResolveM.bind_of_ok htarget).trans (ResolveM.bind_of_ok hget)

end

/-! ## What one element does -/

theorem WriteReady.ne_self {s : Resolver} {self u : Nat} {y : String} {r : List String}
    (hw : WriteReady s self) (h : s.tableAt self (y :: r) = some u) : u ≠ self := by
  rintro rfl
  exact List.cons_ne_nil _ _ (hw.tree _ [] _ h rfl)

/-- The tables of the namespace under `x` are the tables of the tree under `x`. -/
theorem WriteReady.child {s : Resolver} {self m t : Nat} {x : String} (hw : WriteReady s self)
    (hm : s.lookupLocal self x = some m) (ht : s.nsTable? m = some t) : WriteReady s t := by
  have h := fun q => Resolver.tableAt_cons_of_lookupLocal (p := q) hm ht
  exact ⟨fun p q u hp hq => List.cons.inj (hw.tree (x :: p) (x :: q) u (h p ▸ hp) (h q ▸ hq)) |>.2,
    fun p u hp => hw.ok (x :: p) u (h p ▸ hp)⟩

section
variable {merge : Nat → Nat → ResolveM Unit} {fuel self n : Nat} {x : String} {s : Resolver}

/-- A symbol of another kind than a namespace is bound under its name, unless the name is bound
to another symbol. -/
theorem mergeElement_result_symbol (hw : WriteReady s self) (hn : n < s.symbols.length)
    (hns : s.nsTable? n = none) :
    MergeResult (mergeElement merge self x n) s self (s.bindingAt self) (s.bindingIn [(x, n)]) := by
  obtain ⟨tbl, htbl, hlt⟩ := hw.ok [] self rfl
  unfold MergeResult
  rw [Bindings.compatible_single rfl, mergeElement_symbol hn hns]
  rcases hl : s.lookupLocal self x with _ | m
  · -- a name `self` does not bind: the symbol is inserted
    have hc : Bindings.Compatible (fun r => s.bindingAt self (x :: r)) (s.bindingBelow n) := by
      intro r b c hb
      simp [Resolver.bindingAt_cons, hl] at hb
    refine ⟨fun _ => ?_, fun h => absurd hc h⟩
    have hx : ∀ r, (s.insertElement self tbl x n).tableAt self (x :: r) = none := fun r => by
      simp [Resolver.tableAt, Resolver.lookupLocal_insertElement htbl hl, hns]
    have hins := fun y => Resolver.lookupLocal_insertElement (n := n) (u := self) (y := y) htbl hl
    obtain ⟨hb, hg, hw'⟩ := Grows.of_branch (s.insertElement self tbl x n) (x := x)
      (A := s.bindingIn [(x, n)]) hw (List.prefix_refl _) Resolver.insertElement_length.ge
      (fun u _ hu => Resolver.insertElement_tables_ne fun h => hu [] (by rw [h]; rfl))
      (fun y hy => by simp [hins y, hy])
      (fun y _ r u h => Resolver.insertElement_tables_ne (hw.ne_self h))
      ⟨_, Resolver.insertElement_tables_self htbl, fun e he => by
        simp only [List.mem_append, List.mem_singleton] at he
        rcases he with he | rfl
        · exact hlt e he
        · exact hn⟩
      (fun r u h => by simp [hx] at h) (fun r _ u h => by simp [hx] at h)
      (fun r u h => by simp [hx] at h) (fun y r hy => Resolver.bindingIn_single_ne hy)
      (fun r => by
        simp [Resolver.bindingAt_cons, Bindings.union, hins, hl, Resolver.bindingIn_single_self,
          Resolver.bindingBelow, hns])
    exact ⟨_, by simp [symbolTableInsert_fresh htbl hl], hb, hg, hw'⟩
  · by_cases hmn : m = n
    · -- the name is bound to the symbol already: nothing changes
      subst hmn
      have hc : Bindings.Compatible (fun r => s.bindingAt self (x :: r)) (s.bindingBelow m) := by
        simpa [Resolver.bindingAt_cons, hl] using Bindings.Compatible.refl
      refine ⟨fun _ => ⟨s, by simp [pure, StateT.pure, Except.pure], ?_, Grows.refl s self, hw⟩,
        fun h => absurd hc h⟩
      refine (Bindings.union_eq_left fun p b hb => ?_).symm
      match p with
      | [] =>
        simp only [Resolver.bindingIn, Option.some.injEq] at hb
        exact hb ▸ rfl
      | y :: r =>
        by_cases hy : y = x
        · subst hy
          rwa [Resolver.bindingAt_cons, hl, Option.some_bind, ← Resolver.bindingIn_single_self]
        · simp [Resolver.bindingIn_single_ne hy] at hb
    · -- the name is bound to another symbol: a redeclaration
      refine ⟨fun hc => ?_, fun _ => ⟨x, by simp [hmn, symbolTableInsert_other hl hmn]⟩⟩
      have hn' : s.bindingBelow n [] = some (.symbol n) := by simp [Resolver.bindingBelow, hns]
      rcases hm : s.nsTable? m with _ | t
      · have := hc [] (.symbol m) _ (by simp [Resolver.bindingAt_cons, hl, Resolver.bindingBelow, hm])
          hn'
        exact absurd (Binding.symbol.inj this) hmn
      · have := hc [] .namespace_ _ (by simp [Resolver.bindingAt_cons, hl, Resolver.bindingBelow, hm,
          Resolver.bindingAt]) hn'
        exact Binding.noConfusion this

/-- A namespace under a name bound to a symbol of another kind is a redeclaration. -/
theorem mergeElement_result_clash (hw : WriteReady s self) {othr m : Nat}
    (ho : s.nsTable? n = some othr) (hl : s.lookupLocal self x = some m) (ht : s.nsTable? m = none) :
    MergeResult (mergeElement merge self x n) s self (s.bindingAt self) (s.bindingIn [(x, n)]) := by
  have hmlt := (hw.ok [] self rfl).lookupLocal_lt hl
  refine ⟨fun hc => absurd (hc [x] (.symbol m) .namespace_ ?_ ?_) (by simp),
    fun _ => ⟨x, mergeElement_namespace_clash ho hl hmlt ht⟩⟩
  · simp [Resolver.bindingAt_cons, hl, Resolver.bindingBelow, ht]
  · simp [Resolver.bindingIn_single_self, Resolver.bindingBelow, ho, Resolver.bindingAt]

/-- A namespace under a name bound to a namespace is merged into it. -/
theorem mergeElement_result_hit (hm : MergeSpec merge fuel) (hw : WriteReady s self)
    {othr m t : Nat} (ho : s.nsTable? n = some othr) (hr : ReadReady s fuel othr)
    (ha : Apart s self othr) (hl : s.lookupLocal self x = some m) (ht : s.nsTable? m = some t) :
    MergeResult (mergeElement merge self x n) s self (s.bindingAt self) (s.bindingIn [(x, n)]) := by
  have hsub : ∀ q, s.tableAt t q = s.tableAt self (x :: q) := fun q =>
    (Resolver.tableAt_cons_of_lookupLocal hl ht).symm
  have hat : Apart s t othr := fun p q u hp hq => ha (x :: p) q u (hsub p ▸ hp) hq
  have hA : s.bindingBelow n = s.bindingAt othr := funext fun r => by
    simp [Resolver.bindingBelow, ho]
  have hcompat : Bindings.Compatible (s.bindingAt self) (s.bindingIn [(x, n)]) ↔
      Bindings.Compatible (s.bindingAt t) (s.bindingAt othr) := by
    rw [Bindings.compatible_single rfl, hA]
    simp only [Resolver.bindingAt_cons_of_lookupLocal hl ht]
  obtain ⟨hok, herr⟩ := hm (hw.child hl ht) hr hat
  unfold MergeResult
  rw [hcompat, mergeElement_namespace_hit ho hl ht]
  refine ⟨fun hc => ?_, herr⟩
  obtain ⟨s', hrun, hb, hg, hw'⟩ := hok hc
  -- the tables of `self`'s tree outside the tree of `t` are untouched, `self` among them
  have hkeep : ∀ p u, s.tableAt self p = some u → (∀ q, s.tableAt self (x :: q) ≠ some u) →
      s'.tables[u]? = s.tables[u]? := fun p u hp hnot =>
    hg.other u (hw.ok p u hp).lt fun q hq => hnot q (hsub q ▸ hq)
  have hself : s'.tables[self]? = s.tables[self]? :=
    hkeep [] self rfl fun q hq => List.cons_ne_nil _ _ (hw.tree _ [] _ hq rfl)
  have hl' : ∀ y, s'.lookupLocal self y = s.lookupLocal self y := fun y => by
    simp only [Resolver.lookupLocal, hself]
  have ht' : s'.nsTable? m = some t :=
    (Resolver.nsTable?_of_prefix hg.symbols ((hw.ok [] self rfl).lookupLocal_lt hl)).trans ht
  have hsub' : ∀ q, s'.tableAt self (x :: q) = s'.tableAt t q := fun q =>
    Resolver.tableAt_cons_of_lookupLocal ((hl' x).trans hl) ht'
  obtain ⟨hb', hg', hw''⟩ := Grows.of_branch s' (x := x) (A := s.bindingIn [(x, n)]) hw
    hg.symbols hg.length (fun u hu hn => hg.other u hu fun q hq => hn (x :: q) (hsub q ▸ hq))
    (fun y _ => hl' y)
    (fun y hy r u h => hkeep _ u h fun q hq => hy (List.cons.inj (hw.tree _ _ u h hq)).1)
    ((hw.ok [] self rfl).mono hg.symbols hself)
    (fun r u h => by
      rw [hsub'] at h
      rcases hg.fresh r u h with h | h
      · exact .inl (hsub r ▸ h)
      · exact .inr h)
    (fun r r' u h h' _ => by
      rw [hsub'] at h h'
      exact hw'.tree r r' u h h')
    (fun r u h => by
      rw [hsub'] at h
      exact hw'.ok r u h)
    (fun y r hy => Resolver.bindingIn_single_ne hy)
    (fun r => by
      rw [Resolver.bindingAt_cons_of_lookupLocal ((hl' x).trans hl) ht', hb]
      simp [Bindings.union, Resolver.bindingAt_cons_of_lookupLocal hl ht,
        Resolver.bindingIn_single_self, hA])
  exact ⟨s', hrun, hb', hg', hw''⟩

/-- A namespace under a name `self` does not bind is merged into a new namespace under it. -/
theorem mergeElement_result_new (hm : MergeSpec merge fuel) (hw : WriteReady s self) {othr : Nat}
    (ho : s.nsTable? n = some othr) (hr : ReadReady s fuel othr) (ha : Apart s self othr)
    (hl : s.lookupLocal self x = none) :
    MergeResult (mergeElement merge self x n) s self (s.bindingAt self) (s.bindingIn [(x, n)]) := by
  obtain ⟨tbl, htbl, hlt⟩ := hw.ok [] self rfl
  have hself : self < s.tables.length := (hw.ok [] self rfl).lt
  obtain ⟨nm, hrun⟩ : ∃ nm, mergeElement merge self x n s =
      merge s.tables.length othr (s.withNamespace self tbl x nm) := mergeElement_namespace_new ho htbl hl
  have hcompat : Bindings.Compatible (s.bindingAt self) (s.bindingIn [(x, n)]) :=
    (Bindings.compatible_single rfl).2 fun r b c hb _ => by simp [Resolver.bindingAt_cons, hl] at hb
  refine ⟨fun _ => ?_, fun h => absurd hcompat h⟩
  rw [hrun]
  -- the state with the new empty table `T` of the namespace under `x`
  set T := s.tables.length
  set sc := s.withNamespace self tbl x nm
  have hT : sc.tables[T]? = some ⟨some self, []⟩ := Resolver.withNamespace_tables_new hself
  have hTonly : ∀ p u, sc.tableAt T p = some u → p = [] ∧ u = T := fun p u hp => by
    cases p with
    | nil => exact ⟨rfl, (Option.some.inj hp).symm⟩
    | cons y r => simp [Resolver.tableAt, Resolver.lookupLocal_empty hT] at hp
  have hTb : ∀ y r, sc.bindingAt T (y :: r) = none := fun y r => by
    simp [Resolver.bindingAt_cons, Resolver.lookupLocal_empty hT]
  obtain ⟨hrc, htc, hbc⟩ := hr.transfer (List.prefix_append _ _) fun q u hq =>
    Resolver.withNamespace_tables_old (hr.ok q u hq).lt fun h => ha [] q u (by rw [h]; rfl) hq
  have hwc : WriteReady sc T := by
    refine ⟨fun p q u hp hq => ?_, fun p u hp => ?_⟩
    · rw [(hTonly p u hp).1, (hTonly q u hq).1]
    · obtain ⟨rfl, rfl⟩ := hTonly p u hp
      exact ⟨_, hT, by simp⟩
  have hac : Apart sc T othr := fun p q u hp hq => by
    obtain ⟨rfl, rfl⟩ := hTonly p u hp
    rw [htc] at hq
    exact absurd (hr.ok q _ hq).lt (lt_irrefl _)
  have hcc : Bindings.Compatible (sc.bindingAt T) (sc.bindingAt othr) := fun p b c hb hc => by
    cases p with
    | nil => exact (Option.some.inj hb).symm.trans (Option.some.inj hc)
    | cons y r => simp [hTb] at hb
  obtain ⟨s', hrun', hb', hg', hw'⟩ := (hm hwc hrc hac).1 hcc
  refine ⟨s', hrun', ?_⟩
  -- the merge into `T` leaves the tables outside the tree of `T` as `sc` has them
  have hscl : sc.tables.length = T + 1 := Resolver.withNamespace_length
  have hkeep : ∀ u, u < T → u ≠ self → s'.tables[u]? = s.tables[u]? := fun u hu hne =>
    (hg'.other u (by omega) fun p hp => by have := (hTonly p u hp).2; omega).trans
      (Resolver.withNamespace_tables_old hu hne)
  have hselfc : s'.tables[self]? = sc.tables[self]? :=
    hg'.other self (by omega) fun p hp => by have := (hTonly p self hp).2; omega
  have hls : ∀ y, s'.lookupLocal self y = sc.lookupLocal self y := fun y => by
    simp only [Resolver.lookupLocal, hselfc]
  have hlx : s'.lookupLocal self x = some s.symbols.length := by
    rw [hls, Resolver.withNamespace_lookupLocal_self htbl hl, if_pos rfl]
  have hns : s'.nsTable? s.symbols.length = some T :=
    (Resolver.nsTable?_of_prefix hg'.symbols (by simp [sc])).trans Resolver.withNamespace_nsTable?
  have hsub : ∀ r, s'.tableAt self (x :: r) = s'.tableAt T r := fun r =>
    Resolver.tableAt_cons_of_lookupLocal hlx hns
  exact Grows.of_branch s' hw ((List.prefix_append _ _).trans hg'.symbols) (by have := hg'.length; omega)
    (fun u hu hn => hkeep u hu fun h => hn [] (by rw [h]; rfl))
    (fun y hy => by rw [hls, Resolver.withNamespace_lookupLocal_self htbl hl, if_neg hy])
    (fun y _ r u h => hkeep u (hw.ok _ u h).lt (hw.ne_self h))
    ((Resolver.withNamespace_tableOk htbl hlt).mono hg'.symbols hselfc)
    (fun r u h => by
      rw [hsub] at h
      rcases hg'.fresh r u h with h | h
      · exact .inr (hTonly r u h).2.ge
      · exact .inr (by omega))
    (fun r r' u h h' _ => by
      rw [hsub] at h h'
      exact hw'.tree r r' u h h')
    (fun r u h => by
      rw [hsub] at h
      exact hw'.ok r u h)
    (fun y r hy => Resolver.bindingIn_single_ne hy)
    (fun r => by
      rw [Resolver.bindingAt_cons_of_lookupLocal hlx hns, hb']
      simp only [Bindings.union, hbc, Resolver.bindingAt_cons, hl, Option.none_bind,
        Resolver.bindingIn_single_self, Resolver.bindingBelow, ho, Option.none_or]
      cases r with
      | nil => rfl
      | cons y r => simp [hTb])

/-- Every element merges as a merge of its table would: a namespace element given a tree ready
to be read and apart from `self`. -/
theorem mergeElement_result (hm : MergeSpec merge fuel) (hw : WriteReady s self)
    (hn : n < s.symbols.length)
    (hns : ∀ t, s.nsTable? n = some t → ReadReady s fuel t ∧ Apart s self t) :
    MergeResult (mergeElement merge self x n) s self (s.bindingAt self) (s.bindingIn [(x, n)]) := by
  rcases ho : s.nsTable? n with _ | othr
  · exact mergeElement_result_symbol hw hn ho
  obtain ⟨hr, ha⟩ := hns othr ho
  rcases hl : s.lookupLocal self x with _ | m
  · exact mergeElement_result_new hm hw ho hr ha hl
  rcases ht : s.nsTable? m with _ | t
  · exact mergeElement_result_clash hw ho hl ht
  · exact mergeElement_result_hit hm hw ho hr ha hl ht

end

/-! ## The loop and the recursion -/

/-- Every element of `es` is a symbol, and every namespace among them has a tree ready to be
read, apart from the tree of `self`. -/
def ElementsReady (s : Resolver) (fuel self : Nat) (es : List (String × Nat)) : Prop :=
  ∀ e ∈ es, e.2 < s.symbols.length ∧
    ∀ t, s.nsTable? e.2 = some t → ReadReady s fuel t ∧ Apart s self t

theorem Resolver.bindingIn_frame {s s' : Resolver} {es : List (String × Nat)}
    (hsym : s.symbols <+: s'.symbols) (hlt : ∀ e ∈ es, e.2 < s.symbols.length)
    (hb : ∀ e ∈ es, ∀ t, s.nsTable? e.2 = some t → s'.bindingAt t = s.bindingAt t) :
    s'.bindingIn es = s.bindingIn es := by
  funext p
  cases p with
  | nil => rfl
  | cons y r =>
    simp only [Resolver.bindingIn]
    rcases hf : es.find? (·.1 == y) with _ | e
    · simp only [hf, Option.map_none', Option.none_bind]
    have he := List.mem_of_find?_eq_some hf
    simp only [hf, Option.map_some', Option.some_bind, Resolver.bindingBelow,
      Resolver.nsTable?_of_prefix hsym (hlt e he)]
    rcases ht : s.nsTable? e.2 with _ | t
    · simp only [ht]
    · simp only [ht, hb e he t ht]

/-- Elements ready to be merged stay ready, and bind the same, while a merge grows `self`. -/
theorem ElementsReady.grows {s s' : Resolver} {fuel self : Nat} {es : List (String × Nat)}
    (h : ElementsReady s fuel self es) (hg : Grows s s' self) :
    ElementsReady s' fuel self es ∧ s'.bindingIn es = s.bindingIn es := by
  refine ⟨fun e he => ⟨Nat.lt_of_lt_of_le (h e he).1 hg.symbols.length_le, fun t ht => ?_⟩,
    Resolver.bindingIn_frame hg.symbols (fun e he => (h e he).1) fun e he t ht => ?_⟩
  · rw [Resolver.nsTable?_of_prefix hg.symbols (h e he).1] at ht
    obtain ⟨hr, ha, -, -⟩ := hg.keeps ((h e he).2 t ht).1 ((h e he).2 t ht).2
    exact ⟨hr, ha⟩
  · exact (hg.keeps ((h e he).2 t ht).1 ((h e he).2 t ht).2).2.2.2

/-- The tree of a namespace a table ready to be read binds is ready, one namespace less deep. -/
theorem ReadReady.child {s : Resolver} {fuel othr m t : Nat} {x : String}
    (hr : ReadReady s (fuel + 1) othr) (hl : s.lookupLocal othr x = some m)
    (ht : s.nsTable? m = some t) : ReadReady s fuel t := by
  have hsub := fun q => Resolver.tableAt_cons_of_lookupLocal (p := q) hl ht
  exact ⟨fun p u hp => hr.ok _ u ((hsub p).trans hp),
    fun p u tbl hp h => hr.nodup _ u tbl ((hsub p).trans hp) h,
    fun p u hp => Nat.lt_of_succ_lt_succ (hr.depth _ u ((hsub p).trans hp))⟩

theorem Apart.child {s : Resolver} {self othr m t : Nat} {x : String} (ha : Apart s self othr)
    (hl : s.lookupLocal othr x = some m) (ht : s.nsTable? m = some t) : Apart s self t :=
  fun p q u hp hq => ha p (x :: q) u hp ((Resolver.tableAt_cons_of_lookupLocal hl ht).trans hq)

/-- The elements of a table ready to be read are ready to be merged, one namespace less deep. -/
theorem ReadReady.elements {s : Resolver} {fuel self othr : Nat} {tbl : SymbolTable}
    (hr : ReadReady s (fuel + 1) othr) (ha : Apart s self othr) (htbl : s.tables[othr]? = some tbl) :
    ElementsReady s fuel self tbl.elements := by
  obtain ⟨tbl', htbl', hlt⟩ := hr.ok [] othr rfl
  obtain rfl : tbl' = tbl := Option.some.inj (htbl'.symm.trans htbl)
  intro e he
  have hl := Resolver.lookupLocal_of_mem htbl (hr.nodup [] othr tbl' rfl htbl) he
  exact ⟨hlt e he, fun t ht => ⟨hr.child hl ht, ha.child hl ht⟩⟩

theorem tableElements_ok {s : Resolver} {t : Nat} {tbl : SymbolTable}
    (htbl : s.tables[t]? = some tbl) : tableElements t s = .ok (tbl.elements, s) := by
  simp [tableElements, htbl, bind, StateT.bind, get, getThe, MonadStateOf.get, StateT.get,
    pure, StateT.pure, Except.pure, Except.bind]

section
variable {merge : Nat → Nat → ResolveM Unit} {fuel self : Nat}

/-- The loop over elements that bind each name once, each ready to be merged, merges their
bindings. -/
theorem mergeElements_result (hm : MergeSpec merge fuel) :
    ∀ {s : Resolver} {es : List (String × Nat)}, WriteReady s self → (es.map Prod.fst).Nodup →
      ElementsReady s fuel self es →
      MergeResult (mergeElements merge self es) s self (s.bindingAt self) (s.bindingIn es)
  | s, [], hw, _, _ => by
    have hle : ∀ p b, s.bindingIn [] p = some b → s.bindingAt self p = some b := fun p b h => by
      cases p with
      | nil => exact h
      | cons y r => simp [Resolver.bindingIn] at h
    exact ⟨fun _ => ⟨s, rfl, (Bindings.union_eq_left hle).symm, Grows.refl s self, hw⟩,
      fun h => absurd (fun p b c hb hc => Option.some.inj ((hb.symm.trans (hle p c hc)))) h⟩
  | s, (x, n) :: rest, hw, hnd, hready => by
    have hx : x ∉ rest.map Prod.fst := (List.nodup_cons.1 hnd).1
    have h₁ := mergeElement_result (x := x) hm hw (hready _ (List.mem_cons_self _ _)).1
      (hready _ (List.mem_cons_self _ _)).2
    have hA := Resolver.bindingIn_single_compatible (s := s) (n := n) hx
    rw [Resolver.bindingIn_cons hx]
    by_cases hc₁ : Bindings.Compatible (s.bindingAt self) (s.bindingIn [(x, n)])
    · obtain ⟨s₁, hrun₁, hb₁, hg₁, hw₁⟩ := h₁.1 hc₁
      obtain ⟨hready₁, hR⟩ := ElementsReady.grows (fun e he => hready e (List.mem_cons_of_mem _ he)) hg₁
      have ih := mergeElements_result hm hw₁ (List.nodup_cons.1 hnd).2 hready₁
      rw [hb₁, hR] at ih
      have hrun : mergeElements merge self ((x, n) :: rest) s = mergeElements merge self rest s₁ :=
        ResolveM.bind_of_ok hrun₁
      have hiff := Bindings.compatible_union_right_iff hc₁ hA
      refine ⟨fun hc => ?_, fun hc => ?_⟩
      · obtain ⟨s₂, hrun₂, hb₂, hg₂, hw₂⟩ := ih.1 (hiff.1 hc)
        exact ⟨s₂, hrun.trans hrun₂, hb₂.trans Bindings.union_assoc, hg₁.trans hg₂, hw₂⟩
      · obtain ⟨name, h⟩ := ih.2 fun h => hc (hiff.2 h)
        exact ⟨name, hrun.trans h⟩
    · obtain ⟨name, h⟩ := h₁.2 hc₁
      exact ⟨fun hc => absurd (Bindings.Compatible.of_union_right hA hc) hc₁,
        fun _ => ⟨name, ResolveM.bind_of_error h⟩⟩

end

/-- `merge_symbol_table` merges the bindings of a table ready to be read into a tree apart from
it: when no path is bound differently it succeeds and binds their union, growing only the tree
it writes, and otherwise it stops with a redeclaration. -/
theorem mergeSymbolTable_spec : ∀ fuel, MergeSpec (mergeSymbolTable fuel) fuel
  | 0 => fun _ othr _ _ hr _ => absurd (hr.depth [] othr rfl) (Nat.not_lt_zero _)
  | fuel + 1 => fun self othr s hw hr ha => by
    obtain ⟨tbl, htbl, _⟩ := hr.ok [] othr rfl
    have hrun : mergeSymbolTable (fuel + 1) self othr s =
        mergeElements (mergeSymbolTable fuel) self tbl.elements s :=
      ResolveM.bind_of_ok (tableElements_ok htbl)
    unfold MergeResult
    rw [hrun, Resolver.bindingAt_eq_bindingIn htbl]
    exact mergeElements_result (mergeSymbolTable_spec fuel) hw (hr.nodup [] othr tbl rfl htbl)
      (hr.elements ha htbl)

/-! ## Merging what is bound already -/

section
variable {merge : Nat → Nat → ResolveM Unit} {fuel self : Nat} {s : Resolver}

/-- An element whose bindings `self` has under its name already changes nothing. -/
theorem mergeElement_noop {n : Nat} {x : String}
    (hm : ∀ t othr, ReadReady s fuel othr →
      (∀ p b, s.bindingAt othr p = some b → s.bindingAt t p = some b) → merge t othr s = .ok ((), s))
    (hn : n < s.symbols.length) (hns : ∀ t, s.nsTable? n = some t → ReadReady s fuel t)
    (hb : ∀ r b, s.bindingBelow n r = some b → s.bindingAt self (x :: r) = some b) :
    mergeElement merge self x n s = .ok ((), s) := by
  have hx : ∀ b, s.bindingBelow n [] = some b →
      ∃ m, s.lookupLocal self x = some m ∧ s.bindingBelow m [] = some b := fun b h =>
    Option.bind_eq_some.1 (hb [] b h)
  rcases ho : s.nsTable? n with _ | othr
  · -- a symbol: `self` binds the name to it already
    obtain ⟨m, hl, hbm⟩ := hx (.symbol n) (by simp [Resolver.bindingBelow, ho])
    obtain rfl : m = n := by
      rcases ht : s.nsTable? m with _ | t <;>
        simp [Resolver.bindingBelow, ht, Resolver.bindingAt] at hbm
      exact hbm
    simp [mergeElement_symbol hn ho, hl, pure, StateT.pure, Except.pure]
  · -- a namespace: `self` binds the name to a namespace with its bindings already
    obtain ⟨m, hl, hbm⟩ := hx .namespace_ (by simp [Resolver.bindingBelow, ho, Resolver.bindingAt])
    rcases ht : s.nsTable? m with _ | t
    · simp [Resolver.bindingBelow, ht] at hbm
    rw [mergeElement_namespace_hit ho hl ht]
    refine hm t othr (hns othr ho) fun p b h => ?_
    rw [← Resolver.bindingAt_cons_of_lookupLocal hl ht]
    exact hb p b (by simp [Resolver.bindingBelow, ho, h])

theorem mergeElements_noop
    (hm : ∀ t othr, ReadReady s fuel othr →
      (∀ p b, s.bindingAt othr p = some b → s.bindingAt t p = some b) → merge t othr s = .ok ((), s)) :
    ∀ {es : List (String × Nat)}, (∀ e ∈ es, e.2 < s.symbols.length ∧
      (∀ t, s.nsTable? e.2 = some t → ReadReady s fuel t) ∧
      ∀ r b, s.bindingBelow e.2 r = some b → s.bindingAt self (e.1 :: r) = some b) →
      mergeElements merge self es s = .ok ((), s)
  | [], _ => rfl
  | _ :: _, h =>
    have ⟨hn, hns, hb⟩ := h _ (List.mem_cons_self _ _)
    (ResolveM.bind_of_ok (mergeElement_noop hm hn hns hb)).trans
      (mergeElements_noop hm fun e he => h e (List.mem_cons_of_mem _ he))

end

/-- A merge of a table whose bindings `self` has already changes nothing. -/
theorem mergeSymbolTable_noop {s : Resolver} : ∀ {fuel self othr : Nat}, ReadReady s fuel othr →
    (∀ p b, s.bindingAt othr p = some b → s.bindingAt self p = some b) →
    mergeSymbolTable fuel self othr s = .ok ((), s)
  | 0, _, othr, hr, _ => absurd (hr.depth [] othr rfl) (Nat.not_lt_zero _)
  | fuel + 1, self, othr, hr, hle => by
    obtain ⟨tbl, htbl, hlt⟩ := hr.ok [] othr rfl
    refine (ResolveM.bind_of_ok (tableElements_ok htbl)).trans
      (mergeElements_noop (fun _ _ hr' hle' => mergeSymbolTable_noop hr' hle') fun e he => ?_)
    have hl := Resolver.lookupLocal_of_mem htbl (hr.nodup [] othr tbl rfl htbl) he
    exact ⟨hlt e he, fun t ht => hr.child hl ht,
      fun r b h => hle (e.1 :: r) b (by rwa [Resolver.bindingAt_cons, hl, Option.some_bind])⟩

/-! ## Tables without namespaces -/

section
variable {s : Resolver} {t : Nat} {tbl : SymbolTable}
  (htbl : s.tables[t]? = some tbl) (hflat : ∀ e ∈ tbl.elements, s.nsTable? e.2 = none)
include htbl hflat

/-- A table none of whose elements is a namespace is the only table of its tree. -/
theorem Resolver.tableAt_flat : ∀ p u, s.tableAt t p = some u → p = [] ∧ u = t
  | [], _, h => ⟨rfl, (Option.some.inj h).symm⟩
  | _ :: _, _, h => by
    obtain ⟨m, hl, h⟩ := Option.bind_eq_some.1 h
    obtain ⟨tbl', htbl', hmem⟩ := Resolver.lookupLocal_mem hl
    obtain rfl : tbl' = tbl := Option.some.inj (htbl'.symm.trans htbl)
    simp [hflat _ hmem] at h

end

end Sunder
