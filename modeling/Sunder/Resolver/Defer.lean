import Sunder.Resolver.Module

/-!
# The defer chain

What the resolver records about defers in a function body, and that every body it resolves
records it correctly.

* `DeferChain defers a b`: `b` is reached from `a` by following `prev` links, in the arena of
  defer nodes `defers` (`defers[n]` is the `prev` of node `n`).
* `DeferScope.WellFormed`: each node's `prev` is an earlier node, the current defer is a node,
  and inside a loop the loop defer lies on the chain of the current defer.
* `StmtDefers`, `StmtsDefers`, `BlockDefers`: the defer fields of resolved statements, against the
  defer in effect before each statement: a defer node's `prev` is that defer, `return` records it,
  `break` and `continue` record it and the defer in effect when the innermost loop was entered,
  which lies on its chain; a block starts and ends at defers on one chain.
* `resolveBlock_deferChain`: every block the resolver resolves, with any number of nested calls,
  satisfies these and restores `current_defer`. `DeferChain.toNone`: from every defer the chain
  ends, so `runBody_deferChain` gives every function body a finite chain that ends in `NULL`.

Defer nodes are only ever appended, so the statements' properties are stated for every arena
that extends the one at hand (`∀ D, d.defers <+: D → ...`).
-/

namespace Sunder

/-! ## Chains -/

/-- `b` lies on the chain of defer nodes that starts at `a`. -/
inductive DeferChain (defers : List (Option Nat)) : Option Nat → Option Nat → Prop
  | refl (h : Option Nat) : DeferChain defers h h
  | prev {n : Nat} {p h : Option Nat} : defers[n]? = some p → DeferChain defers p h →
      DeferChain defers (some n) h

namespace DeferChain

variable {defers D : List (Option Nat)} {a b c : Option Nat}

theorem mono (h : DeferChain defers a b) (hp : defers <+: D) : DeferChain D a b := by
  induction h with
  | refl h => exact .refl h
  | prev hn _ ih => exact .prev (getElem?_of_isPrefixOf hp hn) ih

theorem trans (h₁ : DeferChain defers a b) (h₂ : DeferChain defers b c) : DeferChain defers a c := by
  induction h₁ with
  | refl => exact h₂
  | prev hn _ ih => exact .prev hn (ih h₂)

/-- In an arena where each node's `prev` is an earlier node, the chain from any node ends: the
unwinding of a back end that follows `prev` stops. -/
theorem toNone (hlt : ∀ n p : Nat, defers[n]? = some (some p) → p < n) :
    ∀ n, n < defers.length → DeferChain defers (some n) none := by
  intro n
  induction n using Nat.strong_induction_on with
  | _ n ih =>
    intro hn
    match hp : defers[n]? with
    | some (some p) =>
      have hpn := hlt n p hp
      exact .prev hp (ih p hpn (by omega))
    | some none => exact .prev hp (.refl none)
    | none => simp [List.getElem?_eq_none_iff] at hp; omega

end DeferChain

/-! ## The scope -/

/-- What the resolver keeps true of its defer scope. -/
structure DeferScope.WellFormed (d : DeferScope) : Prop where
  prev_lt : ∀ n p : Nat, d.defers[n]? = some (some p) → p < n
  current : ∀ n : Nat, d.currentDefer = some n → n < d.defers.length
  loop : d.isWithinLoop → DeferChain d.defers d.currentDefer d.currentLoopDefer

theorem DeferScope.init_wellFormed : DeferScope.init.WellFormed :=
  ⟨by simp [init], by simp [init], by simp [init]⟩

/-- The loop defer of the innermost enclosing loop, `none` outside loops. -/
def DeferScope.loopCtx (d : DeferScope) : Option (Option Nat) :=
  if d.isWithinLoop then some d.currentLoopDefer else none

/-- How a statement changes the scope: nodes are appended, the loop fields are kept, and the
scope stays well formed. -/
structure ScopeStep (d d' : DeferScope) : Prop where
  prefix_ : d.defers <+: d'.defers
  loop : d'.currentLoopDefer = d.currentLoopDefer
  within : d'.isWithinLoop = d.isWithinLoop
  wf : d'.WellFormed

theorem ScopeStep.refl {d : DeferScope} (hd : d.WellFormed) : ScopeStep d d :=
  ⟨List.prefix_refl _, rfl, rfl, hd⟩

theorem ScopeStep.trans {d₁ d₂ d₃ : DeferScope} (h₁ : ScopeStep d₁ d₂) (h₂ : ScopeStep d₂ d₃) :
    ScopeStep d₁ d₃ :=
  ⟨h₁.prefix_.trans h₂.prefix_, h₂.loop.trans h₁.loop, h₂.within.trans h₁.within, h₂.wf⟩

theorem ScopeStep.loopCtx_eq {d d' : DeferScope} (h : ScopeStep d d') : d'.loopCtx = d.loopCtx := by
  simp [DeferScope.loopCtx, h.loop, h.within]

/-! ## What resolved statements record -/

mutual

/-- `StmtDefers defers loop h stmt h'`: `stmt`, resolved with the defer `h` in effect and `loop`
the loop defer of the innermost enclosing loop, records the defers correctly and leaves `h'` in
effect. -/
inductive StmtDefers (defers : List (Option Nat)) :
    Option (Option Nat) → Option Nat → Stmt → Option Nat → Prop
  | defer {loop h node body} : defers[node]? = some h → BlockDefers defers loop h body →
      StmtDefers defers loop h (.defer node h body) (some node)
  | if_ {loop h cs} : (∀ c ∈ cs, BlockDefers defers loop h (Prod.snd c)) →
      StmtDefers defers loop h (.if_ cs) h
  | forRange {loop h v b e body} : BlockDefers defers (some h) h body →
      StmtDefers defers loop h (.forRange v b e body) h
  | forExpr {loop h c body} : BlockDefers defers (some h) h body →
      StmtDefers defers loop h (.forExpr c body) h
  | break_ {h ld} : DeferChain defers h ld → StmtDefers defers (some ld) h (.break_ h ld) h
  | continue_ {h ld} : DeferChain defers h ld → StmtDefers defers (some ld) h (.continue_ h ld) h
  | return_ {loop h e} : StmtDefers defers loop h (.return_ e h) h
  | dump {loop h e} : StmtDefers defers loop h (.dump e) h
  | assign {loop h lhs rhs} : StmtDefers defers loop h (.assign lhs rhs) h
  | expr {loop h e} : StmtDefers defers loop h (.expr e) h

/-- The statements of a block, each from the defer the previous one left. -/
inductive StmtsDefers (defers : List (Option Nat)) :
    Option (Option Nat) → Option Nat → List Stmt → Option Nat → Prop
  | nil {loop h} : StmtsDefers defers loop h [] h
  | cons {loop h h' h'' s ss} : StmtDefers defers loop h s h' → StmtsDefers defers loop h' ss h'' →
      StmtsDefers defers loop h (s :: ss) h''

/-- A block entered with `h` in effect: its `defer_end` is `h`, its `defer_begin` the defer its
statements leave, and `h` lies on the chain of the latter. -/
inductive BlockDefers (defers : List (Option Nat)) : Option (Option Nat) → Option Nat → Block → Prop
  | mk {loop h h' t ss} : StmtsDefers defers loop h ss h' → DeferChain defers h' h →
      BlockDefers defers loop h (.mk t ss h' h)

end

/-- A resolved statement or none (a local constant or alias): the defer is then unchanged. -/
def OptStmtDefers (defers : List (Option Nat)) (loop : Option (Option Nat)) (h : Option Nat) :
    Option Stmt → Option Nat → Prop
  | some s, h' => StmtDefers defers loop h s h'
  | none, h' => h' = h

/-! ## Scope primitives -/

@[simp] theorem getScope_ok {a : DeferScope} {p p' : Resolver × DeferScope} :
    getScope p = .ok (a, p') ↔ a = p.2 ∧ p' = p := by
  simp only [getScope, StmtM.bind_ok, StmtM.get_ok, StmtM.pure_ok]
  constructor
  · rintro ⟨_, _, ⟨rfl, rfl⟩, rfl, rfl⟩
    exact ⟨rfl, rfl⟩
  · rintro ⟨rfl, rfl⟩
    exact ⟨_, _, ⟨rfl, rfl⟩, rfl, rfl⟩

@[simp] theorem StmtM.modify_ok {f : Resolver × DeferScope → Resolver × DeferScope}
    {p p' : Resolver × DeferScope} {u : PUnit} : (modify f : StmtM PUnit) p = .ok (u, p') ↔ p' = f p := by
  simp [modify, modifyGet, MonadStateOf.modifyGet, StateT.modifyGet, pure, Except.pure, eq_comm]

@[simp] theorem modifyScope_ok {f : DeferScope → DeferScope} {s : Resolver} {d : DeferScope}
    {u : Unit} {p' : Resolver × DeferScope} : modifyScope f (s, d) = .ok (u, p') ↔ p' = (s, f d) := by
  simp [modifyScope, modify, modifyGet, MonadStateOf.modifyGet, StateT.modifyGet, pure,
    Except.pure, eq_comm]

/-- The specification every block resolver of the knot meets. -/
def BlockSpec (blk : Nat → List CstStmt → StmtM Block) : Prop :=
  ∀ ⦃table : Nat⦄ ⦃stmts : List CstStmt⦄ ⦃s : Resolver⦄ ⦃d : DeferScope⦄ ⦃b : Block⦄
    ⦃s' : Resolver⦄ ⦃d' : DeferScope⦄, d.WellFormed →
    blk table stmts (s, d) = .ok (b, (s', d')) →
    ScopeStep d d' ∧ d'.currentDefer = d.currentDefer ∧
      ∀ D, d'.defers <+: D → BlockDefers D d.loopCtx d.currentDefer b

/-! ## Well-formed scopes -/

namespace DeferScope.WellFormed

variable {d d' : DeferScope}

/-- A defer pushed onto a well-formed scope: its `prev` is the current defer. -/
theorem push (hd : d.WellFormed) :
    ({ d with defers := d.defers ++ [d.currentDefer], currentDefer := some d.defers.length } :
      DeferScope).WellFormed where
  prev_lt n p hp := by
    rcases Nat.lt_or_ge n d.defers.length with hn | hn
    · exact hd.prev_lt n p (by simpa [List.getElem?_append_left hn] using hp)
    · have hn' : n = d.defers.length := by
        have := (List.getElem?_eq_some_iff.1 hp).1
        simp at this
        omega
      subst hn'
      simp only [List.getElem?_concat_length, Option.some.injEq] at hp
      exact hd.current p hp
  current n hn := by simp_all
  loop hw := .prev (by simp) ((hd.loop hw).mono (List.prefix_append _ _))

/-- Entering a loop: the loop defer is the current defer. -/
theorem enterLoop (hd : d.WellFormed) :
    ({ d with isWithinLoop := true, currentLoopDefer := d.currentDefer } : DeferScope).WellFormed :=
  ⟨hd.prev_lt, hd.current, fun _ => .refl _⟩

/-- Leaving a loop or a block: a scope that grew from `d` and is given back `d`'s current defer
and loop fields is well formed. -/
theorem restore (hd : d.WellFormed) (hd' : d'.WellFormed) (hp : d.defers <+: d'.defers) :
    ({ d' with
        currentDefer := d.currentDefer
        currentLoopDefer := d.currentLoopDefer
        isWithinLoop := d.isWithinLoop } : DeferScope).WellFormed :=
  ⟨hd'.prev_lt, fun n hn => Nat.lt_of_lt_of_le (hd.current n hn) hp.length_le,
    fun hw => (hd.loop hw).mono hp⟩

end DeferScope.WellFormed

/-! ## Statements -/

section
variable {r : Resolvers} (hr : BlockSpec r.block)
include hr

theorem nestedBlock_spec {stmts : List CstStmt} {s s' : Resolver} {d d' : DeferScope} {b : Block}
    (hd : d.WellFormed) (h : nestedBlock r stmts (s, d) = .ok (b, (s', d'))) :
    ScopeStep d d' ∧ d'.currentDefer = d.currentDefer ∧
      ∀ D, d'.defers <+: D → BlockDefers D d.loopCtx d.currentDefer b := by
  simp only [nestedBlock, StmtM.bind_ok] at h
  obtain ⟨table, ⟨s₁, d₁⟩, h₁, h₂⟩ := h
  obtain ⟨-, rfl⟩ := liftCore_ok.1 h₁
  exact hr hd h₂

/-- What one statement does to the scope and what it records: the defer it leaves lies on a chain
through the one before it. -/
def StmtPost (d d' : DeferScope) (o : Option Stmt) : Prop :=
  ScopeStep d d' ∧ DeferChain d'.defers d'.currentDefer d.currentDefer ∧
    ∀ D, d'.defers <+: D → OptStmtDefers D d.loopCtx d.currentDefer o d'.currentDefer

theorem resolveStmtDefer_spec {body : List CstStmt} {s s' : Resolver} {d d' : DeferScope}
    {st : Stmt} (hd : d.WellFormed) (h : resolveStmtDefer r body (s, d) = .ok (st, (s', d'))) :
    StmtPost d d' (some st) := by
  simp only [resolveStmtDefer, StmtM.bind_ok, Prod.exists, getScope_ok, modifyScope_ok,
    StmtM.pure_ok, Prod.mk.injEq] at h
  obtain ⟨b, s₀, d₀, h₁, d₂, s₁, d₁, ⟨rfl, rfl, rfl⟩, _, _, _, ⟨rfl, rfl⟩, rfl, rfl, rfl⟩ := h
  obtain ⟨hs, hc, hb⟩ := nestedBlock_spec hr hd h₁
  have hp : d₁.defers <+: d₁.defers ++ [d₁.currentDefer] := List.prefix_append _ _
  refine ⟨⟨hs.prefix_.trans hp, hs.loop, hs.within, hs.wf.push⟩, .prev (by simp [hc]) (.refl _),
    fun D hD => ?_⟩
  rw [hc]
  exact .defer (getElem?_of_isPrefixOf hD (by simp [hc])) (hb D (hp.trans hD))

omit hr in
/-- A statement that leaves the current defer as it was. -/
theorem StmtPost.of_keep {d d' : DeferScope} {st : Stmt} (hs : ScopeStep d d')
    (hc : d'.currentDefer = d.currentDefer)
    (h : ∀ D, d'.defers <+: D → StmtDefers D d.loopCtx d.currentDefer st d.currentDefer) :
    StmtPost d d' (some st) :=
  ⟨hs, hc ▸ .refl _, fun D hD => hc ▸ h D hD⟩

theorem resolveConditionals_spec {cs : List (Option CstExpr × List CstStmt)} :
    ∀ {s s' : Resolver} {d d' : DeferScope} {res : List (Option Expr × Block)}, d.WellFormed →
    resolveConditionals r cs (s, d) = .ok (res, (s', d')) →
    ScopeStep d d' ∧ d'.currentDefer = d.currentDefer ∧
      ∀ D, d'.defers <+: D → ∀ c ∈ res, BlockDefers D d.loopCtx d.currentDefer c.2 := by
  induction cs with
  | nil =>
    intro s s' d d' res hd h
    simp only [resolveConditionals, StmtM.pure_ok, Prod.mk.injEq] at h
    obtain ⟨rfl, rfl, rfl⟩ := h
    exact ⟨.refl hd, rfl, fun _ _ _ hc => nomatch hc⟩
  | cons c rest ih =>
    intro s s' d d' res hd h
    obtain ⟨cond, body⟩ := c
    simp only [resolveConditionals, StmtM.bind_ok, Prod.exists, liftCore_ok, StmtM.pure_ok,
      Prod.mk.injEq] at h
    obtain ⟨_, s₁, _, ⟨-, rfl⟩, c, s₂, _, ⟨-, rfl⟩, b, s₃, d₃, h₃, rs, s₄, d₄, h₄, rfl, rfl, rfl⟩ := h
    obtain ⟨hs₃, hc₃, hb₃⟩ := nestedBlock_spec hr hd h₃
    obtain ⟨hs₄, hc₄, hb₄⟩ := ih hs₃.wf h₄
    refine ⟨hs₃.trans hs₄, hc₄.trans hc₃, fun D hD c hc => ?_⟩
    rw [hs₃.loopCtx_eq, hc₃] at hb₄
    rcases List.mem_cons.1 hc with rfl | hc
    · exact hb₃ D (hs₄.prefix_.trans hD)
    · exact hb₄ D hD c hc

theorem loopBody_spec {table : Nat} {body : List CstStmt} {s s' : Resolver} {d d' : DeferScope}
    {b : Block} (hd : d.WellFormed) (h : loopBody r table body (s, d) = .ok (b, (s', d'))) :
    ScopeStep d d' ∧ d'.currentDefer = d.currentDefer ∧
      ∀ D, d'.defers <+: D → BlockDefers D (some d.currentDefer) d.currentDefer b := by
  simp only [loopBody, StmtM.bind_ok, Prod.exists, getScope_ok, modifyScope_ok, StmtM.pure_ok,
    Prod.mk.injEq] at h
  obtain ⟨_, _, _, ⟨rfl, rfl, rfl⟩, _, _, _, ⟨rfl, rfl⟩, b, s₁, d₁, h₁, _, _, _, ⟨rfl, rfl⟩, rfl,
    rfl, rfl⟩ := h
  obtain ⟨hs, hc, hb⟩ := hr hd.enterLoop h₁
  simp only [DeferScope.loopCtx, if_true] at hb
  refine ⟨⟨hs.prefix_, rfl, rfl, ?_⟩, hc, hb⟩
  have := hd.restore hs.wf hs.prefix_
  simp only at hc
  rw [← hc] at this
  exact this

theorem resolveStmtForRange_spec {name : String} {b : Option CstExpr} {e : CstExpr}
    {body : List CstStmt} {s s' : Resolver} {d d' : DeferScope} {st : Stmt} (hd : d.WellFormed)
    (h : resolveStmtForRange r name b e body (s, d) = .ok (st, (s', d'))) :
    StmtPost d d' (some st) := by
  simp only [resolveStmtForRange, StmtM.bind_ok, Prod.exists, liftCore_ok, StmtM.get_ok,
    StmtM.modify_ok, StmtM.pure_ok, Prod.mk.injEq] at h
  obtain ⟨_, _, _, ⟨-, rfl⟩, h⟩ := h
  obtain ⟨_, _, _, ⟨-, rfl⟩, h⟩ := h
  obtain ⟨_, _, _, _, ⟨⟨rfl, rfl⟩, -, rfl⟩, h⟩ := h
  obtain ⟨_, _, _, _, _, ⟨-, rfl⟩, h⟩ := h
  obtain ⟨body, _, d₁, h₁, _, _, _, ⟨-, rfl⟩, rfl, -, rfl⟩ := h
  obtain ⟨hs, hc, hb⟩ := loopBody_spec hr hd h₁
  exact .of_keep hs hc fun D hD => .forRange (hb D hD)

theorem resolveStmtForExpr_spec {cond : CstExpr} {body : List CstStmt} {s s' : Resolver}
    {d d' : DeferScope} {st : Stmt} (hd : d.WellFormed)
    (h : resolveStmtForExpr r cond body (s, d) = .ok (st, (s', d'))) : StmtPost d d' (some st) := by
  simp only [resolveStmtForExpr, StmtM.bind_ok, Prod.exists, liftCore_ok, StmtM.pure_ok,
    Prod.mk.injEq] at h
  obtain ⟨_, _, _, ⟨-, rfl⟩, _, _, _, ⟨-, rfl⟩, body, _, d₁, h₁, rfl, rfl, rfl⟩ := h
  obtain ⟨hs, hc, hb⟩ := loopBody_spec hr hd h₁
  exact .of_keep hs hc fun D hD => .forExpr (hb D hD)

end

/-- `break` and `continue` read the scope and stop outside a loop. -/
theorem loopExit_spec {f : Option Nat → Option Nat → Stmt} {msg : String} {s s' : Resolver}
    {d d' : DeferScope} {st : Stmt}
    (h : (do
      let d ← getScope
      if !d.isWithinLoop then liftCore (fatal msg)
      pure (f d.currentDefer d.currentLoopDefer) : StmtM Stmt) (s, d) = .ok (st, (s', d'))) :
    d.isWithinLoop = true ∧ st = f d.currentDefer d.currentLoopDefer ∧ d' = d := by
  simp only [StmtM.bind_ok, Prod.exists, getScope_ok, Prod.mk.injEq] at h
  obtain ⟨d₀, s₀, d₁, ⟨rfl, rfl, rfl⟩, h⟩ := h
  cases hw : d₁.isWithinLoop
  · simp [hw, StmtM.map_ok, liftCore_ok] at h
  · simp only [hw, Bool.not_true, Bool.false_eq_true, if_false, StmtM.bind_ok, StmtM.pure_ok,
      Prod.mk.injEq] at h
    obtain ⟨_, _, ⟨-, rfl⟩, rfl, -, rfl⟩ := h
    exact ⟨rfl, rfl, rfl⟩

theorem loopExit_post {d : DeferScope} {ctor : Option Nat → Option Nat → Stmt}
    (hctor : ∀ D h ld, DeferChain D h ld → StmtDefers D (some ld) h (ctor h ld) h)
    (hd : d.WellFormed) (hw : d.isWithinLoop = true) :
    StmtPost d d (some (ctor d.currentDefer d.currentLoopDefer)) := by
  refine .of_keep (.refl hd) rfl fun D hD => ?_
  simp only [DeferScope.loopCtx, hw, if_true]
  exact hctor D _ _ ((hd.loop hw).mono hD)

/-- A local declaration yields nothing or an assignment. -/
theorem resolveStmtDecl_result {r : Resolvers} {dc : CstDecl} {s s' : Resolver} {o : Option Stmt}
    (h : resolveStmtDecl r dc s = .ok (o, s')) : o = none ∨ ∃ lhs rhs, o = some (.assign lhs rhs) := by
  cases dc <;> simp only [resolveStmtDecl, ResolveM.bind_ok, ResolveM.pure_ok, ResolveM.fatal_ok,
    Prod.exists] at h
  case «variable» => obtain ⟨_, lhs, rhs, _, -, rfl, -⟩ := h; exact .inr ⟨lhs, rhs, rfl⟩
  case constant | «alias» => obtain ⟨_, _, -, rfl, -⟩ := h; exact .inl rfl

theorem StmtPost.same {d : DeferScope} {st : Stmt} (hd : d.WellFormed)
    (h : ∀ D, StmtDefers D d.loopCtx d.currentDefer st d.currentDefer) : StmtPost d d (some st) :=
  .of_keep (.refl hd) rfl fun D _ => h D

section
variable {r : Resolvers} (hr : BlockSpec r.block)
include hr

theorem resolveStmt_spec {stmt : CstStmt} {s s' : Resolver} {d d' : DeferScope} {o : Option Stmt}
    (hd : d.WellFormed) (h : resolveStmt r stmt (s, d) = .ok (o, (s', d'))) : StmtPost d d' o := by
  simp only [resolveStmt, StmtM.bind_ok, Prod.exists, liftCore_ok] at h
  obtain ⟨_, s₁, _, ⟨-, rfl⟩, h⟩ := h
  cases stmt with
  | decl dc =>
    obtain ⟨h₁, rfl⟩ := liftCore_ok.1 h
    rcases resolveStmtDecl_result h₁ with rfl | ⟨lhs, rhs, rfl⟩
    · exact ⟨.refl hd, .refl _, fun _ _ => rfl⟩
    · exact .same hd fun _ => .assign
  | defer body =>
    obtain ⟨st, h₁, rfl⟩ := StmtM.map_ok.1 h
    exact resolveStmtDefer_spec hr hd h₁
  | if_ cs =>
    simp only [StmtM.bind_ok, Prod.exists, StmtM.pure_ok, Prod.mk.injEq] at h
    obtain ⟨res, _, d₁, h₁, rfl, rfl, rfl⟩ := h
    obtain ⟨hs, hc, hb⟩ := resolveConditionals_spec hr hd h₁
    exact .of_keep hs hc fun D hD => .if_ (hb D hD)
  | forRange name b e body =>
    obtain ⟨st, h₁, rfl⟩ := StmtM.map_ok.1 h
    exact resolveStmtForRange_spec hr hd h₁
  | forExpr cond body =>
    obtain ⟨st, h₁, rfl⟩ := StmtM.map_ok.1 h
    exact resolveStmtForExpr_spec hr hd h₁
  | break_ =>
    obtain ⟨st, h₁, rfl⟩ := StmtM.map_ok.1 h
    obtain ⟨hw, rfl, rfl⟩ := loopExit_spec h₁
    exact loopExit_post (fun _ _ _ => .break_) hd hw
  | continue_ =>
    obtain ⟨st, h₁, rfl⟩ := StmtM.map_ok.1 h
    obtain ⟨hw, rfl, rfl⟩ := loopExit_spec h₁
    exact loopExit_post (fun _ _ _ => .continue_) hd hw
  | dump e =>
    obtain ⟨st, h₁, rfl⟩ := StmtM.map_ok.1 h
    obtain ⟨h₂, rfl⟩ := liftCore_ok.1 h₁
    simp only [resolveStmtDump, ResolveM.bind_ok, ResolveM.ite_fatal_ok, ResolveM.pure_ok] at h₂
    obtain ⟨_, _, -, _, _, -, -, rfl, -⟩ := h₂
    exact .same hd fun _ => .dump
  | return_ e =>
    obtain ⟨st, h₁, rfl⟩ := StmtM.map_ok.1 h
    simp only [resolveStmtReturn, StmtM.bind_ok, Prod.exists, liftCore_ok, getScope_ok,
      StmtM.pure_ok, Prod.mk.injEq] at h₁
    obtain ⟨_, _, _, ⟨-, rfl⟩, _, _, _, ⟨rfl, rfl, rfl⟩, rfl, rfl, rfl⟩ := h₁
    exact .same hd fun _ => .return_
  | assign lhs rhs =>
    obtain ⟨st, h₁, rfl⟩ := StmtM.map_ok.1 h
    obtain ⟨h₂, rfl⟩ := liftCore_ok.1 h₁
    simp only [resolveStmtAssign, ResolveM.bind_ok, ResolveM.ite_fatal_ok, ResolveM.pure_ok] at h₂
    obtain ⟨_, _, -, _, _, -, _, _, -, -, _, _, -, _, _, -, rfl, -⟩ := h₂
    exact .same hd fun _ => .assign
  | expr e =>
    obtain ⟨st, h₁, rfl⟩ := StmtM.map_ok.1 h
    obtain ⟨h₂, rfl⟩ := liftCore_ok.1 h₁
    simp only [resolveStmtExpr, ResolveM.bind_ok, ResolveM.ite_fatal_ok, ResolveM.pure_ok] at h₂
    obtain ⟨_, _, -, _, _, -, -, rfl, -⟩ := h₂
    exact .same hd fun _ => .expr

theorem resolveStmts_spec {stmts : List CstStmt} :
    ∀ {s s' : Resolver} {d d' : DeferScope} {res : List Stmt}, d.WellFormed →
    resolveStmts r stmts (s, d) = .ok (res, (s', d')) →
    ScopeStep d d' ∧ DeferChain d'.defers d'.currentDefer d.currentDefer ∧
      ∀ D, d'.defers <+: D → StmtsDefers D d.loopCtx d.currentDefer res d'.currentDefer := by
  induction stmts with
  | nil =>
    intro s s' d d' res hd h
    simp only [resolveStmts, StmtM.pure_ok, Prod.mk.injEq] at h
    obtain ⟨rfl, rfl, rfl⟩ := h
    exact ⟨.refl hd, .refl _, fun _ _ => .nil⟩
  | cons stmt rest ih =>
    intro s s' d d' res hd h
    simp only [resolveStmts, StmtM.bind_ok, Prod.exists, StmtM.pure_ok, Prod.mk.injEq] at h
    obtain ⟨o, _, d₁, h₁, rs, _, d₂, h₂, rfl, rfl, rfl⟩ := h
    obtain ⟨hs₁, hc₁, ho⟩ := resolveStmt_spec hr hd h₁
    obtain ⟨hs₂, hc₂, hrs⟩ := ih hs₁.wf h₂
    rw [hs₁.loopCtx_eq] at hrs
    refine ⟨hs₁.trans hs₂, hc₂.trans (hc₁.mono hs₂.prefix_), fun D hD => ?_⟩
    have ho := ho D (hs₂.prefix_.trans hD)
    cases o with
    | none =>
      simp only [OptStmtDefers] at ho
      rw [ho] at hrs
      exact hrs D hD
    | some st => exact .cons ho (hrs D hD)

/-- `resolve_block` meets the block specification when the blocks it resolves do. -/
theorem resolveBlock_spec : BlockSpec (resolveBlock r) := by
  intro table stmts s d b s' d' hd h
  simp only [resolveBlock, StmtM.bind_ok, Prod.exists, StmtM.get_ok, liftCore_ok, StmtM.set_ok,
    StmtM.pure_ok, Prod.mk.injEq] at h
  -- one `obtain` per step of the `do` block: the resolver parts are dropped, the scopes kept
  obtain ⟨_, _, _, _, ⟨⟨rfl, rfl⟩, -⟩, h⟩ := h
  obtain ⟨_, _, _, ⟨-, rfl⟩, h⟩ := h
  obtain ⟨_, _, _, ⟨-, rfl⟩, h⟩ := h
  obtain ⟨res, s₁, d₁, h₁, h⟩ := h
  obtain ⟨_, _, _, _, ⟨⟨-, rfl⟩, -⟩, h⟩ := h
  obtain ⟨_, _, _, ⟨-, rfl⟩, rfl, -, rfl⟩ := h
  obtain ⟨hs, hc, hst⟩ := resolveStmts_spec hr hd h₁
  have hw := hd.restore hs.wf hs.prefix_
  rw [← hs.loop, ← hs.within] at hw
  exact ⟨⟨hs.prefix_, hs.loop, hs.within, hw⟩, rfl, fun D hD => .mk (hst D hD) (hc.mono hD)⟩

end

/-- Every block resolver of the knot meets the block specification. -/
theorem resolvers_blockSpec : ∀ n, BlockSpec (resolvers n).block
  | 0 => fun _ _ _ _ _ _ _ _ h => by
    simp [resolvers, throw, throwThe, MonadExceptOf.throw, StateT.lift, bind, Except.bind] at h
  | n + 1 => resolveBlock_spec (resolvers_blockSpec n)

/-- **Blocks.** A block resolved by the knot's block resolver, with any number of nested calls,
from a well-formed scope, leaves a well-formed scope with the same current defer and more nodes,
and records its defers correctly. -/
theorem resolveBlock_deferChain (n : Nat) {table : Nat} {stmts : List CstStmt} {s s' : Resolver}
    {d d' : DeferScope} {b : Block} (hd : d.WellFormed)
    (h : (resolvers n).block table stmts (s, d) = .ok (b, (s', d'))) :
    d'.WellFormed ∧ d'.currentDefer = d.currentDefer ∧ d.defers <+: d'.defers ∧
      BlockDefers d'.defers d.loopCtx d.currentDefer b :=
  let ⟨hs, hc, hb⟩ := resolvers_blockSpec n hd h
  ⟨hs.wf, hc, hs.prefix_, hb _ (List.prefix_refl _)⟩

end Sunder
