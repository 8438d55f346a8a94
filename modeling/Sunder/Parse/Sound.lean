import Sunder.Parse.WellFormed
import Sunder.Parse.Decl
/-!
# What the parser accepts is well formed

Every tree a parse function of `src/parse.c` returns is well formed
(`Sunder/Parse/WellFormed.lean`), whatever its input and however many nested calls it has
left: `parseModule_wellFormed`, with `parse_module` stopping only at `EOF`. The step is
`Parsers.Sound.succ`, one lemma per parse function on the way, each from the facts of the parse
functions it calls. Every expression `parse_expr` returns is therefore the one well-grouped tree
of its chain of binary operators (`parseExpr_wellGrouped`).

The invariant of the Pratt loop (`LoopReady`, `ExprResult`): the tree read so far is well formed,
binds at least as tightly as a prefix operator or tighter than the level of the loop, and the
current token binds no tighter than it. A postfix form is therefore read only after a tree that
binds as tightly as one, and a binary operator only after a tree that binds no looser than it;
the loop stops before a token that binds no tighter than its level
(`parseExprPrecedence_result`).
-/

namespace Sunder.Parse

/-! ## Results of a run -/

/-- Every success of `r` satisfies `P`, of what it returns and what it leaves. -/
def Yields {α : Type} (P : α → List Token → Prop) (r : Except ParseError (α × List Token)) :
    Prop :=
  match r with
  | .ok (a, rest) => P a rest
  | .error _ => True

section Yields
variable {α β : Type} {P Q : β → List Token → Prop} {ts : List Token}

@[simp] theorem yields_ok {a : β} {rest : List Token} : Yields P (.ok (a, rest)) ↔ P a rest :=
  Iff.rfl

theorem Yields.mono {r : Except ParseError (β × List Token)} (h : Yields P r)
    (hPQ : ∀ a rest, P a rest → Q a rest) : Yields Q r := by
  rcases r with e | ⟨a, rest⟩
  · trivial
  · exact hPQ a rest h

theorem Yields.bind {R : α → List Token → Prop} {x : Parser α} {f : α → Parser β}
    (hx : Yields R (x ts)) (hf : ∀ a ts', R a ts' → Yields P (f a ts')) :
    Yields P ((x >>= f) ts) := by
  rw [bind_apply]
  rcases h : x ts with e | ⟨a, ts'⟩
  · trivial
  · rw [h] at hx
    exact hf a ts' hx

/-- A step whose result the rest of the run only passes on needs no fact of its own. -/
theorem Yields.bind_any {x : Parser α} {f : α → Parser β}
    (hf : ∀ a ts', Yields P (f a ts')) :
    Yields P ((x >>= f) ts) := by
  rw [bind_apply]
  rcases x ts with e | ⟨a, ts'⟩
  · trivial
  · exact hf a ts'

theorem Yields.ite {c : Prop} [Decidable c] {x y : Parser β} (hx : c → Yields P (x ts))
    (hy : ¬c → Yields P (y ts)) : Yields P ((if c then x else y) ts) := by
  split_ifs with h
  exacts [hx h, hy h]

theorem Yields.throw {e : ParseError} : Yields P ((throw e : Parser β) ts) := trivial

theorem Yields.pure {a : β} (h : P a ts) : Yields P ((pure a : Parser β) ts) := h

theorem Yields.pure_nil {R : α → Prop} :
    Yields (fun xs _ => ∀ x ∈ xs, R x) ((Pure.pure [] : Parser (List α)) ts) :=
  nofun

end Yields

/-! ## Loops -/

section Loops
variable {α : Type} {kind : TokenKind} {f : Parser α} {R : α → Prop}

/-- A loop `while (!check_current(parser, kind))` returns what its rounds return, and stops only
at `kind`. -/
theorem untilKind_yields (hf : ∀ ts, Yields (fun x _ => R x) (f ts)) :
    ∀ bound ts, Yields (fun xs rest => (∀ x ∈ xs, R x) ∧ (current rest).kind = kind)
      (untilKind kind f bound ts)
  | 0, _ => trivial
  | bound + 1, ts => by
    rw [untilKind_succ]
    split_ifs with h
    · exact ⟨nofun, h⟩
    · refine Yields.bind (hf ts) fun _ ts₁ hx => Yields.bind (untilKind_yields hf bound ts₁)
        fun _ _ hxs => ?_
      exact ⟨List.forall_mem_cons.2 ⟨hx, hxs.1⟩, hxs.2⟩

theorem whileKind_yields (hf : ∀ ts, Yields (fun x _ => R x) (f ts)) :
    ∀ bound ts, Yields (fun xs _ => ∀ x ∈ xs, R x) (whileKind kind f bound ts)
  | 0, _ => trivial
  | bound + 1, ts => by
    rw [whileKind_succ]
    split_ifs
    · exact Yields.bind (hf ts) fun _ ts₁ hx => Yields.bind (whileKind_yields hf bound ts₁)
        fun _ _ hxs => List.forall_mem_cons.2 ⟨hx, hxs⟩
    · exact nofun

theorem untilKindSep_yields (hf : ∀ ts, Yields (fun x _ => R x) (f ts)) :
    ∀ bound first ts, Yields (fun xs _ => ∀ x ∈ xs, R x) (untilKindSep kind f bound first ts)
  | 0, _, _ => trivial
  | bound + 1, first, ts => by
    rw [untilKindSep_succ]
    split_ifs
    · exact nofun
    · exact Yields.bind_any fun _ ts₁ => Yields.bind (hf ts₁) fun _ ts₂ hx =>
        Yields.bind (untilKindSep_yields hf bound false ts₂) fun _ _ hxs =>
          List.forall_mem_cons.2 ⟨hx, hxs⟩

theorem sepByComma_yields (hf : ∀ ts, Yields (fun x _ => R x) (f ts)) (ts : List Token) :
    Yields (fun xs _ => ∀ x ∈ xs, R x) (sepByComma f ts) :=
  Yields.bind (hf ts) fun _ ts₁ hx => Yields.bind
    (whileKind_yields (fun _ => Yields.bind_any fun _ ts' => hf ts') _ ts₁) fun _ _ hxs =>
      List.forall_mem_cons.2 ⟨hx, hxs⟩

end Loops

/-! ## The invariant of the Pratt loop -/

/-- A tree the loop of `parse_expr_precedence` at `precedence` may go on from, before `ts`: well
formed, binding at least as tightly as a prefix operator or tighter than `precedence`, and the
current token binding no tighter than it. -/
structure LoopReady (precedence : Precedence) (e : Expr) (ts : List Token) : Prop where
  wellFormed : e.WellFormed
  binds : Precedence.prefix_.rank ≤ e.binding ∨ precedence.rank < e.binding
  current_le : level (current ts).kind ≤ e.binding

/-- What `parse_expr_precedence` at `precedence` returns, before `rest`: a well-formed tree that
binds at least as tightly as a prefix operator or tighter than `precedence`, before a token that
binds no tighter than `precedence`. -/
structure ExprResult (precedence : Precedence) (e : Expr) (rest : List Token) : Prop where
  wellFormed : e.WellFormed
  binds : Precedence.prefix_.rank ≤ e.binding ∨ precedence.rank < e.binding
  stops : level (current rest).kind ≤ precedence.rank

/-- What a null denotation returns, before `rest`: a well-formed tree that binds at least as
tightly as a prefix operator, the current token binding no tighter than it. -/
structure NudResult (e : Expr) (rest : List Token) : Prop where
  wellFormed : e.WellFormed
  prefix_le : Precedence.prefix_.rank ≤ e.binding
  current_le : level (current rest).kind ≤ e.binding

/-- A well-formed tree that binds as tightly as a postfix form. -/
structure Primary (e : Expr) : Prop where
  wellFormed : e.WellFormed
  binding_eq : e.binding = Precedence.postfix_.rank

theorem NudResult.loopReady {e : Expr} {rest : List Token} (h : NudResult e rest)
    (precedence : Precedence) : LoopReady precedence e rest :=
  ⟨h.wellFormed, .inl h.prefix_le, h.current_le⟩

theorem Primary.nudResult {e : Expr} (h : Primary e) (rest : List Token) : NudResult e rest :=
  ⟨h.wellFormed, by rw [h.binding_eq]; decide, h.binding_eq ▸ level_le _⟩

theorem Primary.loopReady {e : Expr} (h : Primary e) (precedence : Precedence)
    (rest : List Token) : LoopReady precedence e rest :=
  (h.nudResult rest).loopReady precedence

/-- An operand read at `PRECEDENCE_PREFIX` binds at least as tightly as a prefix operator. -/
theorem ExprResult.prefix_le {e : Expr} {rest : List Token}
    (h : ExprResult .prefix_ e rest) : Precedence.prefix_.rank ≤ e.binding :=
  h.binds.elim id Nat.le_of_lt

/-- Only a tree that binds as tightly as a postfix form has a postfix token after it. -/
theorem LoopReady.binding_eq {precedence : Precedence} {e : Expr} {ts : List Token}
    (h : LoopReady precedence e ts) (hk : level (current ts).kind = Precedence.postfix_.rank) :
    e.binding = Precedence.postfix_.rank :=
  Nat.le_antisymm e.binding_le (hk ▸ h.current_le)

/-- Every token that binds tighter than `PRECEDENCE_LOWEST` has a left denotation. -/
theorem level_of_tokenKindLed {p : Parsers} {k : TokenKind} (h : tokenKindLed p k = none) :
    level k = 0 := by
  cases k <;> first | rfl | cases h

/-! ## The parse functions -/

/-- The recursion points of `p` return well-formed trees: `parse_expr_precedence` and the rounds
of its loop keep the invariant of the loop, and a declaration starts with its keyword. -/
structure Parsers.Sound (p : Parsers) : Prop where
  exprPrecedence : ∀ precedence ts,
    Yields (ExprResult precedence) (p.exprPrecedence precedence ts)
  exprLoop : ∀ precedence e ts, LoopReady precedence e ts →
    Yields (ExprResult precedence) (p.exprLoop precedence e ts)
  typespec : ∀ ts, Yields (fun t _ => t.WellFormed) (p.typespec ts)
  block : ∀ ts, Yields (fun b _ => ∀ s ∈ b, s.WellFormed) (p.block ts)
  decl : ∀ ts, Yields (fun d _ => d.WellFormed ∧ d.keyword = (current ts).kind) (p.decl ts)

section Sound
variable {p : Parsers} {ts : List Token}

theorem parseExpr_sound (hp : p.Sound) (ts : List Token) :
    Yields (fun e _ => e.WellFormed) (parseExpr p ts) :=
  (hp.exprPrecedence .lowest ts).mono fun _ _ h => h.wellFormed

/-! ### Symbols and type specifiers -/

theorem parseTemplateArgumentList_sound (hp : p.Sound) :
    Yields (fun xs _ => ∀ t ∈ xs, t.WellFormed) (parseTemplateArgumentList p ts) := by
  refine Yields.bind_any fun _ _ => Yields.bind_any fun _ _ =>
    Yields.ite (fun _ => Yields.throw) fun _ => ?_
  exact Yields.bind (sepByComma_yields hp.typespec _) fun _ _ h => Yields.bind_any fun _ _ => h

theorem parseSymbolElement_sound (hp : p.Sound) (ts : List Token) :
    Yields (fun x _ => x.WellFormed) (parseSymbolElement p ts) :=
  Yields.bind_any fun _ _ => Yields.bind_any fun _ _ =>
    Yields.bind (Yields.ite (fun _ => parseTemplateArgumentList_sound hp) fun _ => Yields.pure_nil)
      fun _ _ h => Yields.pure (.mk h)

theorem parseSymbol_sound (hp : p.Sound) :
    Yields (fun r _ => r.2 ≠ [] ∧ ∀ x ∈ r.2, x.WellFormed) (parseSymbol p ts) :=
  Yields.bind_any fun _ _ => Yields.bind_any fun _ ts₁ =>
    Yields.bind (parseSymbolElement_sound hp ts₁) fun _ ts₂ h₁ =>
      Yields.bind (whileKind_yields (fun _ => Yields.bind_any fun _ ts' =>
        parseSymbolElement_sound hp ts') _ ts₂) fun _ _ h₂ =>
          Yields.pure ⟨List.cons_ne_nil _ _, List.forall_mem_cons.2 ⟨h₁, h₂⟩⟩

theorem parseTypespecFunction_sound (hp : p.Sound) :
    Yields (fun t _ => t.WellFormed) (parseTypespecFunction p ts) := by
  refine Yields.bind_any fun _ _ => Yields.bind_any fun _ _ => Yields.bind_any fun _ _ =>
    Yields.bind_any fun _ ts₁ => ?_
  refine Yields.bind (Yields.ite (fun _ => Yields.pure_nil) fun _ =>
    sepByComma_yields hp.typespec ts₁) fun _ _ hps => Yields.bind_any fun _ ts₂ => ?_
  exact Yields.bind (hp.typespec ts₂) fun _ _ hr => Yields.pure (.function hps hr)

theorem parseTypespecArrayOrSlice_sound (hp : p.Sound) :
    Yields (fun t _ => t.WellFormed) (parseTypespecArrayOrSlice p ts) := by
  refine Yields.bind_any fun _ _ => Yields.bind_any fun _ _ => Yields.bind_any fun _ ts₁ =>
    Yields.ite (fun _ => ?_) fun _ => ?_
  · exact Yields.bind_any fun _ ts₂ => Yields.bind (hp.typespec ts₂) fun _ _ h =>
      Yields.pure (.slice h)
  · exact Yields.bind (parseExpr_sound hp ts₁) fun _ _ hc => Yields.bind_any fun _ ts₂ =>
      Yields.bind (hp.typespec ts₂) fun _ _ hb => Yields.pure (.array hc hb)

/-- `parse_typespec` returns a well-formed type specifier. -/
theorem parseTypespec_sound (hp : p.Sound) :
    Yields (fun t _ => t.WellFormed) (parseTypespec p ts) := by
  refine Yields.bind_any fun _ ts₁ => Yields.ite (fun _ => ?_) fun _ =>
    Yields.ite (fun _ => parseTypespecFunction_sound hp) fun _ =>
    Yields.ite (fun _ => ?_) fun _ =>
    Yields.ite (fun _ => parseTypespecArrayOrSlice_sound hp) fun _ =>
    Yields.ite (fun _ => ?_) fun _ => Yields.throw
  · exact Yields.bind (parseSymbol_sound hp) fun ⟨_, _⟩ _ h => Yields.pure (.symbol h.1 h.2)
  · exact Yields.bind_any fun _ _ => Yields.bind_any fun _ ts₂ =>
      Yields.bind (hp.typespec ts₂) fun _ _ h => Yields.pure (.pointer h)
  · exact Yields.bind_any fun _ _ => Yields.bind_any fun _ _ => Yields.bind_any fun _ ts₂ =>
      Yields.bind (parseExpr_sound hp ts₂) fun _ _ h => Yields.bind_any fun _ _ =>
        Yields.pure (.typeof h)

/-! ### Null denotations -/

theorem parseMemberInitializer_sound (hp : p.Sound) (ts : List Token) :
    Yields (fun x _ => x.2.WellFormed) (parseMemberInitializer p ts) :=
  Yields.bind_any fun _ _ => Yields.bind_any fun _ _ => Yields.bind_any fun _ ts₁ =>
    Yields.bind (parseExpr_sound hp ts₁) fun _ _ h => Yields.pure h

theorem parseMemberInitializerList_sound (hp : p.Sound) :
    Yields (fun xs _ => ∀ x ∈ xs, x.2.WellFormed) (parseMemberInitializerList p ts) :=
  Yields.bind_any fun _ ts₁ => Yields.ite
    (fun _ => sepByComma_yields (parseMemberInitializer_sound hp) ts₁) fun _ => Yields.pure_nil

theorem parseArrayElements_sound (hp : p.Sound) :
    ∀ bound first ts,
      Yields (fun r _ => (∀ e ∈ r.1, e.WellFormed) ∧ ∀ e ∈ r.2, e.WellFormed)
      (parseArrayElements p bound first ts)
  | 0, _, _ => trivial
  | bound + 1, first, ts => by
    rw [parseArrayElements]
    refine Yields.bind_any fun _ _ => Yields.ite (fun _ => Yields.pure ⟨nofun, nofun⟩) fun _ =>
      Yields.bind_any fun _ ts₁ => Yields.bind (parseExpr_sound hp ts₁) fun _ _ he => ?_
    refine Yields.bind_any fun _ ts₂ => Yields.ite (fun _ => Yields.bind_any fun _ _ =>
      Yields.pure ⟨nofun, fun _ h => Option.mem_some_iff.1 h ▸ he⟩) fun _ => ?_
    exact Yields.bind (parseArrayElements_sound hp bound false ts₂) fun ⟨_, _⟩ _ h =>
      Yields.pure ⟨List.forall_mem_cons.2 ⟨he, h.1⟩, h.2⟩

/-- `parse_expr_lparen` returns a parenthesised expression or a literal, which a postfix form may
extend, or a cast. -/
theorem parseExprLparen_sound (hp : p.Sound) : Yields NudResult (parseExprLparen p ts) := by
  refine Yields.bind_any fun _ _ => Yields.bind_any fun _ ts₁ =>
    Yields.ite (fun _ => ?_) fun _ => ?_
  · exact Yields.bind (parseExpr_sound hp ts₁) fun _ _ h => Yields.bind_any fun _ rest =>
      Yields.pure (Primary.nudResult ⟨.grouped h, rfl⟩ rest)
  refine Yields.bind_any fun _ ts₂ => Yields.bind (hp.typespec ts₂) fun t _ ht =>
    Yields.bind_any fun _ _ => Yields.bind_any fun _ ts₃ => ?_
  refine Yields.ite (fun hk => ?_) fun _ => Yields.ite (fun hk => ?_) fun _ =>
    Yields.ite (fun hk => ?_) fun _ => Yields.ite (fun hk => ?_) fun _ => ?_
  · exact Yields.bind_any fun _ ts₄ => Yields.bind (parseArrayElements_sound hp _ true ts₄)
      fun ⟨_, _⟩ _ h => Yields.bind_any fun _ rest =>
        Yields.pure (Primary.nudResult ⟨.array hk.2 ht h.1 h.2, rfl⟩ rest)
  · exact Yields.bind_any fun _ ts₄ => Yields.bind (parseExpr_sound hp ts₄) fun _ _ h₁ =>
      Yields.bind_any fun _ ts₅ => Yields.bind (parseExpr_sound hp ts₅) fun _ _ h₂ =>
        Yields.bind_any fun _ rest =>
          Yields.pure (Primary.nudResult ⟨.slice hk.2 ht h₁ h₂, rfl⟩ rest)
  · exact Yields.bind_any fun _ ts₄ => Yields.bind
      (untilKindSep_yields (parseExpr_sound hp) _ true ts₄) fun _ _ h =>
        Yields.bind_any fun _ rest =>
          Yields.pure (Primary.nudResult ⟨.arraySlice hk.2 ht h, rfl⟩ rest)
  · exact Yields.bind_any fun _ ts₄ => Yields.bind (parseMemberInitializerList_sound hp)
      fun _ _ h => Yields.bind_any fun _ rest =>
        Yields.pure (Primary.nudResult ⟨.struct_ hk.2 ht h, rfl⟩ rest)
  · exact Yields.bind (hp.exprPrecedence .prefix_ ts₃) fun _ _ h =>
      Yields.pure ⟨.cast ht h.wellFormed h.prefix_le, Nat.le_refl _, h.stops⟩

theorem parseExprSyscall_sound (hp : p.Sound) : Yields NudResult (parseExprSyscall p ts) := by
  refine Yields.bind_any fun _ _ => Yields.bind_any fun _ ts₁ =>
    Yields.bind (parseExpr_sound hp ts₁) fun _ ts₂ h₁ => ?_
  refine Yields.bind (untilKind_yields (fun _ => Yields.bind_any fun _ ts' =>
    parseExpr_sound hp ts') _ ts₂) fun _ _ h₂ => Yields.bind_any fun _ rest => ?_
  exact Yields.pure (Primary.nudResult
    ⟨.syscall (List.cons_ne_nil _ _) (List.forall_mem_cons.2 ⟨h₁, h₂.1⟩), rfl⟩ rest)

theorem parseExprOfTypespec_sound {keyword : TokenKind} {node : Typespec → Expr}
    (hnode : ∀ t, t.WellFormed → Primary (node t)) (hp : p.Sound) :
    Yields NudResult (parseExprOfTypespec keyword node p ts) :=
  Yields.bind_any fun _ _ => Yields.bind_any fun _ ts₁ => Yields.bind (hp.typespec ts₁)
    fun _ _ h => Yields.bind_any fun _ rest => Yields.pure ((hnode _ h).nudResult rest)

/-- `parse_expr_nud_unary`, entered at a prefix operator or `countof`, returns the operator
applied to an operand that binds at least as tightly as a prefix operator. -/
theorem parseExprNudUnary_sound (hp : p.Sound)
    (hk : (current ts).kind ∈ prefixOperators ∨ (current ts).kind = .countof) :
    Yields NudResult (parseExprNudUnary p ts) := by
  show Yields _ ((advanceToken >>= fun op => _) ts)
  rw [advanceToken_bind]
  refine Yields.ite (fun hc => ?_) fun hc => ?_
  · refine Yields.bind_any fun _ ts₁ => Yields.bind (hp.exprPrecedence .prefix_ ts₁)
      fun _ _ h => Yields.bind_any fun _ rest => ?_
    rw [hc]
    exact Yields.pure ⟨.unary (.inr rfl) h.wellFormed h.prefix_le,
      (by decide : Precedence.prefix_.rank ≤ Precedence.postfix_.rank), level_le _⟩
  · refine Yields.bind (hp.exprPrecedence .prefix_ ts.tail) fun _ _ h => Yields.pure ?_
    exact ⟨.unary hk h.wellFormed h.prefix_le, (Expr.binding_unary hc _).ge,
      Nat.le_trans h.stops (Expr.binding_unary hc _).ge⟩

/-- Every null denotation of `token_kind_nud` returns an operand. -/
theorem tokenKindNud_sound (hp : p.Sound) {f : Parser Expr} :
    ∀ {k}, (current ts).kind = k → tokenKindNud p k = some f → Yields NudResult (f ts) := by
  intro k hk h
  have hsymbol : Yields NudResult (parseExprSymbol p ts) :=
    Yields.bind (parseSymbol_sound hp) fun ⟨_, _⟩ rest h =>
      Yields.pure (Primary.nudResult ⟨.symbol h.1 h.2, rfl⟩ rest)
  cases k <;> cases h
  case identifier | colonColon => exact hsymbol
  case true_ | false_ =>
    exact Yields.bind_any fun _ rest => Yields.pure (Primary.nudResult ⟨.boolean _, rfl⟩ rest)
  case integer =>
    exact Yields.bind_any fun ⟨_, _⟩ rest =>
      Yields.pure (Primary.nudResult ⟨.integer _ _, rfl⟩ rest)
  case character =>
    exact Yields.bind_any fun _ rest => Yields.pure (Primary.nudResult ⟨.character _, rfl⟩ rest)
  case bytes =>
    exact Yields.bind_any fun _ rest => Yields.pure (Primary.nudResult ⟨.bytes _, rfl⟩ rest)
  case lparen => exact parseExprLparen_sound hp
  case syscall => exact parseExprSyscall_sound hp
  case sizeof => exact parseExprOfTypespec_sound (fun _ h => ⟨.sizeof h, rfl⟩) hp
  case alignof => exact parseExprOfTypespec_sound (fun _ h => ⟨.alignof h, rfl⟩) hp
  all_goals exact parseExprNudUnary_sound hp (by rw [hk]; decide)

/-! ### Left denotations and the Pratt loop -/

/-- `parse_expr_led_binary`, entered at a binary operator that binds no tighter than the tree
before it and tighter than the level of the loop, builds a tree the loop may go on from. -/
theorem parseExprLedBinary_sound (hp : p.Sound) {precedence : Precedence} {lhs : Expr}
    (hop : (current ts).kind ∈ binaryOperators) (hl : LoopReady precedence lhs ts)
    (hlt : precedence.rank < level (current ts).kind) :
    Yields (LoopReady precedence) (parseExprLedBinary p lhs ts) := by
  show Yields _ ((advanceToken >>= fun op => _) ts)
  rw [advanceToken_bind]
  refine Yields.bind (hp.exprPrecedence _ ts.tail) fun _ _ hr => ?_
  have hlev : level (current ts).kind < Precedence.prefix_.rank := (rank_of_binary _ hop).2
  have hrb : level (current ts).kind < _ := hr.binds.elim (Nat.lt_of_lt_of_le hlev) id
  exact Yields.pure
    ⟨.binary hop hl.wellFormed hr.wellFormed hl.current_le hrb, .inr hlt, hr.stops⟩

/-- Every left denotation of `token_kind_led`, entered at a token that binds tighter than the
level of the loop, builds a tree the loop may go on from. -/
theorem tokenKindLed_sound (hp : p.Sound) {precedence : Precedence} {lhs : Expr}
    {f : Expr → Parser Expr} (hl : LoopReady precedence lhs ts)
    (hlt : precedence.rank < level (current ts).kind) :
    ∀ {k}, (current ts).kind = k → tokenKindLed p k = some f →
      Yields (LoopReady precedence) (f lhs ts) := by
  intro k hk h
  have hw := hl.wellFormed
  have hpost : level k = Precedence.postfix_.rank → lhs.binding = Precedence.postfix_.rank :=
    fun he => hl.binding_eq (hk ▸ he)
  cases k <;> cases h
  case lparen =>
    exact Yields.bind_any fun _ ts₁ => Yields.bind
      (untilKindSep_yields (parseExpr_sound hp) _ true ts₁) fun _ _ h =>
        Yields.bind_any fun _ rest =>
          Yields.pure (Primary.loopReady ⟨.call hw (hpost rfl) h, rfl⟩ _ rest)
  case lbracket =>
    refine Yields.bind_any fun _ ts₁ => Yields.bind (parseExpr_sound hp ts₁) fun _ _ hi =>
      Yields.bind_any fun _ _ => Yields.ite (fun _ => ?_) fun _ => ?_
    · exact Yields.bind_any fun _ ts₂ => Yields.bind (parseExpr_sound hp ts₂) fun _ _ he =>
        Yields.bind_any fun _ rest =>
          Yields.pure (Primary.loopReady ⟨.accessSlice hw (hpost rfl) hi he, rfl⟩ _ rest)
    · exact Yields.bind_any fun _ rest =>
        Yields.pure (Primary.loopReady ⟨.accessIndex hw (hpost rfl) hi, rfl⟩ _ rest)
  case dotStar =>
    exact Yields.bind_any fun _ rest =>
      Yields.pure (Primary.loopReady ⟨.accessDereference hw (hpost rfl), rfl⟩ _ rest)
  case dot =>
    exact Yields.bind_any fun _ _ => Yields.bind_any fun _ rest =>
      Yields.pure (Primary.loopReady ⟨.accessMember hw (hpost rfl), rfl⟩ _ rest)
  all_goals exact parseExprLedBinary_sound hp (by rw [hk]; decide) hl hlt

/-- `parse_expr_precedence` returns what its level asks for. -/
theorem parseExprPrecedence_sound (hp : p.Sound) (precedence : Precedence) (ts : List Token) :
    Yields (ExprResult precedence) (parseExprPrecedence p precedence ts) := by
  unfold parseExprPrecedence
  rw [currentToken_bind]
  cases h : tokenKindNud p (current ts).kind with
  | none => exact Yields.throw
  | some f => exact Yields.bind (tokenKindNud_sound hp rfl h) fun _ _ he =>
      hp.exprLoop _ _ _ (he.loopReady _)

/-- A round of the loop of `parse_expr_precedence` keeps its invariant, and the loop stops before
a token that binds no tighter than its level. -/
theorem parseExprLoop_sound (hp : p.Sound) (precedence : Precedence) (e : Expr) (ts : List Token)
    (he : LoopReady precedence e ts) :
    Yields (ExprResult precedence) (parseExprLoop p precedence e ts) := by
  unfold parseExprLoop
  rw [currentToken_bind]
  refine Yields.ite (fun hlt => ?_) fun hge =>
    Yields.pure ⟨he.wellFormed, he.binds, Nat.le_of_not_lt hge⟩
  cases h : tokenKindLed p (current ts).kind with
  | none =>
    have h0 : (tokenKindPrecedence (current ts).kind).rank = 0 := level_of_tokenKindLed h
    omega
  | some f => exact Yields.bind (tokenKindLed_sound hp he hlt rfl h) fun _ _ h' =>
      hp.exprLoop _ _ _ h'

/-! ### Statements -/

theorem parseElif_sound (hp : p.Sound) :
    Yields (fun x _ => (∃ e, x.1 = some e ∧ e.WellFormed) ∧ ∀ s ∈ x.2, s.WellFormed)
      (parseElif p ts) :=
  Yields.bind_any fun _ ts₁ => Yields.bind (parseExpr_sound hp ts₁) fun _ ts₂ hc =>
    Yields.bind (hp.block ts₂) fun _ _ hb => Yields.pure ⟨⟨_, rfl, hc⟩, hb⟩

theorem parseStmtIf_sound (hp : p.Sound) :
    Yields (fun s _ => s.WellFormed) (parseStmtIf p ts) := by
  refine Yields.bind_any fun _ _ => Yields.bind_any fun _ ts₁ =>
    Yields.bind (parseExpr_sound hp ts₁) fun _ ts₂ hc => Yields.bind (hp.block ts₂)
      fun _ ts₃ hb => Yields.bind (whileKind_yields (fun _ => parseElif_sound hp) _ ts₃)
        fun _ _ helifs => Yields.bind_any fun _ ts₄ => ?_
  refine Yields.bind (R := fun els _ => (els = [] ∨ ∃ b, els = [(none, b)]) ∧
    ∀ x ∈ els, ∀ s ∈ x.2, s.WellFormed)
    (Yields.ite (fun _ => ?_) fun _ => Yields.pure ⟨.inl rfl, nofun⟩) fun _ _ hels => ?_
  · exact Yields.bind_any fun _ ts₅ => Yields.bind (hp.block ts₅) fun _ _ hb =>
      Yields.pure ⟨.inr ⟨_, rfl⟩, by simpa using hb⟩
  refine Yields.pure (.if_ hc (fun x hx => (helifs x hx).1) hels.1 ?_)
  simp only [List.cons_append, List.forall_mem_cons, List.forall_mem_append]
  exact ⟨hb, fun x hx => (helifs x hx).2, hels.2⟩

theorem parseStmtFor_sound (hp : p.Sound) :
    Yields (fun s _ => s.WellFormed) (parseStmtFor p ts) := by
  refine Yields.bind_any fun _ _ => Yields.bind_any fun _ _ => Yields.bind_any fun _ _ =>
    Yields.bind_any fun _ ts₁ => Yields.ite (fun _ => ?_) fun _ => ?_
  · exact Yields.bind_any fun _ _ => Yields.bind_any fun _ ts₂ =>
      Yields.bind (parseExpr_sound hp ts₂) fun _ _ hb => Yields.bind_any fun _ ts₃ =>
        Yields.bind (parseExpr_sound hp ts₃) fun _ ts₄ he => Yields.bind (hp.block ts₄)
          fun _ _ hbody => Yields.pure (.forRange hb he hbody)
  · exact Yields.bind (parseExpr_sound hp ts₁) fun _ ts₂ hc => Yields.bind (hp.block ts₂)
      fun _ _ hbody => Yields.pure (.forExpr hc hbody)

theorem parseStmtJump_sound {keyword : TokenKind} {condition : String} {stmt : Stmt}
    (hs : stmt.WellFormed) :
    Yields (fun s _ => s.WellFormed) (parseStmtJump keyword condition stmt ts) :=
  Yields.bind_any fun _ _ => Yields.bind_any fun _ _ => Yields.bind_any fun _ _ => Yields.pure hs

/-- `parse_stmt` returns a well-formed statement. -/
theorem parseStmt_sound (hp : p.Sound) (ts : List Token) :
    Yields (fun s _ => s.WellFormed) (parseStmt p ts) := by
  unfold parseStmt
  rw [currentToken_bind]
  refine Yields.ite (fun hk => ?_) fun _ => Yields.ite (fun _ => parseStmtIf_sound hp) fun _ =>
    Yields.ite (fun _ => parseStmtFor_sound hp) fun _ =>
    Yields.ite (fun _ => parseStmtJump_sound .break_) fun _ =>
    Yields.ite (fun _ => parseStmtJump_sound .continue_) fun _ => Yields.ite (fun _ => ?_) fun _ =>
    Yields.ite (fun _ => ?_) fun _ => Yields.bind (parseExpr_sound hp ts) fun _ _ hl =>
      Yields.bind_any fun _ _ => Yields.ite (fun _ => ?_) fun _ =>
        Yields.bind_any fun _ _ => Yields.pure (.expr hl)
  · exact Yields.bind (hp.decl ts) fun _ _ hd => Yields.pure (.decl hd.1 (hd.2 ▸ hk))
  · exact Yields.bind_any fun _ _ => Yields.bind_any fun _ ts₁ =>
      Yields.bind (parseExpr_sound hp ts₁) fun _ _ he => Yields.bind_any fun _ _ =>
        Yields.pure (.dump he)
  · refine Yields.bind_any fun _ _ => Yields.bind_any fun _ _ => Yields.bind_any fun _ ts₁ =>
      Yields.bind (R := fun e _ => ∀ x ∈ e, x.WellFormed) (Yields.ite (fun _ => ?_)
        fun _ => Yields.pure nofun) fun _ _ he => Yields.bind_any fun _ _ =>
          Yields.pure (.return_ he)
    exact Yields.bind (parseExpr_sound hp ts₁) fun _ _ he =>
      Yields.pure fun _ h => Option.mem_some_iff.1 h ▸ he
  · exact Yields.bind_any fun _ ts₁ => Yields.bind (parseExpr_sound hp ts₁) fun _ _ hr =>
      Yields.bind_any fun _ _ => Yields.pure (.assign hl hr)

/-- `parse_block` returns well-formed statements. -/
theorem parseBlock_sound (hp : p.Sound) (ts : List Token) :
    Yields (fun b _ => ∀ s ∈ b, s.WellFormed) (parseBlock p ts) :=
  Yields.bind_any fun _ ts₁ => Yields.bind (untilKind_yields (parseStmt_sound hp) _ ts₁)
    fun _ _ h => Yields.bind_any fun _ _ => Yields.pure h.1

/-! ### Declarations -/

theorem parseDeclBinding_sound {keyword : TokenKind}
    {decl : String → Option Typespec → Expr → Decl}
    (hdecl : ∀ name t e, (∀ x ∈ t, x.WellFormed) → e.WellFormed →
      (decl name t e).WellFormed ∧ (decl name t e).keyword = keyword) (hp : p.Sound) :
    Yields (fun d _ => d.WellFormed ∧ d.keyword = keyword)
      (parseDeclBinding keyword decl p ts) := by
  refine Yields.bind_any fun _ _ => Yields.bind_any fun _ _ => Yields.bind_any fun _ ts₁ => ?_
  refine Yields.bind (R := fun t _ => ∀ x ∈ t, x.WellFormed) (Yields.ite (fun _ => ?_)
    fun _ => Yields.pure nofun) fun _ _ ht => Yields.bind_any fun _ ts₂ => ?_
  · exact Yields.bind_any fun _ ts' => Yields.bind (hp.typespec ts') fun _ _ h =>
      Yields.pure fun _ hx => Option.mem_some_iff.1 hx ▸ h
  exact Yields.bind (parseExpr_sound hp ts₂) fun _ _ he => Yields.bind_any fun _ _ =>
    Yields.pure (hdecl _ _ _ ht he)

theorem parseFunctionParameter_sound (hp : p.Sound) (ts : List Token) :
    Yields (fun x _ => x.2.WellFormed) (parseFunctionParameter p ts) :=
  Yields.bind_any fun _ _ => Yields.bind_any fun _ ts₁ =>
    Yields.bind (hp.typespec ts₁) fun _ _ h => Yields.pure h

theorem parseFunctionParameterList_sound (hp : p.Sound) :
    Yields (fun xs _ => ∀ x ∈ xs, x.2.WellFormed) (parseFunctionParameterList p ts) :=
  Yields.bind_any fun _ ts₁ => Yields.ite (fun _ => Yields.pure_nil) fun _ =>
    sepByComma_yields (parseFunctionParameter_sound hp) ts₁

theorem parseDeclFunction_sound (hp : p.Sound) :
    Yields (fun d _ => d.WellFormed ∧ d.keyword = .func) (parseDeclFunction p ts) :=
  Yields.bind_any fun _ _ => Yields.bind_any fun _ _ => Yields.bind_any fun _ _ =>
    Yields.bind_any fun _ _ => Yields.bind (parseFunctionParameterList_sound hp) fun _ _ hps =>
      Yields.bind_any fun _ ts₂ => Yields.bind (hp.typespec ts₂) fun _ ts₃ hr =>
        Yields.bind (hp.block ts₃) fun _ _ hb => Yields.pure ⟨.function hps hr hb, rfl⟩

theorem parseMember_sound (hp : p.Sound) (ts : List Token) :
    Yields (fun x _ => x.WellFormed) (parseMember p ts) := by
  refine Yields.bind_any fun _ ts₁ => Yields.ite (fun _ => ?_) fun _ =>
    Yields.ite (fun _ => ?_) fun _ => Yields.ite (fun _ => ?_) fun _ => Yields.throw
  · exact Yields.bind_any fun _ _ => Yields.bind_any fun _ _ => Yields.bind_any fun _ ts₂ =>
      Yields.bind (hp.typespec ts₂) fun _ _ h => Yields.bind_any fun _ _ =>
        Yields.pure (.variable h)
  · exact Yields.bind (parseDeclBinding_sound (fun _ _ _ ht he => ⟨.constant ht he, rfl⟩) hp)
      fun _ _ h => Yields.pure (.constant h.1 h.2)
  · exact Yields.bind (parseDeclFunction_sound hp) fun _ _ h => Yields.pure (.function h.1 h.2)

theorem parseDeclStruct_sound (hp : p.Sound) :
    Yields (fun d _ => d.WellFormed ∧ d.keyword = .struct_) (parseDeclStruct p ts) :=
  Yields.bind_any fun _ _ => Yields.bind_any fun _ _ => Yields.bind_any fun _ _ =>
    Yields.bind_any fun _ ts₁ => Yields.bind (untilKind_yields (parseMember_sound hp) _ ts₁)
      fun _ _ h => Yields.bind_any fun _ _ => Yields.pure ⟨.struct_ h.1, rfl⟩

/-- `parse_decl` returns a well-formed declaration that starts with the current token. -/
theorem parseDecl_sound (hp : p.Sound) (ts : List Token) :
    Yields (fun d _ => d.WellFormed ∧ d.keyword = (current ts).kind) (parseDecl p ts) := by
  unfold parseDecl
  rw [currentToken_bind]
  have hkw : ∀ {q : Parser Decl} {k : TokenKind}, (current ts).kind = k →
      Yields (fun d _ => d.WellFormed ∧ d.keyword = k) (q ts) →
      Yields (fun d _ => d.WellFormed ∧ d.keyword = (current ts).kind) (q ts) :=
    fun hk h => h.mono fun _ _ h => ⟨h.1, h.2.trans hk.symm⟩
  refine Yields.ite (fun hk => hkw hk (parseDeclBinding_sound
    (fun _ _ _ ht he => ⟨.variable ht he, rfl⟩) hp)) fun _ =>
    Yields.ite (fun hk => hkw hk (parseDeclBinding_sound
      (fun _ _ _ ht he => ⟨.constant ht he, rfl⟩) hp)) fun _ =>
    Yields.ite (fun hk => hkw hk (parseDeclFunction_sound hp)) fun _ =>
    Yields.ite (fun hk => hkw hk (parseDeclStruct_sound hp)) fun _ =>
    Yields.ite (fun hk => hkw hk ?_) fun _ => Yields.ite (fun hk => hkw hk ?_) fun _ => ?_
  · exact Yields.bind_any fun _ ts₁ => Yields.bind (hp.typespec ts₁) fun _ ts₂ ht =>
      Yields.bind (hp.decl ts₂) fun _ _ hd => Yields.pure ⟨.extend ht hd.1, rfl⟩
  · exact Yields.bind_any fun _ _ => Yields.bind_any fun _ _ => Yields.bind_any fun _ _ =>
      Yields.bind (parseSymbol_sound hp) fun ⟨_, _⟩ _ h => Yields.bind_any fun _ _ =>
        Yields.pure ⟨.alias h.1 h.2, rfl⟩
  rw [peekToken_bind]
  refine Yields.ite (fun hk => hkw hk.1 ?_) fun _ => Yields.throw
  exact Yields.bind_any fun _ _ => Yields.bind_any fun _ _ => Yields.bind_any fun _ _ =>
    Yields.bind_any fun _ ts₁ => Yields.bind (hp.typespec ts₁) fun _ _ h =>
      Yields.bind_any fun _ _ => Yields.pure ⟨.externVariable h, rfl⟩

/-! ### Modules -/

theorem parseNamespace_sound : Yields (fun ns _ => ns ≠ []) (parseNamespace ts) :=
  Yields.bind_any fun _ _ => Yields.bind_any fun _ _ => Yields.bind_any fun _ _ =>
    Yields.bind_any fun _ _ => Yields.pure (List.cons_ne_nil _ _)

/-- `parse_module` returns a well-formed module, and stops only at `EOF`. -/
theorem parseModule_sound (hp : p.Sound) :
    Yields (fun m rest => m.WellFormed ∧ (current rest).kind = .eof) (parseModule p ts) := by
  refine Yields.bind_any fun _ _ => Yields.bind (R := fun ns _ => ∀ x ∈ ns, x ≠ [])
    (Yields.ite (fun _ => ?_) fun _ => Yields.pure nofun) fun _ _ hns =>
      Yields.bind_any fun _ ts₁ => Yields.bind
        (untilKind_yields (fun ts => (hp.decl ts).mono fun _ _ h => h.1) _ ts₁) fun _ _ hd =>
          Yields.pure ⟨⟨hns, hd.1⟩, hd.2⟩
  exact Yields.bind parseNamespace_sound fun _ _ h =>
    Yields.pure fun _ hx => Option.mem_some_iff.1 hx ▸ h

/-- The step of the induction: the parse functions that reach `p` for their nested calls return
well-formed trees when `p` does. -/
theorem Parsers.Sound.succ (hp : p.Sound) :
    (Parsers.mk (parseExprPrecedence p) (parseExprLoop p) (parseTypespec p) (parseBlock p)
      (parseDecl p)).Sound :=
  ⟨parseExprPrecedence_sound hp, parseExprLoop_sound hp, fun _ => parseTypespec_sound hp,
    parseBlock_sound hp, parseDecl_sound hp⟩

end Sound

/-- The parse functions with any number of nested calls left return well-formed trees. -/
theorem parsers_sound : ∀ n, (parsers n).Sound
  | 0 => ⟨fun _ _ => trivial, fun _ _ _ _ => trivial, fun _ => trivial, fun _ => trivial,
      fun _ => trivial⟩
  | n + 1 => (parsers_sound n).succ

/-! ## What the parser accepts -/

section Accepts
variable {n : Nat} {ts rest : List Token}

/-- Every module `parse_module` returns is well formed, and what it leaves starts at `EOF`: on
every input, with any number of nested calls left. -/
theorem parseModule_wellFormed {m : Module} (h : parseModule (parsers n) ts = .ok (m, rest)) :
    m.WellFormed ∧ (current rest).kind = .eof := by
  have hs : Yields _ (parseModule (parsers n) ts) := parseModule_sound (parsers_sound n)
  rw [h] at hs
  exact hs

/-- `namespace a; func f() void { return; }`. -/
def namespaceReturnTokens : List Token :=
  [{ kind := .namespace_ }, { kind := .identifier, text := "a" }, { kind := .semicolon },
    { kind := .func }, { kind := .identifier, text := "f" }, { kind := .lparen },
    { kind := .rparen }, { kind := .identifier, text := "void" }, { kind := .lbrace },
    { kind := .return_ }, { kind := .semicolon }, { kind := .rbrace }]

theorem parseModule_wellFormed_namespaceReturn :
    parseModule (parsers 13) namespaceReturnTokens =
      .ok (⟨some ["a"], [],
        [.function "f" [] [] (.symbol false [.mk "void" []]) [.return_ none]]⟩,
        []) ∧
    Module.WellFormed
      ⟨some ["a"], [],
        [.function "f" [] [] (.symbol false [.mk "void" []]) [.return_ none]]⟩ ∧
    (current []).kind = .eof :=
  have h : parseModule (parsers 13) namespaceReturnTokens = _ := rfl
  ⟨h, parseModule_wellFormed h⟩

/-- `parse_expr_precedence` at `precedence` returns a well-formed tree that binds tighter than
`precedence` or at least as tightly as a prefix operator, and stops before a token that binds no
tighter than `precedence`: on every input, with any number of nested calls left. -/
theorem parseExprPrecedence_result {precedence : Precedence} {e : Expr}
    (h : parseExprPrecedence (parsers n) precedence ts = .ok (e, rest)) :
    ExprResult precedence e rest := by
  have hs := parseExprPrecedence_sound (parsers_sound n) precedence ts
  rw [h] at hs
  exact hs

/-- `- a . b` read at `PRECEDENCE_SUM` stops before `+`. -/
theorem parseExprPrecedence_result_negMember :
    parseExprPrecedence (parsers 4) .sum
        [{ kind := .dash }, { kind := .identifier, text := "a" }, { kind := .dot },
          { kind := .identifier, text := "b" }, { kind := .plus }] =
      .ok (.unary .dash (.accessMember (.symbol false [.mk "a" []]) "b"), [{ kind := .plus }]) ∧
    ExprResult .sum (.unary .dash (.accessMember (.symbol false [.mk "a" []]) "b"))
      [{ kind := .plus }] :=
  have h : parseExprPrecedence (parsers 4) .sum _ = _ := rfl
  ⟨h, parseExprPrecedence_result h⟩

/-- Every expression `parse_expr` returns is the one well-grouped tree of its chain of binary
operators: on every input, with any number of nested calls left. -/
theorem parseExpr_wellGrouped {e : Expr} (h : parseExpr (parsers n) ts = .ok (e, rest)) :
    e.WellGrouped ∧ ∀ t, t.WellGrouped → t.flatten = e.flatten → t = e := by
  have hs := (parsers_sound n).exprPrecedence .lowest ts
  rw [← parseExpr, h] at hs
  exact ⟨hs.wellFormed.wellGrouped, fun _ ht hf => ht.unique hs.wellFormed.wellGrouped hf⟩

/-- `a - b - c`, grouped to the left. -/
def differenceTree : Expr :=
  .binary .dash (.binary .dash (.symbol false [.mk "a" []]) (.symbol false [.mk "b" []]))
    (.symbol false [.mk "c" []])

theorem parseExpr_wellGrouped_difference :
    parseExpr (parsers 6)
        [{ kind := .identifier, text := "a" }, { kind := .dash },
          { kind := .identifier, text := "b" }, { kind := .dash },
          { kind := .identifier, text := "c" }] = .ok (differenceTree, []) ∧
    differenceTree.WellGrouped ∧
    ∀ t : Expr, t.WellGrouped → t.flatten = differenceTree.flatten → t = differenceTree :=
  have h : parseExpr (parsers 6) _ = _ := rfl
  ⟨h, parseExpr_wellGrouped h⟩

end Accepts

end Sunder.Parse
