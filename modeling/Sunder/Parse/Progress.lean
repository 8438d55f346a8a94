import Sunder.Parse.Decl
/-!
# Every parse function stops

Every call of a parse function of `src/parse.c` consumes a token before it makes a nested one,
and every round of every loop consumes a token. So a parse function run with `n` nested calls
left on fewer than `n` tokens never runs out (`parsers_ready`): each of `parse_expr_precedence`,
`parse_typespec`, `parse_block` and `parse_decl` stops with a diagnostic or consumes at least one
token, and a round of the Pratt loop does not grow its input. The step is
`Parsers.Ready.succ`, one lemma per parse function on the way.
-/

namespace Sunder.Parse

/-- The recursion points of `p` stop on every input shorter than `m`: `parse_expr_precedence`,
`parse_typespec`, `parse_block` and `parse_decl` with a diagnostic or after consuming a token, a
round of the Pratt loop without growing its input. -/
def Parsers.Ready (p : Parsers) (m : Nat) : Prop :=
  ∀ ts : List Token, ts.length < m →
    (∀ precedence, Progress ts (p.exprPrecedence precedence ts)) ∧
    (∀ precedence e, Steady ts (p.exprLoop precedence e ts)) ∧
    Progress ts (p.typespec ts) ∧ Progress ts (p.block ts) ∧ Progress ts (p.decl ts)

section Ready
variable {p : Parsers} {m : Nat} {ts : List Token}

theorem Parsers.Ready.exprPrecedence (hp : p.Ready m) (hts : ts.length < m)
    (precedence : Precedence) : Progress ts (p.exprPrecedence precedence ts) :=
  (hp ts hts).1 precedence

theorem Parsers.Ready.exprLoop (hp : p.Ready m) (hts : ts.length < m) (precedence : Precedence)
    (e : Expr) : Steady ts (p.exprLoop precedence e ts) :=
  (hp ts hts).2.1 precedence e

theorem Parsers.Ready.typespec (hp : p.Ready m) (hts : ts.length < m) :
    Progress ts (p.typespec ts) :=
  (hp ts hts).2.2.1

theorem Parsers.Ready.block (hp : p.Ready m) (hts : ts.length < m) : Progress ts (p.block ts) :=
  (hp ts hts).2.2.2.1

theorem Parsers.Ready.decl (hp : p.Ready m) (hts : ts.length < m) : Progress ts (p.decl ts) :=
  (hp ts hts).2.2.2.2

theorem parseExpr_progress (hp : p.Ready m) (hts : ts.length < m) :
    Progress ts (parseExpr p ts) :=
  hp.exprPrecedence hts .lowest

/-! ## Symbols and type specifiers -/

theorem parseIdentifier_progress : Progress ts (parseIdentifier ts) :=
  Progress.bind (expectCurrent_progress (by decide)) fun _ _ _ => pure_steady _

theorem parseTemplateArgumentList_progress (hp : p.Ready m) (hts : ts.length ≤ m) :
    Progress ts (parseTemplateArgumentList p ts) := by
  refine Progress.bind (expectCurrent_progress (by decide)) fun _ ts₁ h₁ => ?_
  rw [currentToken_bind]
  refine Stops.ite (fun _ => throw_stops ParseError.noConfusion) fun _ => ?_
  refine (Progress.bind (sepByComma_progress fun ts' h' => hp.typespec (by omega))
    fun _ _ _ => ?_).steady
  exact Steady.bind (expectCurrent_steady _) fun _ _ _ => pure_steady _

theorem parseSymbolElement_progress (hp : p.Ready m) (hts : ts.length ≤ m) :
    Progress ts (parseSymbolElement p ts) := by
  refine Progress.bind parseIdentifier_progress fun _ ts₁ h₁ => ?_
  rw [currentToken_bind]
  exact Steady.bind (Stops.ite (fun _ => (parseTemplateArgumentList_progress hp (by omega)).steady)
    fun _ => pure_steady _) fun _ _ _ => pure_steady _

theorem parseSymbol_progress (hp : p.Ready m) (hts : ts.length ≤ m) :
    Progress ts (parseSymbol p ts) := by
  unfold parseSymbol
  rw [currentToken_bind]
  refine Steady.bind_progress (Stops.ite (fun _ => Steady.bind (expectCurrent_steady _)
    fun _ _ _ => pure_steady _) fun _ => pure_steady _) fun _ ts₁ h₁ => ?_
  refine Progress.bind (parseSymbolElement_progress hp (by omega)) fun _ ts₂ h₂ => ?_
  refine Steady.bind (whileKind_steady _ ts₂ (Nat.lt_succ_self _) fun ts' h' _ => ?_)
    fun _ _ _ => pure_steady _
  exact Progress.bind (expectCurrent_progress (by decide)) fun _ _ _ =>
    (parseSymbolElement_progress hp (by omega)).steady

theorem parseTypespecSymbol_progress (hp : p.Ready m) (hts : ts.length ≤ m) :
    Progress ts (parseTypespecSymbol p ts) :=
  Progress.bind (parseSymbol_progress hp hts) fun ⟨_, _⟩ _ _ => pure_steady _

theorem parseTypespecFunction_progress (hp : p.Ready m) (hts : ts.length ≤ m) :
    Progress ts (parseTypespecFunction p ts) := by
  refine Steady.bind_progress (assertCurrent_steady _ _) fun _ ts₁ h₁ => ?_
  refine Progress.bind (expectCurrent_progress (by decide)) fun _ ts₂ h₂ => ?_
  refine Steady.bind (expectCurrent_steady _) fun _ ts₃ h₃ => ?_
  rw [currentToken_bind]
  refine Steady.bind (Stops.ite (fun _ => pure_steady _) fun _ =>
    (sepByComma_progress fun ts' h' => hp.typespec (by omega)).steady) fun _ ts₄ h₄ => ?_
  refine Steady.bind (expectCurrent_steady _) fun _ ts₅ h₅ => ?_
  exact Steady.bind (hp.typespec (by omega)).steady fun _ _ _ => pure_steady _

theorem parseTypespecPointer_progress (hp : p.Ready m) (hts : ts.length ≤ m) :
    Progress ts (parseTypespecPointer p ts) := by
  refine Steady.bind_progress (assertCurrent_steady _ _) fun _ ts₁ h₁ => ?_
  refine Progress.bind (expectCurrent_progress (by decide)) fun _ ts₂ h₂ => ?_
  exact Steady.bind (hp.typespec (by omega)).steady fun _ _ _ => pure_steady _

theorem parseTypespecArrayOrSlice_progress (hp : p.Ready m) (hts : ts.length ≤ m) :
    Progress ts (parseTypespecArrayOrSlice p ts) := by
  refine Steady.bind_progress (assertCurrent_steady _ _) fun _ ts₁ h₁ => ?_
  refine Progress.bind (expectCurrent_progress (by decide)) fun _ ts₂ h₂ => ?_
  rw [currentToken_bind]
  refine Stops.ite (fun _ => ?_) fun _ => ?_
  · refine Steady.bind (expectCurrent_steady _) fun _ ts₃ h₃ => ?_
    exact Steady.bind (hp.typespec (by omega)).steady fun _ _ _ => pure_steady _
  · refine Steady.bind (parseExpr_progress hp (by omega)).steady fun _ ts₃ h₃ => ?_
    refine Steady.bind (expectCurrent_steady _) fun _ ts₄ h₄ => ?_
    exact Steady.bind (hp.typespec (by omega)).steady fun _ _ _ => pure_steady _

theorem parseTypespecTypeof_progress (hp : p.Ready m) (hts : ts.length ≤ m) :
    Progress ts (parseTypespecTypeof p ts) := by
  refine Steady.bind_progress (assertCurrent_steady _ _) fun _ ts₁ h₁ => ?_
  refine Progress.bind (expectCurrent_progress (by decide)) fun _ ts₂ h₂ => ?_
  refine Steady.bind (expectCurrent_steady _) fun _ ts₃ h₃ => ?_
  refine Steady.bind (parseExpr_progress hp (by omega)).steady fun _ _ _ => ?_
  exact Steady.bind (expectCurrent_steady _) fun _ _ _ => pure_steady _

/-- `parse_typespec` run with `p` on at most `m` tokens stops. -/
theorem parseTypespec_progress (hp : p.Ready m) (hts : ts.length ≤ m) :
    Progress ts (parseTypespec p ts) := by
  unfold parseTypespec
  rw [currentToken_bind]
  refine Stops.ite (fun _ => parseTypespecSymbol_progress hp hts) fun _ => ?_
  refine Stops.ite (fun _ => parseTypespecFunction_progress hp hts) fun _ => ?_
  refine Stops.ite (fun _ => parseTypespecPointer_progress hp hts) fun _ => ?_
  refine Stops.ite (fun _ => parseTypespecArrayOrSlice_progress hp hts) fun _ => ?_
  exact Stops.ite (fun _ => parseTypespecTypeof_progress hp hts) fun _ =>
    throw_stops ParseError.noConfusion

/-! ## Null denotations -/

theorem parseExprSymbol_progress (hp : p.Ready m) (hts : ts.length ≤ m) :
    Progress ts (parseExprSymbol p ts) :=
  Progress.bind (parseSymbol_progress hp hts) fun ⟨_, _⟩ _ _ => pure_steady _

theorem parseBoolean_progress : Progress ts (parseBoolean ts) := by
  show Progress ts ((advanceToken >>= fun token => _) ts)
  rw [advanceToken_bind]
  refine Stops.ite (fun h => ?_) fun _ => throw_stops ParseError.noConfusion
  exact current_kind_ne_eof (by rcases h with h | h <;> rw [h] <;> decide)

theorem parseExprBoolean_progress : Progress ts (parseExprBoolean ts) :=
  Progress.bind parseBoolean_progress fun _ _ _ => pure_steady _

theorem parseInteger_progress : Progress ts (parseInteger ts) :=
  Progress.bind (expectCurrent_progress (by decide)) fun _ _ _ => pure_steady _

theorem parseExprInteger_progress : Progress ts (parseExprInteger ts) :=
  Progress.bind parseInteger_progress fun ⟨_, _⟩ _ _ => pure_steady _

theorem parseExprCharacter_progress : Progress ts (parseExprCharacter ts) :=
  Progress.bind (expectCurrent_progress (by decide)) fun _ _ _ => pure_steady _

theorem parseExprBytes_progress : Progress ts (parseExprBytes ts) :=
  Progress.bind (expectCurrent_progress (by decide)) fun _ _ _ => pure_steady _

theorem parseMemberInitializer_progress (hp : p.Ready m) (hts : ts.length ≤ m) :
    Progress ts (parseMemberInitializer p ts) := by
  refine Progress.bind (expectCurrent_progress (by decide)) fun _ ts₁ h₁ => ?_
  refine Steady.bind parseIdentifier_progress.steady fun _ ts₂ h₂ => ?_
  refine Steady.bind (expectCurrent_steady _) fun _ ts₃ h₃ => ?_
  exact Steady.bind (parseExpr_progress hp (by omega)).steady fun _ _ _ => pure_steady _

/-- The initializers of a struct literal may be none: the list does not grow its input. -/
theorem parseMemberInitializerList_steady (hp : p.Ready m) (hts : ts.length ≤ m) :
    Steady ts (parseMemberInitializerList p ts) := by
  show Steady ts ((currentToken >>= fun token => _) ts)
  rw [currentToken_bind]
  exact Stops.ite (fun _ => (sepByComma_progress fun _ h' =>
    parseMemberInitializer_progress hp (Nat.le_trans h' hts)).steady) fun _ => pure_steady _

theorem parseArrayElements_steady (hp : p.Ready m) :
    ∀ (bound : Nat) (ts : List Token) (first : Bool), ts.length < bound → ts.length < m →
      Steady ts (parseArrayElements p bound first ts)
  | 0, _, _, h, _ => absurd h (Nat.not_lt_zero _)
  | bound + 1, ts, first, hb, hts => by
    rw [parseArrayElements, currentToken_bind]
    refine Stops.ite (fun _ => pure_steady _) fun _ => ?_
    refine Steady.bind (commaUnlessFirst_steady first ts) fun _ ts₁ h₁ => ?_
    refine (Progress.bind (parseExpr_progress hp (by omega)) fun _ ts₂ h₂ => ?_).steady
    rw [currentToken_bind]
    exact Stops.ite (fun _ => Steady.bind (expectCurrent_steady _) fun _ _ _ => pure_steady _)
      fun _ => Steady.bind (parseArrayElements_steady hp bound ts₂ false (by omega) (by omega))
        fun ⟨_, _⟩ _ _ => pure_steady _

theorem parseExprLparen_progress (hp : p.Ready m) (hts : ts.length ≤ m) :
    Progress ts (parseExprLparen p ts) := by
  refine Progress.bind (expectCurrent_progress (by decide)) fun _ ts₁ h₁ => ?_
  rw [currentToken_bind]
  refine Stops.ite (fun _ => ?_) fun _ => ?_
  · refine Steady.bind (parseExpr_progress hp (by omega)).steady fun _ ts₂ h₂ => ?_
    exact Steady.bind (expectCurrent_steady _) fun _ _ _ => pure_steady _
  refine Steady.bind (expectCurrent_steady _) fun _ ts₂ h₂ => ?_
  refine Steady.bind (hp.typespec (by omega)).steady fun _ ts₃ h₃ => ?_
  refine Steady.bind (expectCurrent_steady _) fun _ ts₄ h₄ => ?_
  rw [currentToken_bind]
  refine Stops.ite (fun _ => ?_) fun _ => Stops.ite (fun _ => ?_) fun _ =>
    Stops.ite (fun _ => ?_) fun _ => Stops.ite (fun _ => ?_) fun _ => ?_
  · refine Steady.bind (expectCurrent_steady _) fun _ ts₅ h₅ => ?_
    refine Steady.bind (parseArrayElements_steady hp _ ts₅ true (Nat.lt_succ_self _) (by omega))
      fun ⟨_, _⟩ _ _ => ?_
    exact Steady.bind (expectCurrent_steady _) fun _ _ _ => pure_steady _
  · refine Steady.bind (expectCurrent_steady _) fun _ ts₅ h₅ => ?_
    refine Steady.bind (parseExpr_progress hp (by omega)).steady fun _ ts₆ h₆ => ?_
    refine Steady.bind (expectCurrent_steady _) fun _ ts₇ h₇ => ?_
    refine Steady.bind (parseExpr_progress hp (by omega)).steady fun _ _ _ => ?_
    exact Steady.bind (expectCurrent_steady _) fun _ _ _ => pure_steady _
  · refine Steady.bind (expectCurrent_steady _) fun _ ts₅ h₅ => ?_
    refine Steady.bind (untilKindSep_steady _ ts₅ true (Nat.lt_succ_self _)
      fun _ h' => parseExpr_progress hp (by omega)) fun _ _ _ => ?_
    exact Steady.bind (expectCurrent_steady _) fun _ _ _ => pure_steady _
  · refine Steady.bind (expectCurrent_steady _) fun _ ts₅ h₅ => ?_
    refine Steady.bind (parseMemberInitializerList_steady hp (by omega)) fun _ _ _ => ?_
    exact Steady.bind (expectCurrent_steady _) fun _ _ _ => pure_steady _
  · exact Steady.bind (hp.exprPrecedence (by omega) _).steady fun _ _ _ => pure_steady _

theorem parseExprSyscall_progress (hp : p.Ready m) (hts : ts.length ≤ m) :
    Progress ts (parseExprSyscall p ts) := by
  refine Progress.bind (expectCurrent_progress (by decide)) fun _ ts₁ h₁ => ?_
  refine Steady.bind (expectCurrent_steady _) fun _ ts₂ h₂ => ?_
  refine Steady.bind (parseExpr_progress hp (by omega)).steady fun _ ts₃ h₃ => ?_
  refine Steady.bind (untilKind_steady _ ts₃ (Nat.lt_succ_self _) fun _ h' => ?_) fun _ _ _ => ?_
  · exact Progress.bind (expectCurrent_progress (by decide)) fun _ _ _ =>
      (parseExpr_progress hp (by omega)).steady
  · exact Steady.bind (expectCurrent_steady _) fun _ _ _ => pure_steady _

theorem parseExprOfTypespec_progress {keyword : TokenKind} {node : Typespec → Expr}
    (hk : keyword ≠ .eof) (hp : p.Ready m) (hts : ts.length ≤ m) :
    Progress ts (parseExprOfTypespec keyword node p ts) := by
  refine Progress.bind (expectCurrent_progress hk) fun _ ts₁ h₁ => ?_
  refine Steady.bind (expectCurrent_steady _) fun _ ts₂ h₂ => ?_
  refine Steady.bind (hp.typespec (by omega)).steady fun _ _ _ => ?_
  exact Steady.bind (expectCurrent_steady _) fun _ _ _ => pure_steady _

/-- `parse_expr_nud_unary` advances past its operator without checking it: it stops as its
operand does. -/
theorem parseExprNudUnary_progress (hp : p.Ready m) (hts : ts.tail.length < m) :
    Progress ts (parseExprNudUnary p ts) := by
  show Progress ts ((advanceToken >>= fun op => _) ts)
  rw [advanceToken_bind]
  refine Progress.of_le (Stops.ite (fun _ => ?_) fun _ => ?_) (length_tail_le ts)
  · refine Progress.bind (expectCurrent_progress (by decide)) fun _ ts₂ h₂ => ?_
    refine Steady.bind (hp.exprPrecedence (by omega) _).steady fun _ _ _ => ?_
    exact Steady.bind (expectCurrent_steady _) fun _ _ _ => pure_steady _
  · exact Progress.bind (hp.exprPrecedence hts _) fun _ _ _ => pure_steady _

/-! ## Left denotations and the Pratt loop -/

theorem parseExprLedLparen_progress (hp : p.Ready m) (hts : ts.length ≤ m) (lhs : Expr) :
    Progress ts (parseExprLedLparen p lhs ts) := by
  refine Progress.bind (expectCurrent_progress (by decide)) fun _ ts₁ h₁ => ?_
  refine Steady.bind (untilKindSep_steady _ ts₁ true (Nat.lt_succ_self _)
    fun _ h' => parseExpr_progress hp (by omega)) fun _ _ _ => ?_
  exact Steady.bind (expectCurrent_steady _) fun _ _ _ => pure_steady _

theorem parseExprLedLbracket_progress (hp : p.Ready m) (hts : ts.length ≤ m) (lhs : Expr) :
    Progress ts (parseExprLedLbracket p lhs ts) := by
  refine Progress.bind (expectCurrent_progress (by decide)) fun _ ts₁ h₁ => ?_
  refine Steady.bind (parseExpr_progress hp (by omega)).steady fun _ ts₂ h₂ => ?_
  rw [currentToken_bind]
  refine Stops.ite (fun _ => ?_) fun _ =>
    Steady.bind (expectCurrent_steady _) fun _ _ _ => pure_steady _
  refine Steady.bind (expectCurrent_steady _) fun _ ts₃ h₃ => ?_
  refine Steady.bind (parseExpr_progress hp (by omega)).steady fun _ _ _ => ?_
  exact Steady.bind (expectCurrent_steady _) fun _ _ _ => pure_steady _

theorem parseExprLedDotStar_progress (lhs : Expr) : Progress ts (parseExprLedDotStar lhs ts) :=
  Progress.bind (expectCurrent_progress (by decide)) fun _ _ _ => pure_steady _

theorem parseExprLedDot_progress (lhs : Expr) : Progress ts (parseExprLedDot lhs ts) :=
  Progress.bind (expectCurrent_progress (by decide)) fun _ _ _ =>
    Steady.bind parseIdentifier_progress.steady fun _ _ _ => pure_steady _

/-- `parse_expr_led_binary` advances past its operator without checking it: it stops as its
right operand does. -/
theorem parseExprLedBinary_progress (hp : p.Ready m) (hts : ts.tail.length < m) (lhs : Expr) :
    Progress ts (parseExprLedBinary p lhs ts) := by
  show Progress ts ((advanceToken >>= fun op => _) ts)
  rw [advanceToken_bind]
  exact Progress.of_le (Progress.bind (hp.exprPrecedence hts _) fun _ _ _ => pure_steady _)
    (length_tail_le ts)

/-- Every null denotation of `token_kind_nud` consumes a token or stops. -/
theorem tokenKindNud_progress (hp : p.Ready m) (hts : ts.length ≤ m) {f : Parser Expr} :
    ∀ {k}, (current ts).kind = k → tokenKindNud p k = some f → Progress ts (f ts) := by
  intro k hk h
  have htail : (current ts).kind ≠ .eof → ts.tail.length < m := fun he =>
    Nat.lt_of_lt_of_le (current_kind_ne_eof he) hts
  cases k <;> cases h
  case identifier | colonColon => exact parseExprSymbol_progress hp hts
  case true_ | false_ => exact parseExprBoolean_progress
  case integer => exact parseExprInteger_progress
  case character => exact parseExprCharacter_progress
  case bytes => exact parseExprBytes_progress
  case lparen => exact parseExprLparen_progress hp hts
  case syscall => exact parseExprSyscall_progress hp hts
  case sizeof | alignof => exact parseExprOfTypespec_progress (by decide) hp hts
  all_goals exact parseExprNudUnary_progress hp (htail (by rw [hk]; decide))

/-- Every left denotation of `token_kind_led` consumes a token or stops. -/
theorem tokenKindLed_progress (hp : p.Ready m) (hts : ts.length ≤ m) {f : Expr → Parser Expr}
    (lhs : Expr) :
    ∀ {k}, (current ts).kind = k → tokenKindLed p k = some f → Progress ts (f lhs ts) := by
  intro k hk h
  have htail : (current ts).kind ≠ .eof → ts.tail.length < m := fun he =>
    Nat.lt_of_lt_of_le (current_kind_ne_eof he) hts
  cases k <;> cases h
  case lparen => exact parseExprLedLparen_progress hp hts lhs
  case lbracket => exact parseExprLedLbracket_progress hp hts lhs
  case dotStar => exact parseExprLedDotStar_progress lhs
  case dot => exact parseExprLedDot_progress lhs
  all_goals exact parseExprLedBinary_progress hp (htail (by rw [hk]; decide)) lhs

/-- `parse_expr_precedence` run with `p` on at most `m` tokens stops. -/
theorem parseExprPrecedence_progress (hp : p.Ready m) (hts : ts.length ≤ m)
    (precedence : Precedence) : Progress ts (parseExprPrecedence p precedence ts) := by
  unfold parseExprPrecedence
  rw [currentToken_bind]
  cases h : tokenKindNud p (current ts).kind with
  | none => exact throw_stops ParseError.noConfusion
  | some f => exact Progress.bind (tokenKindNud_progress hp hts rfl h) fun _ _ h₁ =>
      hp.exprLoop (by omega) _ _

/-- A round of the Pratt loop run with `p` on at most `m` tokens stops without growing its
input. -/
theorem parseExprLoop_steady (hp : p.Ready m) (hts : ts.length ≤ m) (precedence : Precedence)
    (e : Expr) : Steady ts (parseExprLoop p precedence e ts) := by
  unfold parseExprLoop
  rw [currentToken_bind]
  refine Stops.ite (fun _ => ?_) fun _ => pure_steady _
  cases h : tokenKindLed p (current ts).kind with
  | none => exact pure_steady _
  | some f => exact (Progress.bind (tokenKindLed_progress hp hts e rfl h) fun _ _ h₁ =>
      hp.exprLoop (by omega) _ _).steady

/-! ## Statements -/

theorem parseStmtDecl_progress (hp : p.Ready m) (hts : ts.length < m) :
    Progress ts (parseStmtDecl p ts) :=
  Progress.bind (hp.decl hts) fun _ _ _ => pure_steady _

theorem parseElif_progress (hp : p.Ready m) (hts : ts.tail.length < m) :
    Progress ts (parseElif p ts) := by
  show Progress ts ((advanceToken >>= fun _ => _) ts)
  rw [advanceToken_bind]
  refine Progress.of_le ?_ (length_tail_le ts)
  refine Progress.bind (parseExpr_progress hp hts) fun _ ts₂ h₂ => ?_
  exact Steady.bind (hp.block (by omega)).steady fun _ _ _ => pure_steady _

theorem parseStmtIf_progress (hp : p.Ready m) (hts : ts.length ≤ m) :
    Progress ts (parseStmtIf p ts) := by
  refine Steady.bind_progress (assertCurrent_steady _ _) fun _ ts₁ h₁ => ?_
  refine Progress.bind (expectCurrent_progress (by decide)) fun _ ts₂ h₂ => ?_
  refine Steady.bind (parseExpr_progress hp (by omega)).steady fun _ ts₃ h₃ => ?_
  refine Steady.bind (hp.block (by omega)).steady fun _ ts₄ h₄ => ?_
  refine Steady.bind (whileKind_steady _ ts₄ (Nat.lt_succ_self _) fun ts' h' _ =>
    parseElif_progress hp (by have := length_tail_le ts'; omega)) fun _ ts₅ h₅ => ?_
  rw [currentToken_bind]
  refine Steady.bind (Stops.ite (fun _ => ?_) fun _ => pure_steady _) fun _ _ _ => pure_steady _
  refine Steady.bind advanceToken_steady fun _ ts₆ h₆ => ?_
  exact Steady.bind (hp.block (by omega)).steady fun _ _ _ => pure_steady _

theorem parseStmtFor_progress (hp : p.Ready m) (hts : ts.length ≤ m) :
    Progress ts (parseStmtFor p ts) := by
  refine Steady.bind_progress (assertCurrent_steady _ _) fun _ ts₁ h₁ => ?_
  refine Progress.bind (expectCurrent_progress (by decide)) fun _ ts₂ h₂ => ?_
  rw [currentToken_bind, peekToken_bind]
  refine Stops.ite (fun _ => ?_) fun _ => ?_
  · refine Steady.bind parseIdentifier_progress.steady fun _ ts₃ h₃ => ?_
    refine Steady.bind (expectCurrent_steady _) fun _ ts₄ h₄ => ?_
    refine Steady.bind (parseExpr_progress hp (by omega)).steady fun _ ts₅ h₅ => ?_
    refine Steady.bind (expectCurrent_steady _) fun _ ts₆ h₆ => ?_
    refine Steady.bind (parseExpr_progress hp (by omega)).steady fun _ ts₇ h₇ => ?_
    exact Steady.bind (hp.block (by omega)).steady fun _ _ _ => pure_steady _
  · refine Steady.bind (parseExpr_progress hp (by omega)).steady fun _ ts₃ h₃ => ?_
    exact Steady.bind (hp.block (by omega)).steady fun _ _ _ => pure_steady _

theorem parseStmtJump_progress {keyword : TokenKind} {condition : String} {stmt : Stmt}
    (hk : keyword ≠ .eof) : Progress ts (parseStmtJump keyword condition stmt ts) :=
  Steady.bind_progress (assertCurrent_steady _ _) fun _ _ _ =>
    Progress.bind (expectCurrent_progress hk) fun _ _ _ =>
      Steady.bind (expectCurrent_steady _) fun _ _ _ => pure_steady _

theorem parseStmtDump_progress (hp : p.Ready m) (hts : ts.length ≤ m) :
    Progress ts (parseStmtDump p ts) := by
  refine Steady.bind_progress (assertCurrent_steady _ _) fun _ ts₁ h₁ => ?_
  refine Progress.bind (expectCurrent_progress (by decide)) fun _ ts₂ h₂ => ?_
  refine Steady.bind (parseExpr_progress hp (by omega)).steady fun _ _ _ => ?_
  exact Steady.bind (expectCurrent_steady _) fun _ _ _ => pure_steady _

theorem parseStmtReturn_progress (hp : p.Ready m) (hts : ts.length ≤ m) :
    Progress ts (parseStmtReturn p ts) := by
  refine Steady.bind_progress (assertCurrent_steady _ _) fun _ ts₁ h₁ => ?_
  refine Progress.bind (expectCurrent_progress (by decide)) fun _ ts₂ h₂ => ?_
  rw [currentToken_bind]
  refine Steady.bind (Stops.ite (fun _ => ?_) fun _ => pure_steady _) fun _ _ _ =>
    Steady.bind (expectCurrent_steady _) fun _ _ _ => pure_steady _
  exact Steady.bind (parseExpr_progress hp (by omega)).steady fun _ _ _ => pure_steady _

/-- `parse_stmt` parses an expression statement from its own input, so it needs one nested call
more than the statements that start with a keyword. -/
theorem parseStmt_progress (hp : p.Ready m) (hts : ts.length < m) :
    Progress ts (parseStmt p ts) := by
  unfold parseStmt
  rw [currentToken_bind]
  refine Stops.ite (fun _ => parseStmtDecl_progress hp hts) fun _ => ?_
  refine Stops.ite (fun _ => parseStmtIf_progress hp hts.le) fun _ => ?_
  refine Stops.ite (fun _ => parseStmtFor_progress hp hts.le) fun _ => ?_
  refine Stops.ite (fun _ => parseStmtJump_progress (by decide)) fun _ => ?_
  refine Stops.ite (fun _ => parseStmtJump_progress (by decide)) fun _ => ?_
  refine Stops.ite (fun _ => parseStmtDump_progress hp hts.le) fun _ => ?_
  refine Stops.ite (fun _ => parseStmtReturn_progress hp hts.le) fun _ => ?_
  refine Progress.bind (parseExpr_progress hp hts) fun _ ts₁ h₁ => ?_
  rw [currentToken_bind]
  refine Stops.ite (fun _ => ?_) fun _ =>
    Steady.bind (expectCurrent_steady _) fun _ _ _ => pure_steady _
  refine Steady.bind (expectCurrent_steady _) fun _ ts₂ h₂ => ?_
  refine Steady.bind (parseExpr_progress hp (by omega)).steady fun _ _ _ => ?_
  exact Steady.bind (expectCurrent_steady _) fun _ _ _ => pure_steady _

/-- `parse_block` run with `p` on at most `m` tokens stops. -/
theorem parseBlock_progress (hp : p.Ready m) (hts : ts.length ≤ m) :
    Progress ts (parseBlock p ts) := by
  refine Progress.bind (expectCurrent_progress (by decide)) fun _ ts₁ h₁ => ?_
  refine Steady.bind (untilKind_steady _ ts₁ (Nat.lt_succ_self _)
    fun _ h' => parseStmt_progress hp (by omega)) fun _ _ _ => ?_
  exact Steady.bind (expectCurrent_steady _) fun _ _ _ => pure_steady _

/-! ## Declarations -/

theorem parseDeclBinding_progress {keyword : TokenKind}
    {decl : String → Option Typespec → Expr → Decl} (hk : keyword ≠ .eof) (hp : p.Ready m)
    (hts : ts.length ≤ m) : Progress ts (parseDeclBinding keyword decl p ts) := by
  refine Progress.bind (expectCurrent_progress hk) fun _ ts₁ h₁ => ?_
  refine Steady.bind parseIdentifier_progress.steady fun _ ts₂ h₂ => ?_
  rw [currentToken_bind]
  refine Steady.bind (Stops.ite (fun _ => ?_) fun _ => pure_steady _) fun _ ts₃ h₃ => ?_
  · refine Steady.bind (expectCurrent_steady _) fun _ ts₄ h₄ => ?_
    exact Steady.bind (hp.typespec (by omega)).steady fun _ _ _ => pure_steady _
  refine Steady.bind (expectCurrent_steady _) fun _ ts₄ h₄ => ?_
  refine Steady.bind (parseExpr_progress hp (by omega)).steady fun _ _ _ => ?_
  exact Steady.bind (expectCurrent_steady _) fun _ _ _ => pure_steady _

theorem parseDeclVariable_progress (hp : p.Ready m) (hts : ts.length ≤ m) :
    Progress ts (parseDeclVariable p ts) :=
  parseDeclBinding_progress (by decide) hp hts

theorem parseDeclConstant_progress (hp : p.Ready m) (hts : ts.length ≤ m) :
    Progress ts (parseDeclConstant p ts) :=
  parseDeclBinding_progress (by decide) hp hts

/-- The template parameters may be none: the list does not grow its input. -/
theorem parseTemplateParameterList_steady : Steady ts (parseTemplateParameterList ts) := by
  show Steady ts ((currentToken >>= fun token => _) ts)
  rw [currentToken_bind]
  refine Stops.ite (fun _ => pure_steady _) fun _ => ?_
  refine (Progress.bind (expectCurrent_progress (by decide)) fun _ ts₁ _ => ?_).steady
  rw [currentToken_bind]
  refine Stops.ite (fun _ => throw_stops ParseError.noConfusion) fun _ => ?_
  refine (Progress.bind (sepByComma_progress fun _ _ => parseIdentifier_progress)
    fun _ _ _ => ?_).steady
  exact Steady.bind (expectCurrent_steady _) fun _ _ _ => pure_steady _

theorem parseFunctionParameter_progress (hp : p.Ready m) (hts : ts.length ≤ m) :
    Progress ts (parseFunctionParameter p ts) := by
  refine Progress.bind parseIdentifier_progress fun _ ts₁ h₁ => ?_
  refine Steady.bind (expectCurrent_steady _) fun _ ts₂ h₂ => ?_
  exact Steady.bind (hp.typespec (by omega)).steady fun _ _ _ => pure_steady _

/-- The function parameters may be none: the list does not grow its input. -/
theorem parseFunctionParameterList_steady (hp : p.Ready m) (hts : ts.length ≤ m) :
    Steady ts (parseFunctionParameterList p ts) := by
  show Steady ts ((currentToken >>= fun token => _) ts)
  rw [currentToken_bind]
  exact Stops.ite (fun _ => pure_steady _) fun _ => (sepByComma_progress fun _ h' =>
    parseFunctionParameter_progress hp (Nat.le_trans h' hts)).steady

theorem parseDeclFunction_progress (hp : p.Ready m) (hts : ts.length ≤ m) :
    Progress ts (parseDeclFunction p ts) := by
  refine Progress.bind (expectCurrent_progress (by decide)) fun _ ts₁ h₁ => ?_
  refine Steady.bind parseIdentifier_progress.steady fun _ ts₂ h₂ => ?_
  refine Steady.bind parseTemplateParameterList_steady fun _ ts₃ h₃ => ?_
  refine Steady.bind (expectCurrent_steady _) fun _ ts₄ h₄ => ?_
  refine Steady.bind (parseFunctionParameterList_steady hp (by omega)) fun _ ts₅ h₅ => ?_
  refine Steady.bind (expectCurrent_steady _) fun _ ts₆ h₆ => ?_
  refine Steady.bind (hp.typespec (by omega)).steady fun _ ts₇ h₇ => ?_
  exact Steady.bind (hp.block (by omega)).steady fun _ _ _ => pure_steady _

theorem parseMemberVariable_progress (hp : p.Ready m) (hts : ts.length ≤ m) :
    Progress ts (parseMemberVariable p ts) := by
  refine Progress.bind (expectCurrent_progress (by decide)) fun _ ts₁ h₁ => ?_
  refine Steady.bind parseIdentifier_progress.steady fun _ ts₂ h₂ => ?_
  refine Steady.bind (expectCurrent_steady _) fun _ ts₃ h₃ => ?_
  refine Steady.bind (hp.typespec (by omega)).steady fun _ _ _ => ?_
  exact Steady.bind (expectCurrent_steady _) fun _ _ _ => pure_steady _

theorem parseMemberConstant_progress (hp : p.Ready m) (hts : ts.length ≤ m) :
    Progress ts (parseMemberConstant p ts) :=
  Progress.bind (parseDeclConstant_progress hp hts) fun _ _ _ => pure_steady _

theorem parseMemberFunction_progress (hp : p.Ready m) (hts : ts.length ≤ m) :
    Progress ts (parseMemberFunction p ts) :=
  Progress.bind (parseDeclFunction_progress hp hts) fun _ _ _ => pure_steady _

theorem parseMember_progress (hp : p.Ready m) (hts : ts.length ≤ m) :
    Progress ts (parseMember p ts) := by
  unfold parseMember
  rw [currentToken_bind]
  refine Stops.ite (fun _ => parseMemberVariable_progress hp hts) fun _ => ?_
  refine Stops.ite (fun _ => parseMemberConstant_progress hp hts) fun _ => ?_
  exact Stops.ite (fun _ => parseMemberFunction_progress hp hts) fun _ =>
    throw_stops ParseError.noConfusion

/-- The members of a struct may be none: the list does not grow its input. -/
theorem parseMemberList_steady (hp : p.Ready m) (hts : ts.length ≤ m) :
    Steady ts (parseMemberList p ts) :=
  untilKind_steady _ ts (Nat.lt_succ_self _) fun _ h' =>
    parseMember_progress hp (Nat.le_trans h' hts)

theorem parseDeclStruct_progress (hp : p.Ready m) (hts : ts.length ≤ m) :
    Progress ts (parseDeclStruct p ts) := by
  refine Progress.bind (expectCurrent_progress (by decide)) fun _ ts₁ h₁ => ?_
  refine Steady.bind parseIdentifier_progress.steady fun _ ts₂ h₂ => ?_
  refine Steady.bind parseTemplateParameterList_steady fun _ ts₃ h₃ => ?_
  refine Steady.bind (expectCurrent_steady _) fun _ ts₄ h₄ => ?_
  refine Steady.bind (parseMemberList_steady hp (by omega)) fun _ _ _ => ?_
  exact Steady.bind (expectCurrent_steady _) fun _ _ _ => pure_steady _

theorem parseDeclExtend_progress (hp : p.Ready m) (hts : ts.length ≤ m) :
    Progress ts (parseDeclExtend p ts) := by
  refine Progress.bind (expectCurrent_progress (by decide)) fun _ ts₁ h₁ => ?_
  refine Steady.bind (hp.typespec (by omega)).steady fun _ ts₂ h₂ => ?_
  exact Steady.bind (hp.decl (by omega)).steady fun _ _ _ => pure_steady _

theorem parseDeclAlias_progress (hp : p.Ready m) (hts : ts.length ≤ m) :
    Progress ts (parseDeclAlias p ts) := by
  refine Progress.bind (expectCurrent_progress (by decide)) fun _ ts₁ h₁ => ?_
  refine Steady.bind parseIdentifier_progress.steady fun _ ts₂ h₂ => ?_
  refine Steady.bind (expectCurrent_steady _) fun _ ts₃ h₃ => ?_
  refine Steady.bind (parseSymbol_progress hp (by omega)).steady fun ⟨_, _⟩ _ _ => ?_
  exact Steady.bind (expectCurrent_steady _) fun _ _ _ => pure_steady _

theorem parseDeclExternVariable_progress (hp : p.Ready m) (hts : ts.length ≤ m) :
    Progress ts (parseDeclExternVariable p ts) := by
  refine Progress.bind (expectCurrent_progress (by decide)) fun _ ts₁ h₁ => ?_
  refine Steady.bind (expectCurrent_steady _) fun _ ts₂ h₂ => ?_
  refine Steady.bind parseIdentifier_progress.steady fun _ ts₃ h₃ => ?_
  refine Steady.bind (expectCurrent_steady _) fun _ ts₄ h₄ => ?_
  refine Steady.bind (hp.typespec (by omega)).steady fun _ _ _ => ?_
  exact Steady.bind (expectCurrent_steady _) fun _ _ _ => pure_steady _

/-- `parse_decl` run with `p` on at most `m` tokens stops. -/
theorem parseDecl_progress (hp : p.Ready m) (hts : ts.length ≤ m) :
    Progress ts (parseDecl p ts) := by
  unfold parseDecl
  rw [currentToken_bind]
  refine Stops.ite (fun _ => parseDeclVariable_progress hp hts) fun _ => ?_
  refine Stops.ite (fun _ => parseDeclConstant_progress hp hts) fun _ => ?_
  refine Stops.ite (fun _ => parseDeclFunction_progress hp hts) fun _ => ?_
  refine Stops.ite (fun _ => parseDeclStruct_progress hp hts) fun _ => ?_
  refine Stops.ite (fun _ => parseDeclExtend_progress hp hts) fun _ => ?_
  refine Stops.ite (fun _ => parseDeclAlias_progress hp hts) fun _ => ?_
  rw [peekToken_bind]
  exact Stops.ite (fun _ => parseDeclExternVariable_progress hp hts) fun _ =>
    throw_stops ParseError.noConfusion

/-! ## Modules -/

theorem parseNamespace_progress : Progress ts (parseNamespace ts) := by
  refine Progress.bind (expectCurrent_progress (by decide)) fun _ ts₁ h₁ => ?_
  refine Steady.bind parseIdentifier_progress.steady fun _ ts₂ h₂ => ?_
  refine Steady.bind (untilKind_steady _ ts₂ (Nat.lt_succ_self _) fun _ _ => ?_) fun _ _ _ => ?_
  · exact Progress.bind (expectCurrent_progress (by decide)) fun _ _ _ =>
      parseIdentifier_progress.steady
  · exact Steady.bind (expectCurrent_steady _) fun _ _ _ => pure_steady _

theorem parseImport_progress : Progress ts (parseImport ts) :=
  Progress.bind (expectCurrent_progress (by decide)) fun _ _ _ =>
    Steady.bind (expectCurrent_steady _) fun _ _ _ =>
      Steady.bind (expectCurrent_steady _) fun _ _ _ => pure_steady _

/-- A module may be empty: `parse_module` does not grow its input. -/
theorem parseModule_steady (hp : p.Ready m) (hts : ts.length < m) :
    Steady ts (parseModule p ts) := by
  show Steady ts ((currentToken >>= fun token => _) ts)
  rw [currentToken_bind]
  refine Steady.bind (Stops.ite (fun _ => ?_) fun _ => pure_steady _) fun _ ts₁ h₁ => ?_
  · exact (Progress.bind parseNamespace_progress fun _ _ _ => pure_steady _).steady
  refine Steady.bind (whileKind_steady _ ts₁ (Nat.lt_succ_self _) fun _ _ _ =>
    parseImport_progress) fun _ ts₂ h₂ => ?_
  exact Steady.bind (untilKind_steady _ ts₂ (Nat.lt_succ_self _) fun _ h' => hp.decl (by omega))
    fun _ _ _ => pure_steady _

/-- The step of the induction: the parse functions that reach `p` for their nested calls stop
on one token more than `p` does. -/
theorem Parsers.Ready.succ (hp : p.Ready m) :
    (Parsers.mk (parseExprPrecedence p) (parseExprLoop p) (parseTypespec p) (parseBlock p)
      (parseDecl p)).Ready (m + 1) := fun _ h =>
  have hts := Nat.le_of_lt_succ h
  ⟨parseExprPrecedence_progress hp hts, parseExprLoop_steady hp hts,
    parseTypespec_progress hp hts, parseBlock_progress hp hts, parseDecl_progress hp hts⟩

end Ready

/-- The parse functions with `n` nested calls left stop on every input of fewer than `n`
tokens. -/
theorem parsers_ready : ∀ n, (parsers n).Ready n
  | 0 => fun _ h => absurd h (Nat.not_lt_zero _)
  | n + 1 => (parsers_ready n).succ

/-! ## The parse functions of `src/parse.c` -/

/-- The parse functions of `src/parse.c`, with the arguments each takes besides the parser,
indexed by what each returns. -/
inductive ParseFn : Type → Type
  | parseModule : ParseFn Module
  | parseNamespace : ParseFn (List String)
  | parseImport : ParseFn (List UInt8)
  | parseDecl : ParseFn Decl
  | parseDeclVariable : ParseFn Decl
  | parseDeclConstant : ParseFn Decl
  | parseDeclFunction : ParseFn Decl
  | parseDeclStruct : ParseFn Decl
  | parseDeclExtend : ParseFn Decl
  | parseDeclAlias : ParseFn Decl
  | parseDeclExternVariable : ParseFn Decl
  | parseStmt : ParseFn Stmt
  | parseStmtIf : ParseFn Stmt
  | parseStmtFor : ParseFn Stmt
  | parseStmtBreak : ParseFn Stmt
  | parseStmtContinue : ParseFn Stmt
  | parseStmtDump : ParseFn Stmt
  | parseStmtReturn : ParseFn Stmt
  | parseStmtDecl : ParseFn Stmt
  | parseExpr : ParseFn Expr
  | parseExprPrecedence (precedence : Precedence) : ParseFn Expr
  | parseExprSymbol : ParseFn Expr
  | parseExprBoolean : ParseFn Expr
  | parseExprInteger : ParseFn Expr
  | parseExprCharacter : ParseFn Expr
  | parseExprBytes : ParseFn Expr
  | parseExprLparen : ParseFn Expr
  | parseExprSyscall : ParseFn Expr
  | parseExprLedLparen (lhs : Expr) : ParseFn Expr
  | parseExprLedLbracket (lhs : Expr) : ParseFn Expr
  | parseExprLedDotStar (lhs : Expr) : ParseFn Expr
  | parseExprLedDot (lhs : Expr) : ParseFn Expr
  | parseExprSizeof : ParseFn Expr
  | parseExprAlignof : ParseFn Expr
  | parseExprNudUnary : ParseFn Expr
  | parseExprLedBinary (lhs : Expr) : ParseFn Expr
  | parseBlock : ParseFn (List Stmt)
  | parseSymbol : ParseFn (Bool × List SymbolElement)
  | parseSymbolElement : ParseFn SymbolElement
  | parseTemplateParameterList : ParseFn (List String)
  | parseTemplateParameter : ParseFn String
  | parseTemplateArgumentList : ParseFn (List Typespec)
  | parseTemplateArgument : ParseFn Typespec
  | parseFunctionParameterList : ParseFn (List (String × Typespec))
  | parseFunctionParameter : ParseFn (String × Typespec)
  | parseMemberList : ParseFn (List Member)
  | parseMember : ParseFn Member
  | parseMemberVariable : ParseFn Member
  | parseMemberConstant : ParseFn Member
  | parseMemberFunction : ParseFn Member
  | parseMemberInitializerList : ParseFn (List (String × Expr))
  | parseMemberInitializer : ParseFn (String × Expr)
  | parseTypespec : ParseFn Typespec
  | parseTypespecSymbol : ParseFn Typespec
  | parseTypespecFunction : ParseFn Typespec
  | parseTypespecPointer : ParseFn Typespec
  | parseTypespecArrayOrSlice : ParseFn Typespec
  | parseTypespecTypeof : ParseFn Typespec
  | parseIdentifier : ParseFn String
  | parseBoolean : ParseFn Bool
  | parseInteger : ParseFn (Nat × String)

/-- The model of each parse function, its nested calls made through `p`. -/
def ParseFn.run {α : Type} : ParseFn α → Parsers → Parser α
  | .parseModule, p => Sunder.Parse.parseModule p
  | .parseNamespace, _ => Sunder.Parse.parseNamespace
  | .parseImport, _ => Sunder.Parse.parseImport
  | .parseDecl, p => Sunder.Parse.parseDecl p
  | .parseDeclVariable, p => Sunder.Parse.parseDeclVariable p
  | .parseDeclConstant, p => Sunder.Parse.parseDeclConstant p
  | .parseDeclFunction, p => Sunder.Parse.parseDeclFunction p
  | .parseDeclStruct, p => Sunder.Parse.parseDeclStruct p
  | .parseDeclExtend, p => Sunder.Parse.parseDeclExtend p
  | .parseDeclAlias, p => Sunder.Parse.parseDeclAlias p
  | .parseDeclExternVariable, p => Sunder.Parse.parseDeclExternVariable p
  | .parseStmt, p => Sunder.Parse.parseStmt p
  | .parseStmtIf, p => Sunder.Parse.parseStmtIf p
  | .parseStmtFor, p => Sunder.Parse.parseStmtFor p
  | .parseStmtBreak, _ => Sunder.Parse.parseStmtBreak
  | .parseStmtContinue, _ => Sunder.Parse.parseStmtContinue
  | .parseStmtDump, p => Sunder.Parse.parseStmtDump p
  | .parseStmtReturn, p => Sunder.Parse.parseStmtReturn p
  | .parseStmtDecl, p => Sunder.Parse.parseStmtDecl p
  | .parseExpr, p => Sunder.Parse.parseExpr p
  | .parseExprPrecedence precedence, p => Sunder.Parse.parseExprPrecedence p precedence
  | .parseExprSymbol, p => Sunder.Parse.parseExprSymbol p
  | .parseExprBoolean, _ => Sunder.Parse.parseExprBoolean
  | .parseExprInteger, _ => Sunder.Parse.parseExprInteger
  | .parseExprCharacter, _ => Sunder.Parse.parseExprCharacter
  | .parseExprBytes, _ => Sunder.Parse.parseExprBytes
  | .parseExprLparen, p => Sunder.Parse.parseExprLparen p
  | .parseExprSyscall, p => Sunder.Parse.parseExprSyscall p
  | .parseExprLedLparen lhs, p => Sunder.Parse.parseExprLedLparen p lhs
  | .parseExprLedLbracket lhs, p => Sunder.Parse.parseExprLedLbracket p lhs
  | .parseExprLedDotStar lhs, _ => Sunder.Parse.parseExprLedDotStar lhs
  | .parseExprLedDot lhs, _ => Sunder.Parse.parseExprLedDot lhs
  | .parseExprSizeof, p => Sunder.Parse.parseExprSizeof p
  | .parseExprAlignof, p => Sunder.Parse.parseExprAlignof p
  | .parseExprNudUnary, p => Sunder.Parse.parseExprNudUnary p
  | .parseExprLedBinary lhs, p => Sunder.Parse.parseExprLedBinary p lhs
  | .parseBlock, p => Sunder.Parse.parseBlock p
  | .parseSymbol, p => Sunder.Parse.parseSymbol p
  | .parseSymbolElement, p => Sunder.Parse.parseSymbolElement p
  | .parseTemplateParameterList, _ => Sunder.Parse.parseTemplateParameterList
  | .parseTemplateParameter, _ => Sunder.Parse.parseTemplateParameter
  | .parseTemplateArgumentList, p => Sunder.Parse.parseTemplateArgumentList p
  | .parseTemplateArgument, p => Sunder.Parse.parseTemplateArgument p
  | .parseFunctionParameterList, p => Sunder.Parse.parseFunctionParameterList p
  | .parseFunctionParameter, p => Sunder.Parse.parseFunctionParameter p
  | .parseMemberList, p => Sunder.Parse.parseMemberList p
  | .parseMember, p => Sunder.Parse.parseMember p
  | .parseMemberVariable, p => Sunder.Parse.parseMemberVariable p
  | .parseMemberConstant, p => Sunder.Parse.parseMemberConstant p
  | .parseMemberFunction, p => Sunder.Parse.parseMemberFunction p
  | .parseMemberInitializerList, p => Sunder.Parse.parseMemberInitializerList p
  | .parseMemberInitializer, p => Sunder.Parse.parseMemberInitializer p
  | .parseTypespec, p => Sunder.Parse.parseTypespec p
  | .parseTypespecSymbol, p => Sunder.Parse.parseTypespecSymbol p
  | .parseTypespecFunction, p => Sunder.Parse.parseTypespecFunction p
  | .parseTypespecPointer, p => Sunder.Parse.parseTypespecPointer p
  | .parseTypespecArrayOrSlice, p => Sunder.Parse.parseTypespecArrayOrSlice p
  | .parseTypespecTypeof, p => Sunder.Parse.parseTypespecTypeof p
  | .parseIdentifier, _ => Sunder.Parse.parseIdentifier
  | .parseBoolean, _ => Sunder.Parse.parseBoolean
  | .parseInteger, _ => Sunder.Parse.parseInteger

/-- The parse functions that may return an empty result without consuming a token: a module
with no declarations, and the optional lists. -/
def ParseFn.optional {α : Type} : ParseFn α → Bool
  | .parseModule | .parseTemplateParameterList | .parseFunctionParameterList | .parseMemberList
  | .parseMemberInitializerList => true
  | _ => false

/-- Every parse function run on `ts` with more nested calls left than `ts` has tokens stops: an
optional list or a module without growing its input, every other parse function with a
diagnostic or after consuming a token. -/
theorem ParseFn.run_stops {α : Type} (f : ParseFn α) {n : Nat} {ts : List Token}
    (h : ts.length < n) :
    if f.optional then Steady ts (f.run (parsers n) ts) else Progress ts (f.run (parsers n) ts) := by
  have hp := parsers_ready n
  have htail : ts.tail.length < n := Nat.lt_of_le_of_lt (length_tail_le ts) h
  cases f
  case parseModule => exact parseModule_steady hp h
  case parseNamespace => exact parseNamespace_progress
  case parseImport => exact parseImport_progress
  case parseDecl => exact parseDecl_progress hp h.le
  case parseDeclVariable => exact parseDeclVariable_progress hp h.le
  case parseDeclConstant => exact parseDeclConstant_progress hp h.le
  case parseDeclFunction => exact parseDeclFunction_progress hp h.le
  case parseDeclStruct => exact parseDeclStruct_progress hp h.le
  case parseDeclExtend => exact parseDeclExtend_progress hp h.le
  case parseDeclAlias => exact parseDeclAlias_progress hp h.le
  case parseDeclExternVariable => exact parseDeclExternVariable_progress hp h.le
  case parseStmt => exact parseStmt_progress hp h
  case parseStmtIf => exact parseStmtIf_progress hp h.le
  case parseStmtFor => exact parseStmtFor_progress hp h.le
  case parseStmtBreak => exact parseStmtJump_progress (by decide)
  case parseStmtContinue => exact parseStmtJump_progress (by decide)
  case parseStmtDump => exact parseStmtDump_progress hp h.le
  case parseStmtReturn => exact parseStmtReturn_progress hp h.le
  case parseStmtDecl => exact parseStmtDecl_progress hp h
  case parseExpr => exact parseExpr_progress hp h
  case parseExprPrecedence => exact parseExprPrecedence_progress hp h.le _
  case parseExprSymbol => exact parseExprSymbol_progress hp h.le
  case parseExprBoolean => exact parseExprBoolean_progress
  case parseExprInteger => exact parseExprInteger_progress
  case parseExprCharacter => exact parseExprCharacter_progress
  case parseExprBytes => exact parseExprBytes_progress
  case parseExprLparen => exact parseExprLparen_progress hp h.le
  case parseExprSyscall => exact parseExprSyscall_progress hp h.le
  case parseExprLedLparen => exact parseExprLedLparen_progress hp h.le _
  case parseExprLedLbracket => exact parseExprLedLbracket_progress hp h.le _
  case parseExprLedDotStar => exact parseExprLedDotStar_progress _
  case parseExprLedDot => exact parseExprLedDot_progress _
  case parseExprSizeof => exact parseExprOfTypespec_progress (by decide) hp h.le
  case parseExprAlignof => exact parseExprOfTypespec_progress (by decide) hp h.le
  case parseExprNudUnary => exact parseExprNudUnary_progress hp htail
  case parseExprLedBinary => exact parseExprLedBinary_progress hp htail _
  case parseBlock => exact parseBlock_progress hp h.le
  case parseSymbol => exact parseSymbol_progress hp h.le
  case parseSymbolElement => exact parseSymbolElement_progress hp h.le
  case parseTemplateParameterList => exact parseTemplateParameterList_steady
  case parseTemplateParameter => exact parseIdentifier_progress
  case parseTemplateArgumentList => exact parseTemplateArgumentList_progress hp h.le
  case parseTemplateArgument => exact hp.typespec h
  case parseFunctionParameterList => exact parseFunctionParameterList_steady hp h.le
  case parseFunctionParameter => exact parseFunctionParameter_progress hp h.le
  case parseMemberList => exact parseMemberList_steady hp h.le
  case parseMember => exact parseMember_progress hp h.le
  case parseMemberVariable => exact parseMemberVariable_progress hp h.le
  case parseMemberConstant => exact parseMemberConstant_progress hp h.le
  case parseMemberFunction => exact parseMemberFunction_progress hp h.le
  case parseMemberInitializerList => exact parseMemberInitializerList_steady hp h.le
  case parseMemberInitializer => exact parseMemberInitializer_progress hp h.le
  case parseTypespec => exact parseTypespec_progress hp h.le
  case parseTypespecSymbol => exact parseTypespecSymbol_progress hp h.le
  case parseTypespecFunction => exact parseTypespecFunction_progress hp h.le
  case parseTypespecPointer => exact parseTypespecPointer_progress hp h.le
  case parseTypespecArrayOrSlice => exact parseTypespecArrayOrSlice_progress hp h.le
  case parseTypespecTypeof => exact parseTypespecTypeof_progress hp h.le
  case parseIdentifier => exact parseIdentifier_progress
  case parseBoolean => exact parseBoolean_progress
  case parseInteger => exact parseInteger_progress

end Sunder.Parse
