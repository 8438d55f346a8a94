import Sunder.Parse.ReadExpr
import Sunder.Parse.Sound
/-!
# The round trip

`parse` reads the tokens of every well-formed module (`Sunder/Parse/Print.lean`) back as the
module (`parse_tokens`), so the modules it returns are exactly the well-formed ones
(`parse_wellFormed_iff`, with `parseModule_sound`). Over the expressions and type specifiers of
`Sunder/Parse/ReadExpr.lean` (`parseExpr_tokens`):

* `Stmt.Reads`: `parse_stmt` reads a statement back before anything but `elif` and `else`, which
  would extend an `if`; `parseBlock_reads` the statements of a block, up to `}`. A `for` whose
  condition is an expression is no range loop, since no expression is followed by `in`
  (`ReadsExpr.not_range`);
* `Decl.Reads` and `Member.Reads`: `parse_decl` and `parse_member` read a declaration and a
  member back before anything;
* `Decl.WellFormed.reads`, `Member.WellFormed.reads`, `Stmt.WellFormed.reads`: by induction on
  the size of the tree, one lemma per form;
* `parseModule_reads`: the namespace, the imports and the declarations of a module, up to the end
  of the input.
-/

namespace Sunder.Parse

/-! ## What is read back -/

/-- What may follow a statement: neither `elif` nor `else`, which would extend an `if`. -/
def NotElse (ts : List Token) : Prop :=
  (current ts).kind ≠ .elif ∧ (current ts).kind ≠ .else_

/-- `parse_stmt` reads the tokens of `s` back, before anything that extends no `if`. -/
def Stmt.Reads (s : Stmt) : Prop :=
  ∀ rest, NotElse rest → Gives parseStmt (s.tokens ++ rest) (.ok (s, rest))

/-- `parse_block` reads `{ s₁ … sₙ }` back, before anything. -/
def BlockReads (body : List Stmt) : Prop :=
  ∀ rest, Gives (fun p => p.block) (tok .lbrace :: (Stmt.tokensAll body ++ tok .rbrace :: rest))
    (.ok (body, rest))

/-- `parse_decl` reads the tokens of `d` back, before anything. -/
def Decl.Reads (d : Decl) : Prop :=
  ∀ rest, Runs parseDecl (d.tokens ++ rest) (.ok (d, rest))

/-- `parse_member` reads the tokens of `x` back, before anything. -/
def Member.Reads (x : Member) : Prop :=
  ∀ rest, Runs parseMember (x.tokens ++ rest) (.ok (x, rest))

theorem notElse_of_kind {t : Token} {ts : List Token} {k : TokenKind} (ht : t.kind = k)
    (hk : k ≠ .elif ∧ k ≠ .else_ := by decide) : NotElse (t :: ts) := by
  rw [NotElse, current_cons, ht]
  exact hk

/-- Tokens that start with a keyword other than `}`, `elif` and `else`. -/
theorem starts_of_kind {t : Token} {ts : List Token} {k : TokenKind} (ht : t.kind = k)
    (hk : k ≠ .rbrace ∧ k ≠ .elif ∧ k ≠ .else_ := by decide) :
    t :: ts ≠ [] ∧ (current (t :: ts)).kind ≠ .rbrace ∧ NotElse (t :: ts) :=
  ⟨List.cons_ne_nil _ _, by rw [current_cons, ht]; exact hk.1, notElse_of_kind ht hk.2⟩

/-! ## First tokens -/

theorem Decl.current_tokens (d : Decl) : (current d.tokens).kind = d.keyword := by
  cases d <;> rfl

theorem Decl.tokens_ne_nil (d : Decl) : d.tokens ≠ [] := by
  cases d <;> exact List.cons_ne_nil _ _

theorem Decl.current_tokens_append (d : Decl) (rest : List Token) :
    (current (d.tokens ++ rest)).kind = d.keyword := by
  rw [current_append (Decl.tokens_ne_nil d), Decl.current_tokens]

theorem Decl.ends (d : Decl) (rest : List Token) : Ends (d.tokens ++ rest) := by
  cases d <;> exact ends_of_kind rfl

/-- A token that starts an expression starts no other statement. -/
theorem stmtKeyword_of_nud {p : Parsers} {k : TokenKind} (h : (tokenKindNud p k).isSome) :
    ¬(k = .var ∨ k = .const ∨ k = .func ∨ k = .alias) ∧ k ≠ .if_ ∧ k ≠ .for_ ∧
      k ≠ .break_ ∧ k ≠ .continue_ ∧ k ≠ .dump ∧ k ≠ .return_ :=
  ⟨fun hk => by rcases hk with hk | hk | hk | hk <;> exact absurd hk (ne_of_nud h rfl),
    ne_of_nud h rfl, ne_of_nud h rfl, ne_of_nud h rfl, ne_of_nud h rfl, ne_of_nud h rfl,
    ne_of_nud h rfl⟩

/-- A statement starts with a keyword or with an expression: neither `}` nor `elif` nor
`else`. -/
theorem Stmt.WellFormed.starts {s : Stmt} (h : s.WellFormed) :
    s.tokens ≠ [] ∧ (current s.tokens).kind ≠ .rbrace ∧ NotElse s.tokens := by
  have hexpr : ∀ {e : Expr} {ts : List Token}, e.WellFormed →
      e.tokens ++ ts ≠ [] ∧ (current (e.tokens ++ ts)).kind ≠ .rbrace ∧
        NotElse (e.tokens ++ ts) :=
    fun he => ⟨by simp [he.readsExpr.ne_nil], he.readsExpr.current_ne _ .rbrace,
      he.readsExpr.current_ne _ .elif, he.readsExpr.current_ne _ .else_⟩
  cases h with
  | @decl d _ hk =>
    refine ⟨Decl.tokens_ne_nil d, ?_⟩
    show (current d.tokens).kind ≠ .rbrace ∧ NotElse d.tokens
    rw [NotElse, Decl.current_tokens]
    rcases hk with hk | hk | hk | hk <;> rw [hk] <;> decide
  | assign hl => exact hexpr hl
  | expr he => exact hexpr he
  | @return_ e => cases e <;> exact starts_of_kind (t := tok .return_) rfl
  | if_ => exact starts_of_kind (t := tok .if_) rfl
  | forRange => exact starts_of_kind (t := tok .for_) rfl
  | forExpr => exact starts_of_kind (t := tok .for_) rfl
  | break_ => exact starts_of_kind (t := tok .break_) rfl
  | continue_ => exact starts_of_kind (t := tok .continue_) rfl
  | dump => exact starts_of_kind (t := tok .dump) rfl

/-- An expression is no range: an identifier that starts it is not followed by `in`. -/
theorem ReadsExpr.not_range {a : List Token} {e : Expr} (h : ReadsExpr a e) {rest : List Token}
    (hrest : EndsExpr rest) (hin : (current rest).kind ≠ .in_) :
    ¬((current (a ++ rest)).kind = .identifier ∧ (current (a ++ rest).tail).kind = .in_) := by
  rintro ⟨hid, hnext⟩
  obtain ⟨t, a', rfl⟩ := List.exists_cons_of_ne_nil h.ne_nil
  rw [List.cons_append, List.tail_cons] at hnext
  rw [List.cons_append, current_cons] at hid
  rcases hts : a' ++ rest with _ | ⟨u, ts⟩
  · rw [hts] at hnext
    cases hnext
  rw [hts, current_cons] at hnext
  -- the identifier alone is an expression, so `parse_expr` stops before `in`
  have hsym := (Operand.identifier hid).reads .lowest (u :: ts) _ (Nat.zero_le _)
    (ends_of_kind hnext) (Gives.exprLoop_stop (by rw [current_cons, hnext]; exact Nat.zero_le _))
  have hrun := h rest hrest _ (Nat.lt_succ_self _)
  rw [List.cons_append, hts] at hrun
  cases hrun.symm.trans (hsym _ (by simp))
  exact hin hnext

/-! ## Blocks -/

/-- `parse_block` reads `{ s₁ … sₙ }` back. -/
theorem parseBlock_reads {body : List Stmt} (hwf : ∀ s ∈ body, s.WellFormed)
    (h : ∀ s ∈ body, s.Reads) : BlockReads body := fun rest =>
  Runs.gives (f := parseBlock) (fun _ => rfl) fun n hn => by
    rw [Stmt.tokensAll_eq] at hn ⊢
    simp only [List.length_cons, List.length_append] at hn
    have hloop := untilKind_reads (f := parseStmt (parsers n)) (k := .rbrace) (g := Stmt.tokens)
      (F := NotElse) (L := n - 1)
      ⟨fun s hs => (hwf s hs).starts.1, fun s hs ts hts hlen => h s hs ts hts n (by omega)⟩
      (fun s hs ts _ => by
        rw [NotElse, current_append (hwf s hs).starts.1]
        exact (hwf s hs).starts.2.2)
      (fun s hs => (hwf s hs).starts.2.1) (show NotElse (tok .rbrace :: rest) from
        notElse_of_kind rfl) rfl (by simp only [List.length_cons, List.length_append]; omega)
    rw [parseBlock, bind_of_ok (expectCurrent_tok _ _), bind_of_ok hloop,
      bind_of_ok (expectCurrent_tok _ _)]
    rfl

/-! ## Statements -/

section Stmts
variable {rest : List Token}

theorem Stmt.Reads.decl {d : Decl} (hd : d.Reads)
    (hk : d.keyword = .var ∨ d.keyword = .const ∨ d.keyword = .func ∨ d.keyword = .alias) :
    (Stmt.decl d).Reads := fun rest _ n hn => by
  rw [Stmt.tokens] at hn ⊢
  rw [parseStmt, currentToken_bind, Decl.current_tokens_append, if_pos hk, parseStmtDecl, bind_of_ok ((hd rest).gives (f := parseDecl) (fun _ => rfl) n hn)]
  rfl

theorem Stmt.conditionalTokens_ne_nil (first : Bool) (x : Option Expr × List Stmt) :
    Stmt.conditionalTokens first x ≠ [] := by
  obtain ⟨_ | _, _⟩ := x <;> exact List.cons_ne_nil _ _

/-- `parse_stmt_if` reads the `elif` rounds back. -/
theorem parseElif_reads {e : Expr} {body : List Stmt} (he : ReadsExpr e.tokens e)
    (hb : BlockReads body) (ts : List Token) :
    Gives parseElif (Stmt.conditionalTokens false (some e, body) ++ ts)
      (.ok ((some e, body), ts)) :=
  fun n hn => by
    simp only [Stmt.conditionalTokens, Bool.false_eq_true, ↓reduceIte, List.cons_append,
      List.append_assoc, List.singleton_append, List.nil_append, List.length_cons,
      List.length_append] at hn ⊢
    rw [parseElif, advanceToken_bind, List.tail_cons,
      bind_of_ok (he _ (endsExpr_of_kind (t := tok .lbrace) rfl) n
        (by simp only [List.length_cons, List.length_append]; omega)),
      bind_of_ok (hb ts n (by simp only [List.length_cons, List.length_append]; omega))]
    rfl

/-- `if c { … } elif c₁ { … } … else { … }`. -/
theorem Stmt.Reads.if_ {condition : Expr} {body : List Stmt}
    {elifs else_ : List (Option Expr × List Stmt)} (hc : ReadsExpr condition.tokens condition)
    (helifs : ∀ x ∈ elifs, ∃ e, x.1 = some e ∧ ReadsExpr e.tokens e)
    (helse : else_ = [] ∨ ∃ b, else_ = [(none, b)])
    (hb : ∀ x ∈ (some condition, body) :: elifs ++ else_, BlockReads x.2) :
    (Stmt.if_ ((some condition, body) :: elifs ++ else_)).Reads := fun rest hrest n hn => by
  rw [Stmt.tokens, List.cons_append, Stmt.conditionalsTokens, Stmt.conditionalsTokens_eq] at hn ⊢
  simp only [List.map_append, List.flatten_append, Stmt.conditionalTokens, ↓reduceIte,
    List.append_assoc, List.cons_append, List.singleton_append, List.nil_append] at hn ⊢
  simp only [List.length_cons, List.length_append] at hn
  have hkind : (current ((else_.map (Stmt.conditionalTokens false)).flatten ++ rest)).kind ≠
      .elif := by
    rcases helse with rfl | ⟨b, rfl⟩
    · exact hrest.1
    · exact (by decide : TokenKind.else_ ≠ .elif)
  have hloop := whileKind_reads (f := parseElif (parsers n)) (k := .elif)
    (g := Stmt.conditionalTokens false) (F := fun _ => True) (L := n - 1)
    ⟨fun x _ => Stmt.conditionalTokens_ne_nil false x, fun x hx ts _ hlen => by
      obtain ⟨e, hx1, he⟩ := helifs x hx
      obtain ⟨_, b⟩ := x
      cases hx1
      exact parseElif_reads he (hb _ (List.mem_append_left _ (.tail _ hx))) ts n
        (Nat.lt_of_le_of_lt hlen (by omega))⟩
    (fun _ _ _ _ => trivial)
    (fun x hx => by
      obtain ⟨e, hx1, _⟩ := helifs x hx
      obtain ⟨_, b⟩ := x
      cases hx1
      rfl)
    trivial hkind (by simp only [List.length_append]; omega)
  rw [parseStmt, currentToken_bind, current_cons, tok_kind, if_neg (by decide), if_pos rfl,
    parseStmtIf, bind_of_ok (assertCurrent_tok _ _ _), bind_of_ok (expectCurrent_tok _ _),
    bind_of_ok (hc _ (endsExpr_of_kind (t := tok .lbrace) rfl) n
      (by simp only [List.length_cons, List.length_append]; omega)),
    bind_of_ok (hb _ (.head _) _ n (by simp only [List.length_cons, List.length_append]; omega)),
    bind_of_ok hloop, currentToken_bind]
  rcases helse with rfl | ⟨b, rfl⟩
  · simp only [List.map_nil, List.flatten_nil, List.nil_append] at hrest ⊢
    rw [if_neg hrest.2]
    rfl
  · simp only [List.map_cons, List.map_nil, List.flatten_cons, List.flatten_nil, List.append_nil,
      Stmt.conditionalTokens, List.cons_append, List.append_assoc, List.singleton_append,
      List.nil_append, List.length_cons, List.length_append] at hn ⊢
    rw [current_cons, tok_kind, if_pos rfl, bind_assoc, advanceToken_bind, List.tail_cons,
      bind_assoc, bind_of_ok (hb _ (List.mem_append_right _ (List.mem_singleton_self _)) rest n
        (by simp only [List.length_cons, List.length_append]; omega))]
    rfl

/-- `for name in b : e { … }`. -/
theorem Stmt.Reads.forRange {name : String} {b e : Expr} {body : List Stmt}
    (hb : ReadsExpr b.tokens b) (he : ReadsExpr e.tokens e) (hbody : BlockReads body) :
    (Stmt.forRange name b e body).Reads := fun rest _ n hn => by
  simp only [Stmt.tokens, List.cons_append, List.append_assoc, List.singleton_append,
    List.nil_append, List.length_cons, List.length_append] at hn ⊢
  rw [parseStmt, currentToken_bind, current_cons, tok_kind, if_neg (by decide),
    if_neg (by decide), if_pos rfl, parseStmtFor, bind_of_ok (assertCurrent_tok _ _ _),
    bind_of_ok (expectCurrent_tok _ _), currentToken_bind, peekToken_bind, current_cons,
    List.tail_cons, current_cons, identTok_kind, tok_kind, if_pos ⟨rfl, rfl⟩,
    bind_of_ok (parseIdentifier_cons (identTok_kind name)), bind_of_ok (expectCurrent_tok _ _),
    bind_of_ok (hb _ (endsExpr_of_kind (t := tok .colon) rfl) n
      (by simp only [List.length_cons, List.length_append]; omega)),
    bind_of_ok (expectCurrent_tok _ _),
    bind_of_ok (he _ (endsExpr_of_kind (t := tok .lbrace) rfl) n
      (by simp only [List.length_cons, List.length_append]; omega)),
    bind_of_ok (hbody rest n (by simp only [List.length_cons, List.length_append]; omega))]
  rfl

/-- `for c { … }`: no range, since an expression is not followed by `in`. -/
theorem Stmt.Reads.forExpr {cond : Expr} {body : List Stmt} (hc : ReadsExpr cond.tokens cond)
    (hbody : BlockReads body) : (Stmt.forExpr cond body).Reads := fun rest _ n hn => by
  simp only [Stmt.tokens, List.cons_append, List.append_assoc, List.singleton_append,
    List.nil_append, List.length_cons, List.length_append] at hn ⊢
  have hends : EndsExpr (tok .lbrace :: (Stmt.tokensAll body ++ tok .rbrace :: rest)) :=
    endsExpr_of_kind rfl
  rw [parseStmt, currentToken_bind, current_cons, tok_kind, if_neg (by decide),
    if_neg (by decide), if_pos rfl, parseStmtFor, bind_of_ok (assertCurrent_tok _ _ _),
    bind_of_ok (expectCurrent_tok _ _), currentToken_bind, peekToken_bind,
    if_neg (hc.not_range hends (by exact (by decide : TokenKind.lbrace ≠ .in_))),
    bind_of_ok (hc _ hends n (by simp only [List.length_cons, List.length_append]; omega)),
    bind_of_ok (hbody rest n (by simp only [List.length_cons, List.length_append]; omega))]
  rfl

/-- `parse_stmt_break` and `parse_stmt_continue` read their keyword and `;` back. -/
theorem parseStmtJump_reads (keyword : TokenKind) (condition : String) (stmt : Stmt)
    (rest : List Token) :
    parseStmtJump keyword condition stmt (tok keyword :: tok .semicolon :: rest) =
      .ok (stmt, rest) := by
  rw [parseStmtJump, bind_of_ok (assertCurrent_tok _ _ _), bind_of_ok (expectCurrent_tok _ _),
    bind_of_ok (expectCurrent_tok _ _)]
  rfl

theorem Stmt.Reads.break_ : Stmt.break_.Reads := fun rest _ n _ => by
  rw [Stmt.tokens, List.cons_append, List.singleton_append, parseStmt, currentToken_bind,
    current_cons, tok_kind, if_neg (by decide), if_neg (by decide), if_neg (by decide),
    if_pos rfl]
  exact parseStmtJump_reads _ _ _ rest

theorem Stmt.Reads.continue_ : Stmt.continue_.Reads := fun rest _ n _ => by
  rw [Stmt.tokens, List.cons_append, List.singleton_append, parseStmt, currentToken_bind,
    current_cons, tok_kind, if_neg (by decide), if_neg (by decide), if_neg (by decide),
    if_neg (by decide), if_pos rfl]
  exact parseStmtJump_reads _ _ _ rest

/-- `dump e;`. -/
theorem Stmt.Reads.dump {e : Expr} (he : ReadsExpr e.tokens e) : (Stmt.dump e).Reads :=
  fun rest _ n hn => by
    simp only [Stmt.tokens, List.cons_append, List.append_assoc, List.singleton_append,
      List.nil_append, List.length_cons, List.length_append] at hn ⊢
    rw [parseStmt, currentToken_bind, current_cons, tok_kind, if_neg (by decide),
      if_neg (by decide), if_neg (by decide), if_neg (by decide), if_neg (by decide), if_pos rfl,
      parseStmtDump, bind_of_ok (assertCurrent_tok _ _ _), bind_of_ok (expectCurrent_tok _ _),
      bind_of_ok (he _ (endsExpr_of_kind (t := tok .semicolon) rfl) n
        (by simp only [List.length_cons, List.length_append]; omega)),
      bind_of_ok (expectCurrent_tok _ _)]
    rfl

/-- `return;` and `return e;`. -/
theorem Stmt.Reads.return_ {e : Option Expr} (he : ∀ x ∈ e, ReadsExpr x.tokens x) :
    (Stmt.return_ e).Reads := fun rest _ n hn => by
  cases e with
  | none =>
    rw [Stmt.tokens, List.cons_append, List.singleton_append, parseStmt, currentToken_bind,
      current_cons, tok_kind, if_neg (by decide), if_neg (by decide), if_neg (by decide),
      if_neg (by decide), if_neg (by decide), if_neg (by decide), if_pos rfl, parseStmtReturn,
      bind_of_ok (assertCurrent_tok _ _ _), bind_of_ok (expectCurrent_tok _ _), currentToken_bind,
      current_cons, tok_kind, if_neg (fun h => h rfl), pure_bind,
      bind_of_ok (expectCurrent_tok _ _)]
    rfl
  | some x =>
    have hx := he x rfl
    simp only [Stmt.tokens, List.cons_append, List.append_assoc, List.singleton_append,
      List.nil_append, List.length_cons, List.length_append] at hn ⊢
    rw [parseStmt, currentToken_bind, current_cons, tok_kind, if_neg (by decide),
      if_neg (by decide), if_neg (by decide), if_neg (by decide), if_neg (by decide),
      if_neg (by decide), if_pos rfl, parseStmtReturn, bind_of_ok (assertCurrent_tok _ _ _),
      bind_of_ok (expectCurrent_tok _ _), currentToken_bind, if_pos (hx.current_ne _ .semicolon),
      bind_assoc, bind_of_ok (hx _ (endsExpr_of_kind (t := tok .semicolon) rfl) n
        (by simp only [List.length_cons, List.length_append]; omega)),
      pure_bind, bind_of_ok (expectCurrent_tok _ _)]
    rfl

/-- `lhs = rhs;`. -/
theorem Stmt.Reads.assign {lhs rhs : Expr} (hl : ReadsExpr lhs.tokens lhs)
    (hr : ReadsExpr rhs.tokens rhs) : (Stmt.assign lhs rhs).Reads := fun rest _ n hn => by
  simp only [Stmt.tokens, List.cons_append, List.append_assoc, List.singleton_append,
    List.nil_append, List.length_cons, List.length_append] at hn ⊢
  obtain ⟨h1, h2, h3, h4, h5, h6, h7⟩ := stmtKeyword_of_nud (hl.current_nud
    (tok .assign :: (rhs.tokens ++ tok .semicolon :: rest)))
  rw [parseStmt, currentToken_bind, if_neg h1, if_neg h2, if_neg h3, if_neg h4, if_neg h5,
    if_neg h6, if_neg h7,
    bind_of_ok (hl _ (endsExpr_of_kind (t := tok .assign) rfl) n
      (by simp only [List.length_cons, List.length_append]; omega)),
    currentToken_bind, current_cons, tok_kind, if_pos rfl, bind_of_ok (expectCurrent_tok _ _),
    bind_of_ok (hr _ (endsExpr_of_kind (t := tok .semicolon) rfl) n
      (by simp only [List.length_cons, List.length_append]; omega)),
    bind_of_ok (expectCurrent_tok _ _)]
  rfl

/-- `e;`. -/
theorem Stmt.Reads.expr {e : Expr} (he : ReadsExpr e.tokens e) : (Stmt.expr e).Reads :=
  fun rest _ n hn => by
    simp only [Stmt.tokens, List.append_assoc, List.singleton_append, List.length_append,
      List.length_cons] at hn ⊢
    obtain ⟨h1, h2, h3, h4, h5, h6, h7⟩ :=
      stmtKeyword_of_nud (he.current_nud (tok .semicolon :: rest))
    rw [parseStmt, currentToken_bind, if_neg h1, if_neg h2, if_neg h3, if_neg h4, if_neg h5,
      if_neg h6, if_neg h7, bind_of_ok (he _ (endsExpr_of_kind (t := tok .semicolon) rfl) n
        (by simp only [List.length_cons, List.length_append]; omega)),
      currentToken_bind, current_cons, tok_kind, if_neg (by decide),
      bind_of_ok (expectCurrent_tok _ _)]
    rfl

end Stmts

/-! ## Declarations and members -/

section Decls
variable {rest : List Token}

/-- `var name: T = e;` and `const name: T = e;`, the type specifier optional. -/
theorem parseDeclBinding_reads {keyword : TokenKind}
    {decl : String → Option Typespec → Expr → Decl} {name : String} {t : Option Typespec}
    {e : Expr} (ht : ∀ x ∈ t, x.Reads) (he : ReadsExpr e.tokens e) (rest : List Token) :
    Runs (parseDeclBinding keyword decl) (tok keyword :: identTok name ::
      (annotationTokens (t.map Typespec.tokens) ++ tok .assign ::
        (e.tokens ++ tok .semicolon :: rest))) (.ok (decl name t e, rest)) := fun n hn => by
  have hexpr := he (tok .semicolon :: rest) (endsExpr_of_kind rfl) n
    (by simp only [List.length_cons, List.length_append] at hn ⊢; omega)
  rw [parseDeclBinding, bind_of_ok (expectCurrent_tok _ _),
    bind_of_ok (parseIdentifier_cons (identTok_kind name)), currentToken_bind]
  cases t with
  | none =>
    rw [Option.map_none', annotationTokens, List.nil_append, current_cons, tok_kind,
      if_neg (by decide), pure_bind, bind_of_ok (expectCurrent_tok _ _), bind_of_ok hexpr,
      bind_of_ok (expectCurrent_tok _ _)]
    rfl
  | some x =>
    simp only [Option.map_some', annotationTokens, List.cons_append] at hn ⊢
    rw [current_cons, tok_kind, if_pos rfl, bind_assoc, bind_of_ok (expectCurrent_tok _ _),
      bind_assoc, bind_of_ok (ht x rfl _ (ends_of_kind (t := tok .assign) rfl) n
        (by simp only [List.length_cons, List.length_append] at hn ⊢; omega)),
      pure_bind, bind_of_ok (expectCurrent_tok _ _), bind_of_ok hexpr,
      bind_of_ok (expectCurrent_tok _ _)]
    rfl

theorem Decl.Reads.variable {name : String} {t : Option Typespec} {e : Expr}
    (ht : ∀ x ∈ t, x.Reads) (he : ReadsExpr e.tokens e) : (Decl.variable name t e).Reads :=
  fun rest n hn => by
    simp only [Decl.tokens, List.cons_append, List.append_assoc, List.singleton_append] at hn ⊢
    rw [parseDecl, currentToken_bind, current_cons, tok_kind, if_pos rfl, parseDeclVariable]
    exact parseDeclBinding_reads ht he rest n hn

theorem Decl.Reads.constant {name : String} {t : Option Typespec} {e : Expr}
    (ht : ∀ x ∈ t, x.Reads) (he : ReadsExpr e.tokens e) : (Decl.constant name t e).Reads :=
  fun rest n hn => by
    simp only [Decl.tokens, List.cons_append, List.append_assoc, List.singleton_append] at hn ⊢
    rw [parseDecl, currentToken_bind, current_cons, tok_kind, if_neg (by decide), if_pos rfl,
      parseDeclConstant]
    exact parseDeclBinding_reads ht he rest n hn

/-- `parse_template_parameter_list` reads `[[a, …]]` back, and nothing when there are no
template parameters. -/
theorem parseTemplateParameterList_reads (templateParameters : List String)
    (hrest : (current rest).kind ≠ .lbracketLbracket) :
    parseTemplateParameterList
        (templateTokens (templateParameters.map fun x => [identTok x]) ++ rest) =
      .ok (templateParameters, rest) := by
  rcases templateParameters with _ | ⟨x, xs⟩
  · rw [List.map_nil, templateTokens, List.nil_append, parseTemplateParameterList,
      currentToken_bind, if_pos hrest]
    rfl
  have hne : (x :: xs).map (fun x => [identTok x]) ≠ [] := List.cons_ne_nil _ _
  have hfirst : (current (commaList (tok .comma) ((x :: xs).map fun x => [identTok x]) ++
      tok .rbracketRbracket :: rest)).kind ≠ .rbracketRbracket := by
    rw [List.map_cons, current_commaList_append (List.cons_ne_nil _ _)]
    exact (by decide : TokenKind.identifier ≠ .rbracketRbracket)
  rw [templateTokens_of_ne_nil hne, parseTemplateParameterList, currentToken_bind, current_cons,
    tok_kind, if_neg (fun h => h rfl), bind_of_ok (expectCurrent_tok _ _), currentToken_bind,
    if_neg hfirst, bind_of_ok (sepByComma_reads (f := parseTemplateParameter)
      (g := fun x => [identTok x]) (F := fun _ => True)
      ⟨fun _ _ => List.cons_ne_nil _ _, fun y _ _ _ _ => parseIdentifier_cons (identTok_kind y)⟩
      (List.cons_ne_nil _ _) (fun _ => trivial) trivial
      (by exact (by decide : TokenKind.rbracketRbracket ≠ .comma)) le_rfl),
    bind_of_ok (expectCurrent_tok _ _)]
  rfl

/-- `parse_function_parameter_list` reads `a: T, …` back, before `)`. -/
theorem parseFunctionParameterList_reads {params : List (String × Typespec)}
    (hp : ∀ x ∈ params, x.2.Reads) (rest : List Token) (n : Nat)
    (hn : (commaList (tok .comma) (params.map fun x => identTok x.1 :: tok .colon :: x.2.tokens) ++
      tok .rparen :: rest).length < n) :
    parseFunctionParameterList (parsers n) (commaList (tok .comma)
        (params.map fun x => identTok x.1 :: tok .colon :: x.2.tokens) ++ tok .rparen :: rest) =
      .ok (params, tok .rparen :: rest) := by
  rcases params with _ | ⟨x, xs⟩
  · rw [List.map_nil, commaList, List.nil_append, parseFunctionParameterList, currentToken_bind,
      current_cons, tok_kind, if_pos (by decide)]
    rfl
  have hfirst : (current (commaList (tok .comma) ((x :: xs).map fun x =>
      identTok x.1 :: tok .colon :: x.2.tokens) ++ tok .rparen :: rest)).kind = .identifier := by
    rw [List.map_cons, current_commaList_append (List.cons_ne_nil _ _)]
    rfl
  rw [parseFunctionParameterList, currentToken_bind, hfirst, if_neg (fun h => h rfl)]
  exact sepByComma_reads (f := parseFunctionParameter (parsers n))
    (g := fun x => identTok x.1 :: tok .colon :: x.2.tokens) (F := Ends) (L := n - 1)
    ⟨fun _ _ => List.cons_ne_nil _ _, fun y hy ts hts hlen => by
      rw [List.cons_append, List.cons_append, parseFunctionParameter,
        bind_of_ok (parseIdentifier_cons (identTok_kind _)), bind_of_ok (expectCurrent_tok _ _),
        bind_of_ok (hp y hy ts hts n
          (by simp only [List.length_cons, List.length_append] at hlen ⊢; omega))]
      rfl⟩
    (List.cons_ne_nil _ _) (fun _ => ends_of_kind (t := tok .comma) rfl) (ends_of_kind rfl)
    (by exact (by decide : TokenKind.rparen ≠ .comma)) (by omega)

/-- `func name[[a, …]](p: T, …) R { … }`. -/
theorem Decl.Reads.function {name : String} {templateParameters : List String}
    {params : List (String × Typespec)} {ret : Typespec} {body : List Stmt}
    (hp : ∀ x ∈ params, x.2.Reads) (hr : ret.Reads) (hbody : BlockReads body) :
    (Decl.function name templateParameters params ret body).Reads := fun rest n hn => by
  simp only [Decl.tokens, List.cons_append, List.append_assoc, List.singleton_append,
    List.nil_append] at hn ⊢
  simp only [List.length_cons, List.length_append] at hn
  rw [parseDecl, currentToken_bind, current_cons, tok_kind, if_neg (by decide),
    if_neg (by decide), if_pos rfl, parseDeclFunction, bind_of_ok (expectCurrent_tok _ _),
    bind_of_ok (parseIdentifier_cons (identTok_kind name)),
    bind_of_ok (parseTemplateParameterList_reads _
      (by exact (by decide : TokenKind.lparen ≠ .lbracketLbracket))),
    bind_of_ok (expectCurrent_tok _ _),
    bind_of_ok (parseFunctionParameterList_reads hp _ n
      (by simp only [List.length_cons, List.length_append]; omega)),
    bind_of_ok (expectCurrent_tok _ _),
    bind_of_ok (hr _ (ends_of_kind (t := tok .lbrace) rfl) n
      (by simp only [List.length_cons, List.length_append]; omega)),
    bind_of_ok (hbody rest n (by simp only [List.length_cons, List.length_append]; omega))]
  rfl

/-- A member starts with `var`, `const` or `func`: not with `}`. -/
theorem Member.WellFormed.starts : ∀ {x : Member}, x.WellFormed →
    x.tokens ≠ [] ∧ (current x.tokens).kind ≠ .rbrace
  | _, .variable _ => ⟨List.cons_ne_nil _ _, by exact (by decide : TokenKind.var ≠ .rbrace)⟩
  | .constant d, .constant _ hk =>
    ⟨Decl.tokens_ne_nil d, by rw [Member.tokens, Decl.current_tokens, hk]; decide⟩
  | .function d, .function _ hk =>
    ⟨Decl.tokens_ne_nil d, by rw [Member.tokens, Decl.current_tokens, hk]; decide⟩

/-- `struct name[[a, …]] { members }`. -/
theorem Decl.Reads.struct_ {name : String} {templateParameters : List String}
    {members : List Member} (hwf : ∀ x ∈ members, x.WellFormed)
    (hm : ∀ x ∈ members, x.Reads) :
    (Decl.struct_ name templateParameters members).Reads := fun rest n hn => by
  simp only [Decl.tokens, Member.tokensAll_eq, List.cons_append, List.append_assoc,
    List.singleton_append, List.nil_append] at hn ⊢
  have hmembers := untilKind_reads (f := parseMember (parsers n)) (k := .rbrace)
    (g := Member.tokens) (F := fun _ => True) (L := n)
    ⟨fun x hx => (hwf x hx).starts.1, fun x hx ts _ hlen => hm x hx ts n hlen⟩
    (fun _ _ _ _ => trivial) (fun x hx => (hwf x hx).starts.2) trivial
    (show (current (tok .rbrace :: rest)).kind = .rbrace from rfl)
    (by simp only [List.length_cons, List.length_append] at hn ⊢; omega)
  rw [parseDecl, currentToken_bind, current_cons, tok_kind, if_neg (by decide),
    if_neg (by decide), if_neg (by decide), if_pos rfl, parseDeclStruct,
    bind_of_ok (expectCurrent_tok _ _), bind_of_ok (parseIdentifier_cons (identTok_kind name)),
    bind_of_ok (parseTemplateParameterList_reads _
      (by exact (by decide : TokenKind.lbrace ≠ .lbracketLbracket))),
    bind_of_ok (expectCurrent_tok _ _), parseMemberList, bind_of_ok hmembers,
    bind_of_ok (expectCurrent_tok _ _)]
  rfl

/-- `extend T decl`. -/
theorem Decl.Reads.extend {t : Typespec} {d : Decl} (ht : t.Reads) (hd : d.Reads) :
    (Decl.extend t d).Reads := fun rest n hn => by
  simp only [Decl.tokens, List.cons_append, List.append_assoc, List.length_cons,
    List.length_append] at hn ⊢
  rw [parseDecl, currentToken_bind, current_cons, tok_kind, if_neg (by decide),
    if_neg (by decide), if_neg (by decide), if_neg (by decide), if_pos rfl, parseDeclExtend,
    bind_of_ok (expectCurrent_tok _ _),
    bind_of_ok (ht _ (Decl.ends d rest) n (by simp only [List.length_append]; omega)),
    bind_of_ok ((hd rest).gives (f := parseDecl) (fun _ => rfl) n
      (by simp only [List.length_append]; omega))]
  rfl

/-- `alias name = symbol;`. -/
theorem Decl.Reads.alias {name : String} {isFromRoot : Bool} {elements : List SymbolElement}
    (hne : elements ≠ []) (h : ∀ x ∈ elements, x.Reads) :
    (Decl.alias name isFromRoot elements).Reads := fun rest n hn => by
  simp only [Decl.tokens, List.cons_append, List.append_assoc, List.singleton_append,
    List.nil_append, List.length_cons, List.length_append] at hn ⊢
  rw [parseDecl, currentToken_bind, current_cons, tok_kind, if_neg (by decide),
    if_neg (by decide), if_neg (by decide), if_neg (by decide), if_neg (by decide), if_pos rfl,
    parseDeclAlias, bind_of_ok (expectCurrent_tok _ _),
    bind_of_ok (parseIdentifier_cons (identTok_kind name)), bind_of_ok (expectCurrent_tok _ _),
    bind_of_ok (parseSymbol_reads hne h (ends_of_kind (t := tok .semicolon) rfl) n
      (by simp only [List.length_cons, List.length_append]; omega))]
  rfl

/-- `extern var name: T;`. -/
theorem Decl.Reads.externVariable {name : String} {t : Typespec} (ht : t.Reads) :
    (Decl.externVariable name t).Reads := fun rest n hn => by
  simp only [Decl.tokens, List.cons_append, List.append_assoc, List.singleton_append,
    List.length_cons, List.length_append] at hn ⊢
  rw [parseDecl, currentToken_bind, current_cons, tok_kind, if_neg (by decide),
    if_neg (by decide), if_neg (by decide), if_neg (by decide), if_neg (by decide),
    if_neg (by decide), peekToken_bind, List.tail_cons, current_cons, tok_kind,
    if_pos ⟨rfl, rfl⟩, parseDeclExternVariable, bind_of_ok (expectCurrent_tok _ _),
    bind_of_ok (expectCurrent_tok _ _), bind_of_ok (parseIdentifier_cons (identTok_kind name)),
    bind_of_ok (expectCurrent_tok _ _),
    bind_of_ok (ht _ (ends_of_kind (t := tok .semicolon) rfl) n
      (by simp only [List.length_cons, List.length_append]; omega)),
    bind_of_ok (expectCurrent_tok _ _)]
  rfl

/-- `var name: T;` in a struct. -/
theorem Member.Reads.variable {name : String} {t : Typespec} (ht : t.Reads) :
    (Member.variable name t).Reads := fun rest n hn => by
  simp only [Member.tokens, List.cons_append, List.append_assoc, List.singleton_append,
    List.length_cons, List.length_append] at hn ⊢
  rw [parseMember, currentToken_bind, current_cons, tok_kind, if_pos rfl, parseMemberVariable,
    bind_of_ok (expectCurrent_tok _ _), bind_of_ok (parseIdentifier_cons (identTok_kind name)),
    bind_of_ok (expectCurrent_tok _ _),
    bind_of_ok (ht _ (ends_of_kind (t := tok .semicolon) rfl) n
      (by simp only [List.length_cons, List.length_append]; omega)),
    bind_of_ok (expectCurrent_tok _ _)]
  rfl

/-- On `const`, `parse_decl` is `parse_decl_constant`. -/
theorem parseDecl_const {p : Parsers} {ts : List Token} (h : (current ts).kind = .const) :
    parseDecl p ts = parseDeclConstant p ts := by
  rw [parseDecl, currentToken_bind, h, if_neg (by decide), if_pos rfl]

/-- On `func`, `parse_decl` is `parse_decl_function`. -/
theorem parseDecl_func {p : Parsers} {ts : List Token} (h : (current ts).kind = .func) :
    parseDecl p ts = parseDeclFunction p ts := by
  rw [parseDecl, currentToken_bind, h, if_neg (by decide), if_neg (by decide), if_pos rfl]

/-- A member constant, read as the constant `parse_decl` reads. -/
theorem Member.Reads.constant {d : Decl} (hd : d.Reads) (hk : d.keyword = .const) :
    (Member.constant d).Reads := fun rest n hn => by
  have hkind : (current (d.tokens ++ rest)).kind = .const := by
    rw [Decl.current_tokens_append, hk]
  have hdecl := hd rest n hn
  rw [parseDecl_const hkind] at hdecl
  show parseMember (parsers n) (d.tokens ++ rest) = _
  rw [parseMember, currentToken_bind, hkind, if_neg (by decide), if_pos rfl, parseMemberConstant,
    bind_of_ok hdecl]
  rfl

/-- A member function, read as the function `parse_decl` reads. -/
theorem Member.Reads.function {d : Decl} (hd : d.Reads) (hk : d.keyword = .func) :
    (Member.function d).Reads := fun rest n hn => by
  have hkind : (current (d.tokens ++ rest)).kind = .func := by
    rw [Decl.current_tokens_append, hk]
  have hdecl := hd rest n hn
  rw [parseDecl_func hkind] at hdecl
  show parseMember (parsers n) (d.tokens ++ rest) = _
  rw [parseMember, currentToken_bind, hkind, if_neg (by decide), if_neg (by decide), if_pos rfl,
    parseMemberFunction, bind_of_ok hdecl]
  rfl

end Decls

/-! ## Well-formed declarations, members and statements are read back -/

theorem sizeOf_lt_of_mem_of_mem_snd {α β : Type} [SizeOf α] [SizeOf β] {b : β}
    {x : α × List β} {l : List (α × List β)} (hb : b ∈ x.2) (hx : x ∈ l) :
    sizeOf b < sizeOf l :=
  Nat.lt_trans (List.sizeOf_lt_of_mem hb) (sizeOf_snd_lt_of_mem hx)

mutual

theorem Decl.WellFormed.reads : ∀ {d : Decl}, d.WellFormed → d.Reads
  | _, .variable ht he => .variable (fun x hx => (ht x hx).reads) he.readsExpr
  | _, .constant ht he => .constant (fun x hx => (ht x hx).reads) he.readsExpr
  | _, .function hp hr hb => .function (fun x hx => (hp x hx).reads) hr.reads
      (parseBlock_reads hb fun s hs => Stmt.WellFormed.reads (hb s hs))
  | _, .struct_ hm => .struct_ hm fun x hx => Member.WellFormed.reads (hm x hx)
  | _, .extend ht hd => .extend ht.reads (Decl.WellFormed.reads hd)
  | _, .alias hne h => .alias hne fun x hx => (h x hx).reads
  | _, .externVariable ht => .externVariable ht.reads
termination_by d _ => sizeOf d
decreasing_by
  all_goals simp_wf
  all_goals first
    | omega
    | (have h := List.sizeOf_lt_of_mem ‹_›; omega)

theorem Member.WellFormed.reads : ∀ {x : Member}, x.WellFormed → x.Reads
  | _, .variable ht => .variable ht.reads
  | _, .constant hd hk => .constant (Decl.WellFormed.reads hd) hk
  | _, .function hd hk => .function (Decl.WellFormed.reads hd) hk
termination_by x _ => sizeOf x

theorem Stmt.WellFormed.reads : ∀ {s : Stmt}, s.WellFormed → s.Reads
  | _, .decl hd hk => .decl (Decl.WellFormed.reads hd) hk
  | _, .if_ hc helifs helse hb => .if_ hc.readsExpr
      (fun x hx => (helifs x hx).imp fun _ he => ⟨he.1, he.2.readsExpr⟩) helse
      (fun x hx => parseBlock_reads (hb x hx) fun s hs => Stmt.WellFormed.reads (hb x hx s hs))
  | _, .forRange hbegin hend hb => .forRange hbegin.readsExpr hend.readsExpr
      (parseBlock_reads hb fun s hs => Stmt.WellFormed.reads (hb s hs))
  | _, .forExpr hc hb =>
    .forExpr hc.readsExpr (parseBlock_reads hb fun s hs => Stmt.WellFormed.reads (hb s hs))
  | _, .break_ => .break_
  | _, .continue_ => .continue_
  | _, .dump he => .dump he.readsExpr
  | _, .return_ he => .return_ fun x hx => (he x hx).readsExpr
  | _, .assign hl hr => .assign hl.readsExpr hr.readsExpr
  | _, .expr he => .expr he.readsExpr
termination_by s _ => sizeOf s
decreasing_by
  all_goals simp_wf
  all_goals first
    | omega
    | (have h := List.sizeOf_lt_of_mem ‹_›; omega)
    | (have h := sizeOf_lt_of_mem_of_mem_snd ‹_› ‹_›
       simp only [List.cons_append, List.cons.sizeOf_spec, Prod.mk.sizeOf_spec,
         Option.some.sizeOf_spec] at h
       omega)

end

/-! ## Modules -/

section Modules
variable {rest : List Token}

/-- `parse_namespace` reads `namespace a::b::…;` back. -/
theorem parseNamespace_reads {ns : List String} (hne : ns ≠ []) (rest : List Token) :
    parseNamespace (namespaceTokens (some ns) ++ rest) = .ok (ns, rest) := by
  obtain ⟨a, as, rfl⟩ := List.exists_cons_of_ne_nil hne
  simp only [namespaceTokens, commaList, List.map_cons, List.map_map, Function.comp_def,
    List.cons_append, List.append_assoc, List.singleton_append, List.nil_append]
  have hloop : bounded (untilKind .semicolon (do
      let _ ← expectCurrent .colonColon
      parseIdentifier)) ((as.map fun x => [tok .colonColon, identTok x]).flatten ++
        tok .semicolon :: rest) = .ok (as, tok .semicolon :: rest) :=
    untilKind_reads (g := fun x => [tok .colonColon, identTok x]) (F := fun _ => True)
    ⟨fun _ _ => List.cons_ne_nil _ _, fun y _ ts _ _ => by
      rw [List.cons_append, bind_of_ok (expectCurrent_tok _ _)]
      exact parseIdentifier_cons (identTok_kind y)⟩
    (fun _ _ _ _ => trivial) (fun _ _ => by exact (by decide : TokenKind.colonColon ≠ .semicolon))
    trivial (show (current (tok .semicolon :: rest)).kind = .semicolon from rfl) le_rfl
  rw [parseNamespace, bind_of_ok (expectCurrent_tok _ _),
    bind_of_ok (parseIdentifier_cons (identTok_kind a)), bind_of_ok hloop,
    bind_of_ok (expectCurrent_tok _ _)]
  rfl

/-- `parse_import` reads `import "path";` back. -/
theorem parseImport_reads (path : List UInt8) (rest : List Token) :
    parseImport (importTokens path ++ rest) = .ok (path, rest) := by
  rw [importTokens, List.cons_append, List.cons_append, List.cons_append, List.nil_append,
    parseImport, bind_of_ok (expectCurrent_tok _ _),
    bind_of_ok (expectCurrent_cons (t := { kind := .bytes, bytes := path }) rfl),
    bind_of_ok (expectCurrent_tok _ _)]
  rfl

theorem Decl.keyword_ne_eof (d : Decl) : d.keyword ≠ .eof := by
  cases d <;> nofun

/-- What follows the imports: the keyword of the first declaration, or `EOF`. -/
theorem current_decls_ne {k : TokenKind} (hk : k ≠ .eof) (hd : ∀ d : Decl, d.keyword ≠ k) :
    ∀ decls : List Decl, (current ((decls.map Decl.tokens).flatten ++ [])).kind ≠ k
  | [] => fun h => hk h.symm
  | d :: _ => by
    rw [List.map_cons, List.flatten_cons, List.append_assoc, Decl.current_tokens_append]
    exact hd d

/-- What follows a namespace: `import`, the keyword of the first declaration, or `EOF`. -/
theorem current_imports_ne {k : TokenKind} (hk : k ≠ .eof) (hi : k ≠ .import_)
    (hd : ∀ d : Decl, d.keyword ≠ k) (decls : List Decl) :
    ∀ imports : List (List UInt8), (current ((imports.map importTokens).flatten ++
      ((decls.map Decl.tokens).flatten ++ []))).kind ≠ k
  | [] => current_decls_ne hk hd decls
  | _ :: _ => fun h => hi h.symm

/-- `parse_module` reads the tokens of a well-formed module back, up to the end of the input. -/
theorem parseModule_reads {m : Module} (h : m.WellFormed) :
    Gives parseModule m.tokens (.ok (m, [])) := by
  intro n hn
  obtain ⟨ns, imports, decls⟩ := m
  have htokens : Module.tokens ⟨ns, imports, decls⟩ = namespaceTokens ns ++
      ((imports.map importTokens).flatten ++ ((decls.map Decl.tokens).flatten ++ [])) := by
    rw [Module.tokens, List.append_nil, List.append_assoc]
  rw [htokens] at hn ⊢
  simp only [List.length_append] at hn
  have hdecls : bounded (untilKind .eof (parsers n).decl) ((decls.map Decl.tokens).flatten ++ []) =
      .ok (decls, []) :=
    untilKind_reads (g := Decl.tokens) (F := fun _ => True) (L := n - 1)
    ⟨fun d _ => Decl.tokens_ne_nil d, fun d hd ts _ hlen =>
      ((h.decls d hd).reads ts).gives (f := parseDecl) (fun _ => rfl) n (by omega)⟩
    (fun _ _ _ _ => trivial) (fun d _ => by rw [Decl.current_tokens]; exact d.keyword_ne_eof)
    trivial (show (current ([] : List Token)).kind = .eof from rfl)
    (by simp only [List.length_append]; omega)
  have himports : bounded (whileKind .import_ parseImport) ((imports.map importTokens).flatten ++
      ((decls.map Decl.tokens).flatten ++ [])) =
        .ok (imports, (decls.map Decl.tokens).flatten ++ []) :=
    whileKind_reads (g := importTokens) (F := fun _ => True)
      ⟨fun _ _ => List.cons_ne_nil _ _, fun x _ ts _ _ => parseImport_reads x ts⟩
    (fun _ _ _ _ => trivial) (fun _ _ => rfl) trivial
    (current_decls_ne (by decide) (fun d => by cases d <;> nofun) decls) le_rfl
  rw [parseModule, currentToken_bind]
  cases ns with
  | none =>
    rw [namespaceTokens, List.nil_append, if_neg (current_imports_ne (by decide) (by decide)
      (fun d => by cases d <;> nofun) decls imports), pure_bind, bind_of_ok himports,
      bind_of_ok hdecls]
    rfl
  | some ns =>
    have hk : (current (namespaceTokens (some ns) ++ ((imports.map importTokens).flatten ++
        ((decls.map Decl.tokens).flatten ++ [])))).kind = .namespace_ := rfl
    rw [hk, if_pos rfl, bind_assoc, bind_of_ok (parseNamespace_reads (h.namespace_ne ns rfl) _),
      pure_bind, bind_of_ok himports, bind_of_ok hdecls]
    rfl

end Modules

/-! ## The round trip -/

/-- `parse` reads the tokens of every well-formed module back as the module. -/
theorem parse_tokens {m : Module} (h : m.WellFormed) : parse m.tokens = .ok m := by
  rw [parse, parseModule_reads h _ (Nat.lt_succ_self _)]
  rfl

/-- `namespace demo; var x = 1;`. -/
def demoModule : Module :=
  ⟨some ["demo"], [], [.variable "x" none (.integer 1 "")]⟩

theorem demoModule_wellFormed : demoModule.WellFormed :=
  ⟨fun _ h => by cases h; exact List.cons_ne_nil _ _,
    fun _ h => by cases List.mem_singleton.1 h; exact .variable nofun (.integer 1 "")⟩

theorem parse_tokens_demo : demoModule.WellFormed ∧ parse demoModule.tokens = .ok demoModule :=
  ⟨demoModule_wellFormed, parse_tokens demoModule_wellFormed⟩

/-- The modules `parse` returns are exactly the well-formed ones. -/
theorem parse_wellFormed_iff (m : Module) : (∃ ts, parse ts = .ok m) ↔ m.WellFormed := by
  constructor
  · rintro ⟨ts, hts⟩
    rw [parse] at hts
    have hs : Yields _ (parseModule (parsers (ts.length + 1)) ts) :=
      parseModule_sound (parsers_sound _)
    rcases hr : parseModule (parsers (ts.length + 1)) ts with _ | ⟨m', rest⟩
    · rw [hr] at hts
      cases hts
    · rw [hr] at hts hs
      cases hts
      exact hs.1
  · intro h
    exact ⟨m.tokens, by rw [parse, parseModule_reads h _ (Nat.lt_succ_self _)]; rfl⟩

/-- `parse_expr` reads the tokens of a well-formed expression back, before any token that
extends no expression, with enough nested calls left. -/
theorem parseExpr_tokens {e : Expr} (h : e.WellFormed) {rest : List Token} (hrest : EndsExpr rest)
    {n : Nat} (hn : (e.tokens ++ rest).length < n) :
    parseExpr (parsers n) (e.tokens ++ rest) = .ok (e, rest) :=
  h.readsExpr rest hrest n hn

/-- `a + 1`. -/
def sumTree : Expr :=
  .binary .plus (.symbol false [.mk "a" []]) (.integer 1 "")

theorem sumTree_wellFormed : sumTree.WellFormed :=
  .binary (by decide) (.symbol (List.cons_ne_nil _ _) fun _ hx => by
    cases List.mem_singleton.1 hx; exact .mk nofun) (.integer 1 "") (by decide) (by decide)

theorem parseExpr_tokens_sum :
    sumTree.WellFormed ∧ EndsExpr [tok .semicolon] ∧
      parseExpr (parsers 5) (sumTree.tokens ++ [tok .semicolon]) =
        .ok (sumTree, [tok .semicolon]) :=
  ⟨sumTree_wellFormed, endsExpr_of_kind rfl,
    parseExpr_tokens sumTree_wellFormed (endsExpr_of_kind rfl) (by decide)⟩

end Sunder.Parse
