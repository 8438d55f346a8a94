import Sunder.Parse.Grouping
import Sunder.Parse.Decl
/-!
# The Pratt loop groups binary operators by level

`parse_expr` reads a chain `a₀ op₁ a₁ … opₖ aₖ` of operands and binary operators as the one
well-grouped tree of the chain (`parseExpr_groups`, with `Sunder/Parse/Grouping.lean`), consuming
exactly its tokens. The operands (`Operand`) are the forms of `token_kind_nud` with the postfix
forms of `token_kind_led` after a primary one; a prefix operator or a cast takes an operand, so
it binds looser than every postfix form and tighter than every binary operator. Nested
expressions (in parentheses, arguments, indices) and type specifiers are anything the parser
reads as one (`ReadsExpr`, `ReadsTypespec`), so `parseExpr_groups` applies to them in turn.

Runs are stated for every bound on nested calls above the number of tokens (`Gives`), so they
compose whatever bound the caller had left. `Operand.reads` is the induction over the operand
forms, `exprLoop_chain` the one over the rounds of the loop.
-/

namespace Sunder.Parse

/-! ## Runs under every bound -/

/-- `f`, run with more nested calls left than `ts` has tokens, gives `r`. -/
def Gives {α : Type} (f : Parsers → Parser α) (ts : List Token)
    (r : Except ParseError (α × List Token)) : Prop :=
  ∀ n, ts.length < n → f (parsers n) ts = r

/-- `f`, run with at least as many nested calls left as `ts` has tokens, gives `r`: a parse
function called by `parse_expr_precedence`, one nested call down. -/
def Runs {α : Type} (f : Parsers → Parser α) (ts : List Token)
    (r : Except ParseError (α × List Token)) : Prop :=
  ∀ n, ts.length ≤ n → f (parsers n) ts = r

section Gives
variable {ts ts' : List Token} {e e' : Expr} {precedence : Precedence}
  {r : Except ParseError (Expr × List Token)}

/-- `parse_expr_precedence` runs the null denotation of the current token, then its loop. -/
theorem Gives.exprPrecedence {nud : Parsers → Parser Expr}
    (hnud : ∀ p, tokenKindNud p (current ts).kind = some (nud p))
    (hn : Runs nud ts (.ok (e, ts'))) (hlt : ts'.length < ts.length)
    (hl : Gives (fun p => p.exprLoop precedence e) ts' r) :
    Gives (fun p => p.exprPrecedence precedence) ts r := by
  rintro (_ | n) hn'
  · exact absurd hn' (Nat.not_lt_zero _)
  · show parseExprPrecedence (parsers n) precedence ts = r
    rw [parseExprPrecedence_nud (hnud _), bind_of_ok (hn n (by omega))]
    exact hl n (by omega)

/-- A round of the loop runs the left denotation of a token that binds tighter than its level. -/
theorem Gives.exprLoop_led {led : Parsers → Expr → Parser Expr}
    (hr : precedence.rank < level (current ts).kind)
    (hled : ∀ p, tokenKindLed p (current ts).kind = some (led p))
    (hn : Runs (fun p => led p e) ts (.ok (e', ts'))) (hlt : ts'.length < ts.length)
    (hl : Gives (fun p => p.exprLoop precedence e') ts' r) :
    Gives (fun p => p.exprLoop precedence e) ts r := by
  rintro (_ | n) hn'
  · exact absurd hn' (Nat.not_lt_zero _)
  · show parseExprLoop (parsers n) precedence e ts = r
    rw [parseExprLoop_led hr (hled _), bind_of_ok (hn n (by omega))]
    exact hl n (by omega)

/-- The loop stops before a token that binds no tighter than its level. -/
theorem Gives.exprLoop_stop (hr : level (current ts).kind ≤ precedence.rank) :
    Gives (fun p => p.exprLoop precedence e) ts (.ok (e, ts)) := by
  rintro (_ | n) hn'
  · exact absurd hn' (Nat.not_lt_zero _)
  · exact parseExprLoop_stop hr

end Gives

/-! ## What follows an operand -/

/-- A continuation that extends no symbol: its first token is neither `::` nor `[[`. -/
def Ends (ts : List Token) : Prop :=
  (current ts).kind ≠ .colonColon ∧ (current ts).kind ≠ .lbracketLbracket

/-- A continuation that extends no operand: nor by a postfix form. -/
def Closed (ts : List Token) : Prop := Ends ts ∧ level (current ts).kind ≤ Precedence.prefix_.rank

/-- A continuation that ends an expression: nor by a binary operator. -/
def EndsExpr (ts : List Token) : Prop := Ends ts ∧ level (current ts).kind = 0

theorem EndsExpr.closed {ts : List Token} (h : EndsExpr ts) : Closed ts :=
  ⟨h.1, by rw [h.2]; decide⟩

theorem ends_of_kind {t : Token} {ts : List Token} {k : TokenKind} (ht : t.kind = k)
    (hk : k ≠ .colonColon ∧ k ≠ .lbracketLbracket := by decide) : Ends (t :: ts) := by
  rw [Ends, current_cons, ht]
  exact hk

theorem endsExpr_of_kind {t : Token} {ts : List Token} {k : TokenKind} (ht : t.kind = k)
    (hk : (k ≠ .colonColon ∧ k ≠ .lbracketLbracket) ∧ level k = 0 := by decide) :
    EndsExpr (t :: ts) := by
  rw [EndsExpr, Ends, current_cons, ht]
  exact hk

theorem current_append {a : List Token} (h : a ≠ []) (ts : List Token) :
    current (a ++ ts) = current a := by
  cases a
  · exact absurd rfl h
  · rfl

/-- `parse_expr_precedence`, at every level up to `PRECEDENCE_PREFIX`, reads the tokens `a` as the
operand `e` and goes on with its loop, before every continuation that `follows` admits. -/
def ReadsOperand (follows : List Token → Prop) (a : List Token) (e : Expr) : Prop :=
  ∀ precedence rest r, precedence.rank ≤ Precedence.prefix_.rank → follows rest →
    Gives (fun p => p.exprLoop precedence e) rest r →
    Gives (fun p => p.exprPrecedence precedence) (a ++ rest) r

/-- `parse_expr` reads the tokens `a` as `e`, before every continuation that ends an
expression. -/
def ReadsExpr (a : List Token) (e : Expr) : Prop :=
  ∀ rest, EndsExpr rest → Gives parseExpr (a ++ rest) (.ok (e, rest))

/-- `parse_typespec` reads the tokens `a` as `t`, before `)`. -/
def ReadsTypespec (a : List Token) (t : Typespec) : Prop :=
  ∀ rest, (current rest).kind = .rparen → Gives (fun p => p.typespec) (a ++ rest) (.ok (t, rest))

/-! ## Operands -/

/-- The tokens of a comma-separated list. -/
def commaList (comma : Token) : List (List Token) → List Token
  | [] => []
  | a :: as => a ++ (as.map (comma :: ·)).flatten

/-- The operands of a chain with the trees they stand for: `Operand true` the primary
expressions, which a postfix form may extend, `Operand false` all of them. -/
inductive Operand : Bool → List Token → Expr → Prop
  | symbol {a : List Token} {isFromRoot : Bool} {elements : List SymbolElement}
      (hk : (current a).kind = .identifier ∨ (current a).kind = .colonColon)
      (hs : ∀ rest, Ends rest → Runs parseSymbol (a ++ rest) (.ok ((isFromRoot, elements), rest))) :
      Operand true a (.symbol isFromRoot elements)
  | boolean {t : Token} (ht : t.kind = .true_ ∨ t.kind = .false_) :
      Operand true [t] (.boolean (t.kind == .true_))
  | integer {t : Token} (ht : t.kind = .integer) : Operand true [t] (.integer t.number t.suffix)
  | character {t : Token} (ht : t.kind = .character) : Operand true [t] (.character t.character)
  | bytes {t : Token} (ht : t.kind = .bytes) : Operand true [t] (.bytes t.bytes)
  | grouped {l r : Token} {a : List Token} {e : Expr} (hl : l.kind = .lparen)
      (hr : r.kind = .rparen) (h : ReadsExpr a e) : Operand true (l :: a ++ [r]) (.grouped e)
  | countof {c l r : Token} {a : List Token} {e : Expr} (hc : c.kind = .countof)
      (hl : l.kind = .lparen) (hr : r.kind = .rparen) (h : Operand false a e) :
      Operand true (c :: l :: a ++ [r]) (.unary .countof e)
  | call {a : List Token} {f : Expr} {l r comma : Token} {args : List (List Token × Expr)}
      (hf : Operand true a f) (hl : l.kind = .lparen) (hr : r.kind = .rparen)
      (hcomma : comma.kind = .comma) (hargs : ∀ x ∈ args, ReadsExpr x.1 x.2) :
      Operand true (a ++ l :: commaList comma (args.map (·.1)) ++ [r]) (.call f (args.map (·.2)))
  | index {a : List Token} {f : Expr} {l r : Token} {i : List Token} {idx : Expr}
      (hf : Operand true a f) (hl : l.kind = .lbracket) (hr : r.kind = .rbracket)
      (hi : ReadsExpr i idx) : Operand true (a ++ l :: i ++ [r]) (.accessIndex f idx)
  | slice {a : List Token} {f : Expr} {l c r : Token} {b en : List Token} {eb ee : Expr}
      (hf : Operand true a f) (hl : l.kind = .lbracket) (hc : c.kind = .colon)
      (hr : r.kind = .rbracket) (hb : ReadsExpr b eb) (he : ReadsExpr en ee) :
      Operand true (a ++ l :: b ++ c :: en ++ [r]) (.accessSlice f eb ee)
  | member {a : List Token} {f : Expr} {d i : Token} (hf : Operand true a f)
      (hd : d.kind = .dot) (hi : i.kind = .identifier) :
      Operand true (a ++ [d, i]) (.accessMember f i.text)
  | dereference {a : List Token} {f : Expr} {d : Token} (hf : Operand true a f)
      (hd : d.kind = .dotStar) : Operand true (a ++ [d]) (.accessDereference f)
  | primary {a : List Token} {e : Expr} (h : Operand true a e) : Operand false a e
  | unary {op : Token} {a : List Token} {e : Expr} (hop : op.kind ∈ prefixOperators)
      (h : Operand false a e) : Operand false (op :: a) (.unary op.kind e)
  | cast {l c r : Token} {ty : List Token} {t : Typespec} {a : List Token} {e : Expr}
      (hl : l.kind = .lparen) (hc : c.kind = .colon) (hr : r.kind = .rparen)
      (ht : ReadsTypespec ty t) (h : Operand false a e) :
      Operand false (l :: c :: ty ++ r :: a) (.cast t e)

/-- What may follow a primary expression (`true`) or any operand (`false`). -/
def Follows : Bool → List Token → Prop
  | true => Ends
  | false => Closed

/-- An operand is no binary operator. -/
theorem Operand.isOperand {b : Bool} {a : List Token} {e : Expr} (h : Operand b a e) :
    e.IsOperand := by
  induction h with
  | primary _ ih => exact ih
  | _ => intro _ _ _ he; cases he

/-! ## Runs of the parse functions on their forms -/

section Runs
variable {t : Token} {ts rest : List Token} {p : Parsers}

/-- A kind without a null denotation is not the first kind of an expression. -/
theorem ne_of_nud {k k' : TokenKind} (h : (tokenKindNud p k).isSome) (hk : tokenKindNud p k' = none) :
    k ≠ k' := by
  rintro rfl
  rw [hk] at h
  cases h

/-- The tokens `parse_expr` reads start with a token that has a null denotation. -/
theorem ReadsExpr.nud {a : List Token} {e : Expr} (h : ReadsExpr a e) (hrest : EndsExpr rest) :
    (tokenKindNud (parsers (a ++ rest).length) (current (a ++ rest)).kind).isSome := by
  have hrun := h rest hrest _ (Nat.lt_succ_self _)
  cases hn : tokenKindNud (parsers (a ++ rest).length) (current (a ++ rest)).kind with
  | none =>
    change parseExprPrecedence (parsers _) .lowest (a ++ rest) = _ at hrun
    rw [parseExprPrecedence, currentToken_bind, hn] at hrun
    cases hrun
  | some _ => rfl

theorem parseIdentifier_cons (ht : t.kind = .identifier) :
    parseIdentifier (t :: ts) = .ok (t.text, ts) := by
  rw [parseIdentifier, bind_of_ok (expectCurrent_cons ht)]
  rfl

/-- `parse_symbol` reads an identifier before anything that does not extend it. -/
theorem parseSymbol_identifier (ht : t.kind = .identifier) (hrest : Ends rest) :
    parseSymbol p (t :: rest) = .ok ((false, [.mk t.text []]), rest) := by
  have hroot : t.kind ≠ .colonColon := by rw [ht]; decide
  have helement : parseSymbolElement p (t :: rest) = .ok (.mk t.text [], rest) := by
    rw [parseSymbolElement, bind_of_ok (parseIdentifier_cons ht), currentToken_bind,
      if_neg hrest.2]
    rfl
  rw [parseSymbol, currentToken_bind, current_cons, if_neg hroot, pure_bind, bind_of_ok helement, bind_apply, bounded_apply, whileKind_succ, if_neg hrest.1]
  rfl

theorem parseBoolean_cons (ht : t.kind = .true_ ∨ t.kind = .false_) :
    parseBoolean (t :: ts) = .ok (t.kind == .true_, ts) := by
  rw [parseBoolean, advanceToken_bind, current_cons, if_pos ht]
  rfl

theorem parseInteger_cons (ht : t.kind = .integer) :
    parseInteger (t :: ts) = .ok ((t.number, t.suffix), ts) := by
  rw [parseInteger, bind_of_ok (expectCurrent_cons ht)]
  rfl

theorem length_le_commaTail (comma : Token) :
    ∀ args : List (List Token × Expr),
      args.length ≤ (((args.map (·.1)).map (comma :: ·)).flatten).length
  | [] => Nat.le_refl _
  | x :: args => by
    have := length_le_commaTail comma args
    simp only [List.map_cons, List.flatten_cons, List.length_append, List.length_cons]
    omega

/-- The arguments after the first of a call, each after a comma, read by the loop of
`parse_expr_led_lparen`. -/
theorem untilKindSep_arguments {comma r : Token} (hcomma : comma.kind = .comma)
    (hr : r.kind = .rparen) {n : Nat} :
    ∀ (args : List (List Token × Expr)) (bound : Nat), (∀ x ∈ args, ReadsExpr x.1 x.2) →
      args.length < bound →
      (((args.map (·.1)).map (comma :: ·)).flatten ++ r :: rest).length < n →
      untilKindSep .rparen (parseExpr (parsers n)) bound false
          (((args.map (·.1)).map (comma :: ·)).flatten ++ r :: rest) =
        .ok (args.map (·.2), r :: rest)
  | [], bound + 1, _, _, _ => by
    rw [untilKindSep_succ]
    exact if_pos hr
  | x :: args, bound + 1, hargs, hb, hn => by
    have hends : EndsExpr (((args.map (·.1)).map (comma :: ·)).flatten ++ r :: rest) := by
      cases args <;> simp [EndsExpr, Ends, level, hr, hcomma, tokenKindPrecedence, Precedence.rank]
    simp only [List.map_cons, List.flatten_cons, List.cons_append, List.append_assoc] at hn ⊢
    rw [untilKindSep_succ, if_neg (by rw [current_cons, hcomma]; decide)]
    simp only [List.length_cons, List.length_append] at hn
    rw [commaUnlessFirst, bind_assoc, bind_of_ok (expectCurrent_cons hcomma), pure_bind,
      bind_of_ok (hargs x (List.mem_cons_self _ _) _ hends n
        (by simp only [List.length_append, List.length_cons]; omega)),
      bind_of_ok (untilKindSep_arguments hcomma hr args bound
        (fun y hy => hargs y (List.mem_cons_of_mem _ hy)) (by simp at hb; omega)
        (by simp only [List.length_append, List.length_cons]; omega))]
    rfl

theorem parseExprLedLparen_call {l r comma : Token} (hl : l.kind = .lparen) (hr : r.kind = .rparen)
    (hcomma : comma.kind = .comma) {args : List (List Token × Expr)}
    (hargs : ∀ x ∈ args, ReadsExpr x.1 x.2) (f : Expr) (rest : List Token) :
    Runs (fun p => parseExprLedLparen p f) (l :: (commaList comma (args.map (·.1)) ++ r :: rest))
      (.ok (.call f (args.map (·.2)), rest)) := by
  intro n hn
  dsimp only
  have hloop : bounded (untilKindSep .rparen (parseExpr (parsers n)) · true)
      (commaList comma (args.map (·.1)) ++ r :: rest) = .ok (args.map (·.2), r :: rest) := by
    rw [bounded_apply]
    rcases args with _ | ⟨x, args⟩
    · rw [untilKindSep_succ]
      exact if_pos hr
    have hends : EndsExpr (((args.map (·.1)).map (comma :: ·)).flatten ++ r :: rest) := by
      cases args <;> simp [EndsExpr, Ends, level, hr, hcomma, tokenKindPrecedence, Precedence.rank]
    have hx := hargs x (List.mem_cons_self _ _)
    have hlen := length_le_commaTail comma args
    have hne : (current (x.1 ++ (((args.map (·.1)).map (comma :: ·)).flatten ++ r :: rest))).kind
        ≠ .rparen := ne_of_nud (hx.nud hends) rfl
    simp only [commaList, List.map_cons, List.append_assoc, List.length_append, List.length_cons]
      at hn hlen ⊢
    rw [untilKindSep_succ, if_neg hne, commaUnlessFirst, pure_bind,
      bind_of_ok (hx _ hends n (by simp only [List.length_append, List.length_cons]; omega)),
      bind_of_ok (untilKindSep_arguments hcomma hr args _
        (fun y hy => hargs y (List.mem_cons_of_mem _ hy)) (by omega)
        (by simp only [List.length_append, List.length_cons]; omega))]
    rfl
  rw [parseExprLedLparen, bind_of_ok (expectCurrent_cons hl), bind_of_ok hloop,
    bind_of_ok (expectCurrent_cons hr)]
  rfl

theorem parseExprLedLbracket_index {l r : Token} (hl : l.kind = .lbracket)
    (hr : r.kind = .rbracket) {i : List Token} {idx : Expr} (hi : ReadsExpr i idx) (f : Expr)
    (rest : List Token) :
    Runs (fun p => parseExprLedLbracket p f) (l :: (i ++ r :: rest)) (.ok (.accessIndex f idx, rest)) := by
  intro n hn
  dsimp only
  simp only [List.length_cons, List.length_append] at hn
  rw [parseExprLedLbracket, bind_of_ok (expectCurrent_cons hl),
    bind_of_ok (hi _ (endsExpr_of_kind hr) n (by simp only [List.length_append, List.length_cons]; omega)),
    currentToken_bind, current_cons, if_neg (by rw [hr]; decide), bind_of_ok (expectCurrent_cons hr)]
  rfl

theorem parseExprLedLbracket_slice {l c r : Token} (hl : l.kind = .lbracket) (hc : c.kind = .colon)
    (hr : r.kind = .rbracket) {b en : List Token} {eb ee : Expr} (hb : ReadsExpr b eb)
    (he : ReadsExpr en ee) (f : Expr) (rest : List Token) :
    Runs (fun p => parseExprLedLbracket p f) (l :: (b ++ c :: (en ++ r :: rest)))
      (.ok (.accessSlice f eb ee, rest)) := by
  intro n hn
  dsimp only
  simp only [List.length_cons, List.length_append] at hn
  rw [parseExprLedLbracket, bind_of_ok (expectCurrent_cons hl),
    bind_of_ok (hb _ (endsExpr_of_kind hc) n (by simp only [List.length_append, List.length_cons]; omega)),
    currentToken_bind, current_cons, if_pos hc, bind_of_ok (expectCurrent_cons hc),
    bind_of_ok (he _ (endsExpr_of_kind hr) n (by simp only [List.length_append, List.length_cons]; omega)),
    bind_of_ok (expectCurrent_cons hr)]
  rfl

theorem parseExprLedDot_member {d i : Token} (hd : d.kind = .dot) (hi : i.kind = .identifier)
    (f : Expr) (rest : List Token) :
    Runs (fun _ => parseExprLedDot f) (d :: i :: rest) (.ok (.accessMember f i.text, rest)) :=
  fun _ _ => by
    dsimp only
    rw [parseExprLedDot, bind_of_ok (expectCurrent_cons hd), bind_of_ok (parseIdentifier_cons hi)]
    rfl

theorem parseExprLedDotStar_dereference {d : Token} (hd : d.kind = .dotStar) (f : Expr)
    (rest : List Token) :
    Runs (fun _ => parseExprLedDotStar f) (d :: rest) (.ok (.accessDereference f, rest)) :=
  fun _ _ => by
    dsimp only
    rw [parseExprLedDotStar, bind_of_ok (expectCurrent_cons hd)]
    rfl

end Runs

/-! ## Every operand form is read as its tree -/

section Reads
variable {t : Token} {a : List Token} {e f : Expr} {follows : List Token → Prop}

/-- A null denotation that reads `t :: a` as `e` before every continuation `follows` admits. -/
theorem ReadsOperand.of_nud {nud : Parsers → Parser Expr}
    (hnud : ∀ p, tokenKindNud p t.kind = some (nud p))
    (hrun : ∀ rest, follows rest → Runs nud (t :: (a ++ rest)) (.ok (e, rest))) :
    ReadsOperand follows (t :: a) e := fun _ rest _ _ hf hl =>
  Gives.exprPrecedence hnud (hrun rest hf)
    (by simp only [List.length_cons, List.length_append]; omega) hl

/-- A postfix form extends a primary expression: after `f`, the left denotation of `t` reads
`t :: post` as `f'`. -/
theorem ReadsOperand.of_led (ha : ReadsOperand Ends a f) {post : List Token} {f' : Expr}
    {led : Parsers → Expr → Parser Expr} (hk : level t.kind = Precedence.postfix_.rank)
    (hends : Ends [t]) (hled : ∀ p, tokenKindLed p t.kind = some (led p))
    (hrun : ∀ rest, Runs (fun p => led p f) (t :: (post ++ rest)) (.ok (f', rest))) :
    ReadsOperand Ends (a ++ t :: post) f' := by
  intro precedence rest r hp _ hl
  rw [List.append_assoc]
  refine ha precedence _ r hp hends (Gives.exprLoop_led ?_ hled (hrun rest)
    (by simp only [List.length_cons, List.length_append]; omega) hl)
  show precedence.rank < level t.kind
  rw [hk]
  exact Nat.lt_succ_of_le hp

/-- An operand is not empty and starts with a token that has a null denotation. -/
theorem Operand.nud {b : Bool} (h : Operand b a e) (p : Parsers) :
    a ≠ [] ∧ (tokenKindNud p (current a).kind).isSome := by
  induction h with
  | symbol hk =>
    refine ⟨?_, by rcases hk with hk | hk <;> rw [hk] <;> rfl⟩
    rintro rfl
    rcases hk with hk | hk <;> cases hk
  | boolean ht => exact ⟨List.cons_ne_nil _ _, by rcases ht with ht | ht <;> exact ht ▸ rfl⟩
  | integer ht | character ht | bytes ht | grouped ht | countof ht | cast ht =>
    exact ⟨List.cons_ne_nil _ _, ht ▸ rfl⟩
  | unary hop => exact ⟨List.cons_ne_nil _ _, by rw [current_cons, tokenKindNud_prefix hop]; rfl⟩
  | call _ _ _ _ _ ih | index _ _ _ _ ih | slice _ _ _ _ _ _ ih | member _ _ _ ih
  | dereference _ _ ih =>
    refine ⟨by simp [ih.1], ?_⟩
    simp only [List.append_assoc, current_append ih.1]
    exact ih.2
  | primary _ ih => exact ih

/-- `parse_expr_precedence` reads every operand form as its tree: a primary expression before
anything that does not extend its symbol, any operand before anything that does not extend it
by a postfix form either. -/
theorem Operand.reads {b : Bool} (h : Operand b a e) : ReadsOperand (Follows b) a e := by
  induction h with
  | @symbol a isFromRoot elements hk hs =>
    have hne := (Operand.symbol hk hs).nud (parsers 0) |>.1
    intro precedence rest r _ hrest hl
    have hnud : ∀ p, tokenKindNud p (current (a ++ rest)).kind = some (parseExprSymbol p) := by
      intro p
      rw [current_append hne]
      rcases hk with hk | hk <;> rw [hk] <;> rfl
    refine Gives.exprPrecedence hnud (fun n hn => ?_) ?_ hl
    · rw [parseExprSymbol, bind_of_ok (hs rest hrest n hn)]
      rfl
    · simp only [List.length_append]
      have := List.length_pos.2 hne
      omega
  | @boolean t ht =>
    have hnud : ∀ p, tokenKindNud p t.kind = some parseExprBoolean := fun p => by
      rcases ht with ht | ht <;> rw [ht] <;> rfl
    refine ReadsOperand.of_nud hnud fun rest _ n _ => ?_
    rw [parseExprBoolean, bind_of_ok (parseBoolean_cons ht)]
    rfl
  | integer ht =>
    refine ReadsOperand.of_nud (fun p => by rw [ht]; rfl) fun rest _ n _ => ?_
    rw [parseExprInteger, bind_of_ok (parseInteger_cons ht)]
    rfl
  | character ht =>
    refine ReadsOperand.of_nud (fun p => by rw [ht]; rfl) fun rest _ n _ => ?_
    rw [parseExprCharacter, bind_of_ok (expectCurrent_cons ht)]
    rfl
  | bytes ht =>
    refine ReadsOperand.of_nud (fun p => by rw [ht]; rfl) fun rest _ n _ => ?_
    rw [parseExprBytes, bind_of_ok (expectCurrent_cons ht)]
    rfl
  | @grouped l r a e hl hr h =>
    rw [List.cons_append]
    refine ReadsOperand.of_nud (fun p => by rw [hl]; rfl) fun rest _ n hn => ?_
    have hends : EndsExpr (r :: rest) := endsExpr_of_kind hr
    have hcolon : (current (a ++ r :: rest)).kind ≠ .colon := ne_of_nud (h.nud hends) rfl
    simp only [List.append_assoc, List.singleton_append, List.length_cons, List.length_append]
      at hn ⊢
    rw [parseExprLparen, bind_of_ok (expectCurrent_cons hl), currentToken_bind, if_pos hcolon,
      bind_of_ok (h _ hends n (by simp only [List.length_cons, List.length_append]; omega)),
      bind_of_ok (expectCurrent_cons hr)]
    rfl
  | @countof c l r a e hc hl hr _ ih =>
    simp only [List.cons_append]
    refine ReadsOperand.of_nud (fun p => by rw [hc]; rfl) fun rest _ n hn => ?_
    have hclosed : Closed (r :: rest) := (endsExpr_of_kind hr).closed
    simp only [List.cons_append, List.append_assoc, List.singleton_append, List.nil_append,
      List.length_cons, List.length_append] at hn ⊢
    rw [parseExprNudUnary, advanceToken_bind, current_cons, List.tail_cons, if_pos hc,
      bind_of_ok (expectCurrent_cons hl),
      bind_of_ok (ih .prefix_ _ _ (Nat.le_refl _) hclosed (Gives.exprLoop_stop hclosed.2) n
        (by simp only [List.length_cons, List.length_append]; omega)),
      bind_of_ok (expectCurrent_cons hr), hc]
    rfl
  | @call a f l r comma args _ hl hr hcomma hargs ih =>
    rw [List.append_assoc, List.cons_append]
    refine ih.of_led (by rw [hl]; rfl) (ends_of_kind hl) (fun p => by rw [hl]; rfl)
      fun rest => ?_
    rw [List.append_assoc]
    exact parseExprLedLparen_call hl hr hcomma hargs f rest
  | @index a f l r i idx _ hl hr hi ih =>
    rw [List.append_assoc, List.cons_append]
    refine ih.of_led (by rw [hl]; rfl) (ends_of_kind hl) (fun p => by rw [hl]; rfl)
      fun rest => ?_
    rw [List.append_assoc]
    exact parseExprLedLbracket_index hl hr hi f rest
  | @slice a f l c r b en eb ee _ hl hc hr hb he ih =>
    simp only [List.append_assoc, List.cons_append]
    refine ih.of_led (by rw [hl]; rfl) (ends_of_kind hl) (fun p => by rw [hl]; rfl)
      fun rest => ?_
    simp only [List.append_assoc, List.cons_append, List.singleton_append]
    exact parseExprLedLbracket_slice hl hc hr hb he f rest
  | @member a f d i _ hd hi ih =>
    exact ih.of_led (by rw [hd]; rfl) (ends_of_kind hd) (fun p => by rw [hd]; rfl)
      fun rest => parseExprLedDot_member hd hi f rest
  | @dereference a f d _ hd ih =>
    exact ih.of_led (by rw [hd]; rfl) (ends_of_kind hd) (fun p => by rw [hd]; rfl)
      fun rest => parseExprLedDotStar_dereference hd f rest
  | primary _ ih => exact fun precedence rest r hp hrest => ih precedence rest r hp hrest.1
  | @unary op a e hop _ ih =>
    have hcountof : op.kind ≠ .countof := fun h => absurd (h ▸ hop) (by decide)
    refine ReadsOperand.of_nud (fun p => tokenKindNud_prefix hop) fun rest hrest n hn => ?_
    simp only [List.length_cons, List.length_append] at hn
    rw [parseExprNudUnary, advanceToken_bind, current_cons, List.tail_cons, if_neg hcountof,
      bind_of_ok (ih .prefix_ _ _ (Nat.le_refl _) hrest (Gives.exprLoop_stop hrest.2) n
        (by simp only [List.length_append]; omega))]
    rfl
  | @cast l c r ty t a e hl hc hr ht h ih =>
    simp only [List.cons_append]
    refine ReadsOperand.of_nud (fun p => by rw [hl]; rfl) fun rest hrest n hn => ?_
    obtain ⟨hne, hnud⟩ := h.nud (parsers 0)
    have hbracket : (current (a ++ rest)).kind ≠ .lbracket := by
      rw [current_append hne]; exact ne_of_nud hnud rfl
    have hbrace : (current (a ++ rest)).kind ≠ .lbrace := by
      rw [current_append hne]; exact ne_of_nud hnud rfl
    simp only [List.cons_append, List.append_assoc, List.length_cons, List.length_append] at hn ⊢
    rw [parseExprLparen, bind_of_ok (expectCurrent_cons hl), currentToken_bind, current_cons,
      if_neg (not_not.2 hc), bind_of_ok (expectCurrent_cons hc),
      bind_of_ok (ht _ (by rw [current_cons, hr]) n
        (by simp only [List.length_cons, List.length_append]; omega)),
      bind_of_ok (expectCurrent_cons hr), currentToken_bind, if_neg (fun h => hbracket h.1),
      if_neg (fun h => hbrace h.1), if_neg (fun h => hbracket h.1), if_neg (fun h => hbrace h.1),
      bind_of_ok (ih .prefix_ _ _ (Nat.le_refl _) hrest (Gives.exprLoop_stop hrest.2) n
        (by simp only [List.length_append]; omega))]
    rfl

/-- An identifier is a primary expression: the symbol of one element. -/
theorem Operand.identifier (ht : t.kind = .identifier) :
    Operand true [t] (.symbol false [.mk t.text []]) :=
  .symbol (.inl ht) fun _ hrest _ _ => parseSymbol_identifier ht hrest

end Reads

/-! ## Chains of binary operators -/

/-- The tokens of the operators of a chain, each followed by its right operand. -/
def chainTokens (ops : List (Token × List Token × Expr)) : List Token :=
  (ops.map fun x => x.1 :: x.2.1).flatten

/-- The operators and right operands of a chain, as `Expr.flatten` lists them. -/
def chainOperands (ops : List (Token × List Token × Expr)) : List (TokenKind × Expr) :=
  ops.map fun x => (x.1.kind, x.2.2)

section Chain
variable {x : Token × List Token × Expr} {ops s₁ s₂ : List (Token × List Token × Expr)}
  {rest : List Token}

@[simp] theorem chainTokens_nil : chainTokens [] = [] := rfl

@[simp] theorem chainTokens_cons : chainTokens (x :: ops) = x.1 :: (x.2.1 ++ chainTokens ops) :=
  rfl

@[simp] theorem chainTokens_append : chainTokens (s₁ ++ s₂) = chainTokens s₁ ++ chainTokens s₂ := by
  simp [chainTokens]

@[simp] theorem chainOperands_nil : chainOperands [] = [] := rfl

@[simp] theorem chainOperands_cons : chainOperands (x :: ops) = (x.1.kind, x.2.2) :: chainOperands ops :=
  rfl

@[simp] theorem chainOperands_append :
    chainOperands (s₁ ++ s₂) = chainOperands s₁ ++ chainOperands s₂ := by
  simp [chainOperands]

/-- The operators of a chain are binary operators, its right operands operand trees that
`parse_expr_precedence` reads. -/
def Chain (ops : List (Token × List Token × Expr)) : Prop :=
  ∀ x ∈ ops, x.1.kind ∈ binaryOperators ∧ ReadsOperand Closed x.2.1 x.2.2 ∧ x.2.2.IsOperand

theorem Chain.tail (h : Chain (x :: ops)) : Chain ops := fun y hy => h y (List.mem_cons_of_mem _ hy)

theorem Chain.suffix (h : Chain (s₁ ++ s₂)) : Chain s₂ := fun y hy => h y (List.mem_append_right _ hy)

/-- What follows an operand of a chain does not extend it: an operator or the end. -/
theorem Chain.closed (h : Chain ops) (hrest : EndsExpr rest) : Closed (chainTokens ops ++ rest) := by
  rcases ops with _ | ⟨x, ops⟩
  · exact hrest.closed
  have hbin := (h x (List.mem_cons_self _ _)).1
  refine ⟨⟨fun hk => absurd (hk ▸ hbin) (by decide), fun hk => absurd (hk ▸ hbin) (by decide)⟩, ?_⟩
  exact Nat.le_of_lt (rank_of_binary _ hbin).2

/-- `parse_expr_led_binary` reads the operator, then its right operand at its own level. -/
theorem parseExprLedBinary_binary {o : Token} {ts ts' : List Token} {lhs rhs : Expr}
    (h : Gives (fun p => p.exprPrecedence (tokenKindPrecedence o.kind)) ts (.ok (rhs, ts'))) :
    Runs (fun p => parseExprLedBinary p lhs) (o :: ts) (.ok (.binary o.kind lhs rhs, ts')) := by
  intro n hn
  dsimp only
  rw [parseExprLedBinary, advanceToken_bind, current_cons, List.tail_cons, bind_of_ok (h n hn)]
  rfl

/-- The rounds of the Pratt loop over a chain, by induction on its length: the loop at level
`precedence` extends a well-grouped `lhs` by the longest prefix `s₁` of the chain whose
operators bind tighter than `precedence`, stops before the rest `s₂`, and gives a well-grouped
tree that flattens to `lhs` followed by `s₁`. -/
theorem exprLoop_chain (hrest : EndsExpr rest) :
    ∀ (n : Nat) (ops : List (Token × List Token × Expr)), ops.length ≤ n → Chain ops →
    ∀ (precedence : Precedence) (lhs : Expr), lhs.WellGrouped → precedence.rank < lhs.top →
      (∀ x ∈ ops.head?, level x.1.kind ≤ lhs.top) →
      ∃ s₁ s₂ t, ops = s₁ ++ s₂ ∧ (∀ x ∈ s₂.head?, level x.1.kind ≤ precedence.rank) ∧
        Gives (fun p => p.exprLoop precedence lhs) (chainTokens ops ++ rest)
          (.ok (t, chainTokens s₂ ++ rest)) ∧
        t.flatten = (lhs.flatten.1, lhs.flatten.2 ++ chainOperands s₁) ∧ t.WellGrouped ∧
        precedence.rank < t.top := by
  intro n
  induction n with
  | zero =>
    intro ops hlen _ precedence lhs hwg htop _
    obtain rfl : ops = [] := List.eq_nil_of_length_eq_zero (Nat.le_zero.1 hlen)
    refine ⟨[], [], lhs, rfl, by simp, Gives.exprLoop_stop ?_, by simp, hwg, htop⟩
    rw [chainTokens_nil, List.nil_append, hrest.2]
    exact Nat.zero_le _
  | succ n ih =>
    intro ops hlen hops precedence lhs hwg htop hnext
    rcases ops with _ | ⟨x, ops⟩
    · refine ⟨[], [], lhs, rfl, by simp, Gives.exprLoop_stop ?_, by simp, hwg, htop⟩
      rw [chainTokens_nil, List.nil_append, hrest.2]
      exact Nat.zero_le _
    obtain ⟨hbin, hx, hxo⟩ := hops x (List.mem_cons_self _ _)
    by_cases hlev : level x.1.kind ≤ precedence.rank
    · exact ⟨[], x :: ops, lhs, rfl, fun y hy => by cases hy; exact hlev,
        Gives.exprLoop_stop hlev, by simp, hwg, htop⟩
    -- `x` binds tighter than `precedence`: its right operand is read at its own level
    have hlevel : level x.1.kind < Precedence.prefix_.rank := (rank_of_binary _ hbin).2
    have hxtop : x.2.2.top = Precedence.prefix_.rank := Expr.top_of_isOperand hxo
    obtain ⟨s₁, s₂, r, rfl, hs₂, hr, hrfl, hrwg, hrtop⟩ :=
      ih ops (Nat.le_of_succ_le_succ hlen) hops.tail (tokenKindPrecedence x.1.kind) x.2.2
        (.operand hxo) (hxtop ▸ hlevel) fun y hy =>
          hxtop ▸ Nat.le_of_lt (rank_of_binary _ (hops.tail y (List.mem_of_mem_head? hy)).1).2
    have hrhs : Gives (fun p => p.exprPrecedence (tokenKindPrecedence x.1.kind))
        (x.2.1 ++ (chainTokens (s₁ ++ s₂) ++ rest)) (.ok (r, chainTokens s₂ ++ rest)) :=
      hx _ _ _ (Nat.le_of_lt hlevel) (hops.tail.closed hrest) hr
    -- then the loop goes on at `precedence` with the binary node
    have hwg' : (Expr.binary x.1.kind lhs r).WellGrouped := .binary hwg hrwg (hnext x rfl) hrtop
    obtain ⟨s₃, s₄, t, rfl, hs₄, ht, htfl, htwg, httop⟩ :=
      ih s₂ (by simp at hlen; omega) hops.tail.suffix precedence _ hwg' (Nat.lt_of_not_le hlev) hs₂
    refine ⟨x :: (s₁ ++ s₃), s₄, t, by simp, hs₄, ?_, ?_, htwg, httop⟩
    · simp only [chainTokens_cons, List.cons_append, List.append_assoc]
      refine Gives.exprLoop_led (Nat.lt_of_not_le hlev) (fun p => tokenKindLed_binary hbin)
        (parseExprLedBinary_binary hrhs) ?_ ht
      simp only [chainTokens_append, List.length_append, List.length_cons]
      omega
    · simp [htfl, hrfl, Expr.flatten_of_isOperand hxo]

/-! ## `parse_expr` on a chain -/

/-- `parse_expr` reads a chain `a₀ op₁ a₁ … opₖ aₖ` of operands and binary operators, before
anything that ends an expression, consuming exactly its tokens: it returns the tree that
flattens to the chain, that tree is well grouped (the operators group by their levels, those of
one level to the left), and it is the only well-grouped tree of the chain. -/
theorem parseExpr_groups {a₀ : List Token} {e₀ : Expr} {ops : List (Token × List Token × Expr)}
    (h₀ : Operand false a₀ e₀)
    (hops : ∀ x ∈ ops, x.1.kind ∈ binaryOperators ∧ Operand false x.2.1 x.2.2) :
    ∃ t, ReadsExpr (a₀ ++ chainTokens ops) t ∧ t.flatten = (e₀, chainOperands ops) ∧
      t.WellGrouped ∧ ∀ t', t'.WellGrouped → t'.flatten = t.flatten → t' = t := by
  have hchain : Chain ops := fun x hx => ⟨(hops x hx).1, (hops x hx).2.reads, (hops x hx).2.isOperand⟩
  have he₀ := h₀.isOperand
  have hreads : ∀ rest, EndsExpr rest → ∃ t,
      Gives parseExpr (a₀ ++ chainTokens ops ++ rest) (.ok (t, rest)) ∧
      t.flatten = (e₀, chainOperands ops) ∧ t.WellGrouped := by
    intro rest hrest
    obtain ⟨s₁, s₂, t, rfl, hs₂, ht, htfl, htwg, -⟩ := exprLoop_chain hrest _ ops (Nat.le_refl _)
      hchain .lowest e₀ (.operand he₀) (by rw [Expr.top_of_isOperand he₀]; decide)
      fun x hx => by
        rw [Expr.top_of_isOperand he₀]
        exact Nat.le_of_lt (rank_of_binary _ (hchain x (List.mem_of_mem_head? hx)).1).2
    rcases s₂ with _ | ⟨y, s₂⟩
    · refine ⟨t, ?_, by simpa [Expr.flatten_of_isOperand he₀] using htfl, htwg⟩
      rw [List.append_assoc]
      exact h₀.reads .lowest _ _ (Nat.zero_le _) (hchain.closed hrest) (by simpa using ht)
    · exact absurd (hs₂ y rfl) (Nat.not_le_of_lt
        (rank_of_binary _ (hchain y (List.mem_append_right _ (List.mem_cons_self _ _))).1).1)
  obtain ⟨t, -, htfl, htwg⟩ := hreads [] ⟨⟨by decide, by decide⟩, rfl⟩
  refine ⟨t, fun rest hrest => ?_, htfl, htwg, fun t' ht' hfl => ht'.unique htwg hfl⟩
  obtain ⟨t', ht', htfl', htwg'⟩ := hreads rest hrest
  rwa [htwg'.unique htwg (htfl'.trans htfl.symm)] at ht'

/-- `a + b * c`: the product groups under the sum. -/
theorem parseExpr_groups_sum_product :
    Operand false [{ kind := .identifier, text := "a" }] (.symbol false [.mk "a" []]) ∧
    (∀ x ∈ [(({ kind := .plus } : Token), [({ kind := .identifier, text := "b" } : Token)],
        Expr.symbol false [.mk "b" []]),
      ({ kind := .star }, [{ kind := .identifier, text := "c" }], .symbol false [.mk "c" []])],
      x.1.kind ∈ binaryOperators ∧ Operand false x.2.1 x.2.2) ∧
    ∃ t, ReadsExpr ([{ kind := .identifier, text := "a" }] ++ chainTokens
        [({ kind := .plus }, [{ kind := .identifier, text := "b" }], .symbol false [.mk "b" []]),
          ({ kind := .star }, [{ kind := .identifier, text := "c" }], .symbol false [.mk "c" []])])
        t ∧
      t.flatten = (.symbol false [.mk "a" []], chainOperands
        [({ kind := .plus }, [{ kind := .identifier, text := "b" }], .symbol false [.mk "b" []]),
          ({ kind := .star }, [{ kind := .identifier, text := "c" }], .symbol false [.mk "c" []])]) ∧
      t.WellGrouped ∧ ∀ t', t'.WellGrouped → t'.flatten = t.flatten → t' = t := by
  have ha : Operand false [{ kind := .identifier, text := "a" }] (.symbol false [.mk "a" []]) :=
    .primary (.identifier rfl)
  have hops : ∀ x ∈ [(({ kind := .plus } : Token), [({ kind := .identifier, text := "b" } : Token)],
        Expr.symbol false [.mk "b" []]),
      ({ kind := .star }, [{ kind := .identifier, text := "c" }], .symbol false [.mk "c" []])],
      x.1.kind ∈ binaryOperators ∧ Operand false x.2.1 x.2.2 := by
    intro x hx
    simp only [List.mem_cons, List.mem_singleton, List.not_mem_nil, or_false] at hx
    rcases hx with rfl | rfl <;> exact ⟨by decide, .primary (.identifier rfl)⟩
  exact ⟨ha, hops, parseExpr_groups ha hops⟩

example : parseExpr (parsers 6) [{ kind := .identifier, text := "a" }, { kind := .plus },
      { kind := .identifier, text := "b" }, { kind := .star }, { kind := .identifier, text := "c" }] =
    .ok (.binary .plus (.symbol false [.mk "a" []])
      (.binary .star (.symbol false [.mk "b" []]) (.symbol false [.mk "c" []])), []) := rfl

example : parseExpr (parsers 6) [{ kind := .identifier, text := "a" }, { kind := .dash },
      { kind := .identifier, text := "b" }, { kind := .dash }, { kind := .identifier, text := "c" }] =
    .ok (.binary .dash (.binary .dash (.symbol false [.mk "a" []]) (.symbol false [.mk "b" []]))
      (.symbol false [.mk "c" []]), []) := rfl

end Chain

end Sunder.Parse
