import Sunder.Parse.Print
import Sunder.Parse.WellFormed
/-!
# Reading printed trees back: the invariants

What it means for a parse function to read the tokens of a tree (`Sunder/Parse/Print.lean`)
back, and the parts every form shares:

* the loops `untilKind_reads`, `whileKind_reads`, `sepByComma_reads` and `untilKindSep_reads`
  read a list of items back from their tokens, given what one round reads (`ReadsEach`);
* `Expr.Reads`: `parse_expr_precedence`, at a level the root of a tree binds tighter than,
  reads the tokens of the tree and goes on with its loop, before anything that binds no tighter
  than the root; `Typespec.Reads`: `parse_typespec` reads a type specifier back before anything
  that extends no symbol, and `SymbolElement.Reads` an element of a symbol;
* symbols (`parseSymbol_reads`) and the forms of the type specifiers, one lemma each.

The expressions are in `Sunder/Parse/ReadExpr.lean`; statements, declarations and modules in
`Sunder/Parse/RoundTrip.lean`.
-/

namespace Sunder.Parse

/-! ## Loops over the tokens of items -/

theorem expectCurrent_tok (k : TokenKind) (ts : List Token) :
    expectCurrent k (tok k :: ts) = .ok (tok k, ts) :=
  expectCurrent_cons rfl

section Loops
variable {α : Type} {f : Parser α} {g : α → List Token} {F : List Token → Prop} {L : Nat}
  {xs : List α} {k : TokenKind} {rest : List Token}

/-- `f` reads the tokens `g x` of each item `x` of `xs` back as `x`, before anything `F` admits,
from at most `L` tokens; no item has no tokens. -/
structure ReadsEach (f : Parser α) (g : α → List Token) (F : List Token → Prop) (L : Nat)
    (xs : List α) : Prop where
  ne_nil : ∀ x ∈ xs, g x ≠ []
  reads : ∀ x ∈ xs, ∀ ts, F ts → (g x ++ ts).length ≤ L → f (g x ++ ts) = .ok (x, ts)

theorem ReadsEach.tail {x : α} (h : ReadsEach f g F L (x :: xs)) : ReadsEach f g F L xs :=
  ⟨fun y hy => h.ne_nil y (.tail _ hy), fun y hy => h.reads y (.tail _ hy)⟩

theorem length_le_flatten (h : ∀ x ∈ xs, g x ≠ []) :
    xs.length ≤ (xs.map g).flatten.length := by
  induction xs with
  | nil => exact Nat.le_refl _
  | cons x xs ih =>
    have := List.length_pos.2 (h x (.head _))
    have := ih fun y hy => h y (.tail _ hy)
    simp only [List.map_cons, List.flatten_cons, List.length_append, List.length_cons]
    omega

/-- The tokens of items before anything `F` admits, when `F` admits the tokens of an item
before anything it admits. -/
theorem follows_flatten (hF : ∀ x ∈ xs, ∀ ts, F ts → F (g x ++ ts)) (hrest : F rest) :
    F ((xs.map g).flatten ++ rest) := by
  induction xs with
  | nil => exact hrest
  | cons x xs ih =>
    rw [List.map_cons, List.flatten_cons, List.append_assoc]
    exact hF x (.head _) _ (ih fun y hy => hF y (.tail _ hy))

/-- What follows an item of a list with separators: a separator, or what follows the list. -/
theorem sepTail_of {β : Type} {P : List Token → Prop} {sep : Token} (hc : ∀ ts, P (sep :: ts))
    (g : β → List Token) (ts : List Token) (hts : P ts) :
    ∀ ys : List β, P ((ys.map fun y => sep :: g y).flatten ++ ts)
  | [] => hts
  | _ :: _ => hc _

/-- `while (!check_current(parser, k))` reads the items back, up to a token of `k`. -/
theorem untilKind_reads (h : ReadsEach f g F L xs)
    (hF : ∀ x ∈ xs, ∀ ts, F ts → F (g x ++ ts))
    (hk : ∀ x ∈ xs, (current (g x)).kind ≠ k) (hrest : F rest)
    (hkind : (current rest).kind = k) (hL : ((xs.map g).flatten ++ rest).length ≤ L) :
    bounded (untilKind k f) ((xs.map g).flatten ++ rest) = .ok (xs, rest) := by
  suffices ∀ bound, xs.length < bound →
      untilKind k f bound ((xs.map g).flatten ++ rest) = .ok (xs, rest) from
    this _ (by have := length_le_flatten h.ne_nil; simp only [List.length_append]; omega)
  induction xs with
  | nil =>
    rintro (_ | bound) hb
    · exact absurd hb (Nat.not_lt_zero _)
    · rw [untilKind_succ]
      exact if_pos hkind
  | cons x xs ih =>
    rintro (_ | bound) hb
    · exact absurd hb (Nat.not_lt_zero _)
    simp only [List.map_cons, List.flatten_cons, List.append_assoc, List.length_append] at hL ⊢
    rw [untilKind_succ, current_append (h.ne_nil x (.head _)), if_neg (hk x (.head _)),
      bind_of_ok (h.reads x (.head _) _ (follows_flatten (fun y hy => hF y (.tail _ hy)) hrest)
        (by simp only [List.length_append]; omega)),
      bind_of_ok (ih h.tail (fun y hy => hF y (.tail _ hy)) (fun y hy => hk y (.tail _ hy))
        (by simp only [List.length_append]; omega) bound (Nat.lt_of_succ_lt_succ hb))]
    rfl

/-- `while (check_current(parser, k))` reads the items back, up to a token of another
kind. -/
theorem whileKind_reads (h : ReadsEach f g F L xs)
    (hF : ∀ x ∈ xs, ∀ ts, F ts → F (g x ++ ts))
    (hk : ∀ x ∈ xs, (current (g x)).kind = k) (hrest : F rest)
    (hkind : (current rest).kind ≠ k) (hL : ((xs.map g).flatten ++ rest).length ≤ L) :
    bounded (whileKind k f) ((xs.map g).flatten ++ rest) = .ok (xs, rest) := by
  suffices ∀ bound, xs.length < bound →
      whileKind k f bound ((xs.map g).flatten ++ rest) = .ok (xs, rest) from
    this _ (by have := length_le_flatten h.ne_nil; simp only [List.length_append]; omega)
  induction xs with
  | nil =>
    rintro (_ | bound) hb
    · exact absurd hb (Nat.not_lt_zero _)
    · rw [whileKind_succ]
      exact if_neg hkind
  | cons x xs ih =>
    rintro (_ | bound) hb
    · exact absurd hb (Nat.not_lt_zero _)
    simp only [List.map_cons, List.flatten_cons, List.append_assoc, List.length_append] at hL ⊢
    rw [whileKind_succ, current_append (h.ne_nil x (.head _)), if_pos (hk x (.head _)),
      bind_of_ok (h.reads x (.head _) _ (follows_flatten (fun y hy => hF y (.tail _ hy)) hrest)
        (by simp only [List.length_append]; omega)),
      bind_of_ok (ih h.tail (fun y hy => hF y (.tail _ hy)) (fun y hy => hk y (.tail _ hy))
        (by simp only [List.length_append]; omega) bound (Nat.lt_of_succ_lt_succ hb))]
    rfl

/-- A comma-separated list (`sepByComma`) reads its items back, up to a token that is no
comma. -/
theorem sepByComma_reads (h : ReadsEach f g F L xs) (hxs : xs ≠ [])
    (hcomma : ∀ ts, F (tok .comma :: ts)) (hrest : F rest)
    (hkind : (current rest).kind ≠ .comma)
    (hL : (commaList (tok .comma) (xs.map g) ++ rest).length ≤ L) :
    sepByComma f (commaList (tok .comma) (xs.map g) ++ rest) = .ok (xs, rest) := by
  obtain ⟨x, xs, rfl⟩ := List.exists_cons_of_ne_nil hxs
  simp only [commaList, List.map_cons, List.map_map, Function.comp_def, List.append_assoc]
    at hL ⊢
  have hloop := whileKind_reads (f := do let _ ← advanceToken; f) (k := .comma)
    (g := fun y => tok .comma :: g y) (F := F) (L := L)
    ⟨fun _ _ => List.cons_ne_nil _ _, fun y hy ts hts hlen => by
      rw [List.cons_append, advanceToken_bind]
      exact h.reads y (.tail _ hy) ts hts (Nat.le_trans (Nat.le_succ _) hlen)⟩
    (fun _ _ _ _ => hcomma _) (fun _ _ => rfl) hrest hkind
    (Nat.le_trans (by simp only [List.length_append]; omega) hL)
  rw [sepByComma, bind_of_ok (h.reads x (.head _) _ (sepTail_of hcomma g rest hrest _) hL),
    bind_of_ok hloop]
  rfl

/-- The loop of a comma-separated list up to `k` (`untilKindSep`), after its first item. -/
theorem untilKindSep_reads_tail (h : ReadsEach f g F L xs) (hcomma : ∀ ts, F (tok .comma :: ts))
    (hck : k ≠ .comma) (hrest : F rest) (hkind : (current rest).kind = k)
    (hL : ((xs.map fun x => tok .comma :: g x).flatten ++ rest).length ≤ L) :
    ∀ bound, xs.length < bound →
      untilKindSep k f bound false ((xs.map fun x => tok .comma :: g x).flatten ++ rest) =
        .ok (xs, rest) := by
  induction xs with
  | nil =>
    rintro (_ | bound) hb
    · exact absurd hb (Nat.not_lt_zero _)
    · rw [untilKindSep_succ]
      exact if_pos hkind
  | cons x xs ih =>
    rintro (_ | bound) hb
    · exact absurd hb (Nat.not_lt_zero _)
    simp only [List.map_cons, List.flatten_cons, List.cons_append, List.append_assoc,
      List.length_cons, List.length_append] at hL ⊢
    rw [untilKindSep_succ, current_cons, tok_kind, if_neg (Ne.symm hck), commaUnlessFirst,
      bind_assoc,
      bind_of_ok (expectCurrent_tok _ _), pure_bind,
      bind_of_ok (h.reads x (.head _) _ (sepTail_of hcomma g rest hrest _)
        (by simp only [List.length_append]; omega)),
      bind_of_ok (ih h.tail (by simp only [List.length_append]; omega) bound
        (Nat.lt_of_succ_lt_succ hb))]
    rfl

/-- `untilKindSep` reads a comma-separated list back, up to a token of `k`. -/
theorem untilKindSep_reads (h : ReadsEach f g F L xs)
    (hk : ∀ x ∈ xs, (current (g x)).kind ≠ k) (hcomma : ∀ ts, F (tok .comma :: ts))
    (hck : k ≠ .comma) (hrest : F rest) (hkind : (current rest).kind = k)
    (hL : (commaList (tok .comma) (xs.map g) ++ rest).length ≤ L) :
    bounded (untilKindSep k f · true) (commaList (tok .comma) (xs.map g) ++ rest) =
      .ok (xs, rest) := by
  rw [bounded_apply]
  rcases xs with _ | ⟨x, xs⟩
  · rw [untilKindSep_succ]
    exact if_pos hkind
  have hlen : xs.length ≤ ((xs.map fun x => tok .comma :: g x).flatten).length :=
    length_le_flatten fun _ _ => List.cons_ne_nil _ _
  have hx := List.length_pos.2 (h.ne_nil x (.head _))
  simp only [commaList, List.map_cons, List.map_map, Function.comp_def, List.append_assoc,
    List.length_append] at hL ⊢
  rw [untilKindSep_succ, current_append (h.ne_nil x (.head _)), if_neg (hk x (.head _)),
    commaUnlessFirst, pure_bind,
    bind_of_ok (h.reads x (.head _) _ (sepTail_of hcomma g rest hrest _)
      (by simp only [List.length_append]; omega)),
    bind_of_ok (untilKindSep_reads_tail h.tail hcomma hck hrest hkind
      (by simp only [List.length_append]; omega) _ (by omega))]
  rfl

end Loops

/-! ## What the parser reads back -/

/-- What may follow an expression whose root binds as tightly as `b`: nothing that extends a
symbol, and no token that binds tighter than `b`. -/
def FollowsAt (b : Nat) (rest : List Token) : Prop :=
  Ends rest ∧ level (current rest).kind ≤ b

/-- `parse_expr_precedence`, at a level that the root of `e` binds tighter than (at any level up
to `PRECEDENCE_PREFIX` when the root is an operand), reads the tokens of `e` back and goes on with
its loop, before anything that binds no tighter than the root. -/
def Expr.Reads (e : Expr) : Prop :=
  ∀ precedence rest r, precedence.rank ≤ Precedence.prefix_.rank →
    (precedence.rank < e.binding ∨ Precedence.prefix_.rank ≤ e.binding) →
    FollowsAt e.binding rest → Gives (fun p => p.exprLoop precedence e) rest r →
    Gives (fun p => p.exprPrecedence precedence) (e.tokens ++ rest) r

/-- `parse_typespec` reads the tokens of `t` back, before anything that extends no symbol. -/
def Typespec.Reads (t : Typespec) : Prop :=
  ∀ rest, Ends rest → Gives (fun p => p.typespec) (t.tokens ++ rest) (.ok (t, rest))

/-- `parse_symbol_element` reads the tokens of `x` back, before anything but `[[`. -/
def SymbolElement.Reads (x : SymbolElement) : Prop :=
  ∀ rest, (current rest).kind ≠ .lbracketLbracket →
    Runs parseSymbolElement (x.tokens ++ rest) (.ok (x, rest))

section Basics
variable {a rest : List Token} {e : Expr} {t : Typespec}

theorem assertCurrent_tok (k : TokenKind) (condition : String) (ts : List Token) :
    assertCurrent k condition (tok k :: ts) = .ok ((), tok k :: ts) := by
  simp only [assertCurrent, currentToken_bind, current_cons, tok_kind, ne_eq, not_true_eq_false,
    if_false]
  rfl

/-- What `parse_expr` reads is not empty. -/
theorem ReadsExpr.ne_nil (h : ReadsExpr a e) : a ≠ [] := by
  rintro rfl
  exact absurd (h.nud (show EndsExpr [] from ⟨⟨by decide, by decide⟩, rfl⟩)) (by decide)

/-- What `parse_expr` reads starts with a token that has a null denotation. -/
theorem ReadsExpr.current_nud (h : ReadsExpr a e) (rest : List Token) :
    (tokenKindNud (parsers a.length) (current (a ++ rest)).kind).isSome := by
  have := h.nud (show EndsExpr [] from ⟨⟨by decide, by decide⟩, rfl⟩)
  rw [List.append_nil] at this
  rwa [current_append h.ne_nil]

theorem ReadsOperand.mono {follows follows' : List Token → Prop} (h : ReadsOperand follows a e)
    (hf : ∀ rest, follows' rest → follows rest) : ReadsOperand follows' a e :=
  fun precedence rest r hp hrest => h precedence rest r hp (hf rest hrest)

/-- An operand read before anything that binds no tighter than it. -/
theorem Expr.Reads.of_operand (h : ReadsOperand (FollowsAt e.binding) e.tokens e) : e.Reads :=
  fun precedence rest r hp _ hrest => h precedence rest r hp hrest

/-- A tree whose root binds tighter than `PRECEDENCE_LOWEST` is what `parse_expr` reads. -/
theorem Expr.Reads.readsExpr (h : e.Reads) (hb : 0 < e.binding) : ReadsExpr e.tokens e :=
  fun rest hrest => h .lowest rest _ (Nat.zero_le _) (.inl hb)
    ⟨hrest.1, hrest.2 ▸ Nat.zero_le _⟩ (Gives.exprLoop_stop (Nat.le_of_eq hrest.2))

/-- A tree that binds as tightly as a postfix form is a primary expression. -/
theorem Expr.Reads.primary (h : e.Reads) (hb : e.binding = Precedence.postfix_.rank) :
    ReadsOperand Ends e.tokens e := fun precedence rest r hp hrest =>
  h precedence rest r hp (.inr (by rw [hb]; decide)) ⟨hrest, hb ▸ level_le _⟩

theorem Expr.WellFormed.binding_pos (h : e.WellFormed) : 0 < e.binding := by
  cases h with
  | binary hop => exact (rank_of_binary _ hop).1
  | @unary op _ _ =>
    by_cases hc : op = .countof
    · subst hc
      exact Nat.succ_pos _
    · rw [Expr.binding_unary hc]
      exact Nat.succ_pos _
  | _ => exact Nat.succ_pos _

/-- What `parse_expr` reads starts with no token of a kind without a null denotation. -/
theorem ReadsExpr.current_ne (h : ReadsExpr a e) (rest : List Token) (k : TokenKind)
    (hk : ∀ p, tokenKindNud p k = none := by intro _; rfl) : (current (a ++ rest)).kind ≠ k :=
  ne_of_nud (h.current_nud rest) (hk _)

/-- The tokens `parse_typespec` reads start with neither `)` nor `]]`. -/
theorem parseTypespec_current {p : Parsers} {ts : List Token} {r : Typespec × List Token}
    (h : parseTypespec p ts = .ok r) :
    (current ts).kind ≠ .rparen ∧ (current ts).kind ≠ .rbracketRbracket := by
  have hthrow : ∀ k, (current ts).kind = k → k = .rparen ∨ k = .rbracketRbracket →
      parseTypespec p ts = .error (.expectedTypespec (current ts)) := by
    rintro k hk (rfl | rfl) <;>
    · rw [parseTypespec, currentToken_bind, hk]
      rfl
  constructor
  · intro hk
    rw [hthrow _ hk (.inl rfl)] at h
    cases h
  · intro hk
    rw [hthrow _ hk (.inr rfl)] at h
    cases h

theorem Typespec.Reads.starts (h : t.Reads) :
    (current t.tokens).kind ≠ .rparen ∧ (current t.tokens).kind ≠ .rbracketRbracket := by
  have := parseTypespec_current (h [] ⟨by decide, by decide⟩ _ (Nat.lt_succ_self _))
  rwa [List.append_nil] at this

theorem current_commaList_append {sep : Token} {a : List Token} (ha : a ≠ [])
    (as : List (List Token)) (ts : List Token) :
    current (commaList sep (a :: as) ++ ts) = current a := by
  rw [commaList, List.append_assoc, current_append ha]

theorem Typespec.Reads.ne_nil (h : t.Reads) : t.tokens ≠ [] := by
  intro h0
  have := h [] ⟨by decide, by decide⟩ 1 (by rw [h0]; decide)
  rw [h0] at this
  cases this

/-- A parse function run by the field of `Parsers` that calls it one nested call down. -/
theorem Runs.gives {α : Type} {f g : Parsers → Parser α} {ts : List Token}
    {r : Except ParseError (α × List Token)} (hfg : ∀ n, g (parsers (n + 1)) = f (parsers n))
    (h : Runs f ts r) : Gives g ts r
  | 0, hn => absurd hn (Nat.not_lt_zero _)
  | n + 1, hn => (hfg n).symm ▸ h n (Nat.le_of_lt_succ hn)

/-- `parse_typespec` read one nested call down. -/
theorem Typespec.Reads.of_runs
    (h : ∀ rest, Ends rest → Runs parseTypespec (t.tokens ++ rest) (.ok (t, rest))) : t.Reads :=
  fun rest hrest => Runs.gives (f := parseTypespec) (fun _ => rfl) (h rest hrest)

theorem readsEach_expr {es : List Expr} (h : ∀ e ∈ es, ReadsExpr e.tokens e) {L n : Nat}
    (hL : L < n) : ReadsEach (parseExpr (parsers n)) Expr.tokens EndsExpr L es :=
  ⟨fun e he => (h e he).ne_nil, fun e he rest hrest _ => h e he rest hrest n (by omega)⟩

theorem readsEach_typespec {ts : List Typespec} (h : ∀ t ∈ ts, t.Reads) {L n : Nat}
    (hL : L < n) :
    ReadsEach (parsers n).typespec Typespec.tokens Ends L ts :=
  ⟨fun t ht => (h t ht).ne_nil, fun t ht rest hrest _ => h t ht rest hrest n (by omega)⟩

theorem templateTokens_of_ne_nil {l : List (List Token)} (h : l ≠ []) (rest : List Token) :
    templateTokens l ++ rest =
      tok .lbracketLbracket :: (commaList (tok .comma) l ++ tok .rbracketRbracket :: rest) := by
  obtain ⟨a, as, rfl⟩ := List.exists_cons_of_ne_nil h
  simp [templateTokens]

end Basics

/-! ## Symbols -/

section Symbols
variable {rest : List Token}

/-- `parse_template_argument_list` reads `[[T₁, …, Tₙ]]` back. -/
theorem parseTemplateArgumentList_reads {ts : List Typespec} (hne : ts ≠ [])
    (h : ∀ t ∈ ts, t.Reads) (rest : List Token) :
    Runs parseTemplateArgumentList
      (tok .lbracketLbracket :: (commaList (tok .comma) (ts.map Typespec.tokens) ++
        tok .rbracketRbracket :: rest)) (.ok (ts, rest)) := by
  intro n hn
  obtain ⟨t, ts', rfl⟩ := List.exists_cons_of_ne_nil hne
  have hends : Ends (tok .rbracketRbracket :: rest) := ends_of_kind rfl
  have hargs := sepByComma_reads (f := parseTemplateArgument (parsers n)) (L := n - 1)
    (readsEach_typespec h (by simp only [List.length_cons] at hn; omega)) (List.cons_ne_nil _ _)
    (fun _ => ends_of_kind (t := tok .comma) rfl) hends
    (by exact (by decide : TokenKind.rbracketRbracket ≠ .comma))
    (by simp only [List.length_cons] at hn; omega)
  have hne' : (current (commaList (tok .comma) ((t :: ts').map Typespec.tokens) ++
      tok .rbracketRbracket :: rest)).kind ≠ .rbracketRbracket := by
    rw [List.map_cons, current_commaList_append (h t (.head _)).ne_nil]
    exact (h t (.head _)).starts.2
  rw [parseTemplateArgumentList, bind_of_ok (expectCurrent_tok _ _), currentToken_bind,
    if_neg hne', bind_of_ok hargs, bind_of_ok (expectCurrent_tok _ _)]
  rfl

theorem SymbolElement.Reads.mk {name : String} {templateArguments : List Typespec}
    (h : ∀ t ∈ templateArguments, t.Reads) :
    (SymbolElement.mk name templateArguments).Reads := by
  intro rest hrest n hn
  rcases templateArguments with _ | ⟨t, ts⟩
  · show parseSymbolElement (parsers n) (identTok name :: rest) = _
    rw [parseSymbolElement, bind_of_ok (parseIdentifier_cons rfl), currentToken_bind,
      if_neg hrest]
    rfl
  · have hne : (t :: ts).map Typespec.tokens ≠ [] := List.cons_ne_nil _ _
    rw [SymbolElement.tokens, List.cons_append, Typespec.tokensEach_eq,
      templateTokens_of_ne_nil hne] at hn ⊢
    rw [parseSymbolElement, bind_of_ok (parseIdentifier_cons rfl), currentToken_bind, current_cons,
      tok_kind, if_pos rfl, bind_of_ok (parseTemplateArgumentList_reads (List.cons_ne_nil _ _) h
        rest n (by simp only [List.length_cons] at hn ⊢; omega))]
    rfl

/-- The first token of a symbol: `::` from the root, its first identifier otherwise. -/
theorem symbolTokens_current (isFromRoot : Bool) {elements : List SymbolElement}
    (hne : elements ≠ []) (rest : List Token) :
    (current (symbolTokens isFromRoot (SymbolElement.tokensEach elements) ++ rest)).kind =
        .identifier ∨
      (current (symbolTokens isFromRoot (SymbolElement.tokensEach elements) ++ rest)).kind =
        .colonColon := by
  obtain ⟨⟨name, targs⟩, xs, rfl⟩ := List.exists_cons_of_ne_nil hne
  cases isFromRoot
  · exact .inl rfl
  · exact .inr rfl

/-- `parse_symbol` reads a symbol back, before anything that extends no symbol. -/
theorem parseSymbol_reads {isFromRoot : Bool} {elements : List SymbolElement}
    (hne : elements ≠ []) (h : ∀ x ∈ elements, x.Reads) (hrest : Ends rest) :
    Runs parseSymbol (symbolTokens isFromRoot (SymbolElement.tokensEach elements) ++ rest)
      (.ok ((isFromRoot, elements), rest)) := by
  intro n hn
  obtain ⟨x, xs, rfl⟩ := List.exists_cons_of_ne_nil hne
  simp only [symbolTokens, SymbolElement.tokensEach_eq, commaList, List.map_cons, List.map_map,
    Function.comp_def, List.append_assoc, List.length_append] at hn ⊢
  have hsep : ∀ ts, (current (tok .colonColon :: ts)).kind ≠ .lbracketLbracket :=
    fun _ => by exact (by decide : TokenKind.colonColon ≠ .lbracketLbracket)
  have hloop := whileKind_reads
    (f := (do let _ ← expectCurrent .colonColon; parseSymbolElement (parsers n)))
    (k := .colonColon) (g := fun y => tok .colonColon :: y.tokens)
    (F := fun ts => (current ts).kind ≠ .lbracketLbracket) (L := n)
    ⟨fun _ _ => List.cons_ne_nil _ _, fun y hy ts hts hlen => by
      rw [List.cons_append, bind_of_ok (expectCurrent_tok _ _)]
      exact h y (.tail _ hy) ts hts n (Nat.le_trans (Nat.le_succ _) hlen)⟩
    (fun _ _ _ _ => hsep _) (fun _ _ => rfl) hrest.2 hrest.1
    (by simp only [List.length_append]; omega)
  have hfirst : parseSymbolElement (parsers n)
      (x.tokens ++ ((xs.map fun y => tok .colonColon :: y.tokens).flatten ++ rest)) =
        .ok (x, (xs.map fun y => tok .colonColon :: y.tokens).flatten ++ rest) :=
    h x (.head _) _ (sepTail_of (P := fun ts => (current ts).kind ≠ .lbracketLbracket) hsep
      SymbolElement.tokens _ hrest.2 xs) n
      (by simp only [List.length_append]; omega)
  cases isFromRoot
  · obtain ⟨name, targs⟩ := x
    rw [parseSymbol, currentToken_bind, if_neg (by exact (by decide : TokenKind.identifier ≠
      .colonColon)), pure_bind]
    rw [if_neg (by decide), List.nil_append] at *
    rw [bind_of_ok hfirst, bind_of_ok hloop]
    rfl
  · rw [if_pos rfl, List.singleton_append, parseSymbol, currentToken_bind, current_cons, tok_kind,
      if_pos rfl, bind_assoc, bind_of_ok (expectCurrent_tok _ _), pure_bind, bind_of_ok hfirst,
      bind_of_ok hloop]
    rfl

end Symbols

/-! ## Type specifiers -/

section Typespecs
variable {rest : List Token}

theorem Typespec.Reads.symbol {isFromRoot : Bool} {elements : List SymbolElement}
    (hne : elements ≠ []) (h : ∀ x ∈ elements, x.Reads) :
    (Typespec.symbol isFromRoot elements).Reads :=
  .of_runs fun _ hrest n hn => by
    rw [Typespec.tokens] at hn ⊢
    rw [parseTypespec, currentToken_bind, if_pos (symbolTokens_current isFromRoot hne _),
      parseTypespecSymbol, bind_of_ok (parseSymbol_reads hne h hrest n hn)]
    rfl

/-- `func (T₁, …, Tₙ) R`. -/
theorem Typespec.Reads.function {parameters : List Typespec} {ret : Typespec}
    (hp : ∀ t ∈ parameters, t.Reads) (hr : ret.Reads) :
    (Typespec.function parameters ret).Reads :=
  .of_runs fun rest hrest n hn => by
    simp only [Typespec.tokens, Typespec.tokensEach_eq, List.cons_append, List.append_assoc,
      List.length_cons, List.length_append] at hn ⊢
    have hends : Ends (tok .rparen :: (ret.tokens ++ rest)) := ends_of_kind rfl
    have hparams : (if (current (commaList (tok .comma) (parameters.map Typespec.tokens) ++
          tok .rparen :: (ret.tokens ++ rest))).kind = .rparen then pure []
        else sepByComma (parsers n).typespec) (commaList (tok .comma)
          (parameters.map Typespec.tokens) ++ tok .rparen :: (ret.tokens ++ rest)) =
        .ok (parameters, tok .rparen :: (ret.tokens ++ rest)) := by
      rcases parameters with _ | ⟨t, ts⟩
      · simp only [List.map_nil, commaList, List.nil_append]
        rw [current_cons, tok_kind, if_pos rfl]
        rfl
      have hne : (current (commaList (tok .comma) ((t :: ts).map Typespec.tokens) ++
          tok .rparen :: (ret.tokens ++ rest))).kind ≠ .rparen := by
        rw [List.map_cons, current_commaList_append (hp t (.head _)).ne_nil]
        exact (hp t (.head _)).starts.1
      rw [if_neg hne]
      have hlen : (commaList (tok .comma) ((t :: ts).map Typespec.tokens) ++
          tok .rparen :: (ret.tokens ++ rest)).length ≤ n - 1 := by
        simp only [List.length_append, List.length_cons] at hn ⊢
        omega
      exact sepByComma_reads (readsEach_typespec hp (by omega)) (List.cons_ne_nil _ _)
        (fun _ => ends_of_kind (t := tok .comma) rfl) hends
        (by exact (by decide : TokenKind.rparen ≠ .comma)) hlen
    rw [parseTypespec, currentToken_bind, current_cons, tok_kind, if_neg (by decide), if_pos rfl,
      parseTypespecFunction, bind_of_ok (assertCurrent_tok _ _ _),
      bind_of_ok (expectCurrent_tok _ _), bind_of_ok (expectCurrent_tok _ _), currentToken_bind,
      bind_of_ok hparams, bind_of_ok (expectCurrent_tok _ _),
      bind_of_ok (hr rest hrest n (by simp only [List.length_append]; omega))]
    rfl

/-- `*T`. -/
theorem Typespec.Reads.pointer {base : Typespec} (h : base.Reads) : (Typespec.pointer base).Reads :=
  .of_runs fun rest hrest n hn => by
    simp only [Typespec.tokens, List.cons_append, List.length_cons] at hn ⊢
    rw [parseTypespec, currentToken_bind, current_cons, tok_kind, if_neg (by decide),
      if_neg (by decide), if_pos rfl, parseTypespecPointer, bind_of_ok (assertCurrent_tok _ _ _),
      bind_of_ok (expectCurrent_tok _ _), bind_of_ok (h rest hrest n (by omega))]
    rfl

/-- `[N]T`. -/
theorem Typespec.Reads.array {count : Expr} {base : Typespec} (hc : ReadsExpr count.tokens count)
    (hb : base.Reads) : (Typespec.array count base).Reads :=
  .of_runs fun rest hrest n hn => by
    simp only [Typespec.tokens, List.cons_append, List.append_assoc, List.length_cons,
      List.length_append] at hn ⊢
    rw [parseTypespec, currentToken_bind, current_cons, tok_kind, if_neg (by decide),
      if_neg (by decide), if_neg (by decide), if_pos rfl, parseTypespecArrayOrSlice,
      bind_of_ok (assertCurrent_tok _ _ _),
      bind_of_ok (expectCurrent_tok _ _), currentToken_bind,
      if_neg (hc.current_ne _ .rbracket),
      bind_of_ok (hc _ (endsExpr_of_kind (t := tok .rbracket) rfl) n
        (by simp only [List.length_append, List.length_cons]; omega)),
      bind_of_ok (expectCurrent_tok _ _),
      bind_of_ok (hb rest hrest n (by simp only [List.length_append]; omega))]
    rfl

/-- `[]T`. -/
theorem Typespec.Reads.slice {base : Typespec} (h : base.Reads) : (Typespec.slice base).Reads :=
  .of_runs fun rest hrest n hn => by
    simp only [Typespec.tokens, List.cons_append, List.length_cons] at hn ⊢
    rw [parseTypespec, currentToken_bind, current_cons, tok_kind, if_neg (by decide),
      if_neg (by decide), if_neg (by decide), if_pos rfl, parseTypespecArrayOrSlice,
      bind_of_ok (assertCurrent_tok _ _ _),
      bind_of_ok (expectCurrent_tok _ _), currentToken_bind, current_cons, tok_kind, if_pos rfl,
      bind_of_ok (expectCurrent_tok _ _), bind_of_ok (h rest hrest n (by omega))]
    rfl

/-- `typeof(e)`. -/
theorem Typespec.Reads.typeof {e : Expr} (h : ReadsExpr e.tokens e) : (Typespec.typeof e).Reads :=
  .of_runs fun rest _ n hn => by
    simp only [Typespec.tokens, List.cons_append, List.append_assoc, List.singleton_append,
      List.length_cons, List.length_append] at hn ⊢
    rw [parseTypespec, currentToken_bind, current_cons, tok_kind, if_neg (by decide),
      if_neg (by decide), if_neg (by decide), if_neg (by decide), if_pos rfl, parseTypespecTypeof,
      bind_of_ok (assertCurrent_tok _ _ _),
      bind_of_ok (expectCurrent_tok _ _), bind_of_ok (expectCurrent_tok _ _),
      bind_of_ok (h _ (endsExpr_of_kind (t := tok .rparen) rfl) n
        (by simp only [List.length_append, List.length_cons]; omega)),
      bind_of_ok (expectCurrent_tok _ _)]
    rfl

end Typespecs

end Sunder.Parse
