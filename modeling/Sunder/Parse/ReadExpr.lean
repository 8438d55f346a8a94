import Sunder.Parse.ReadBack
/-!
# Reading printed expressions back

`parse_expr` reads the tokens of every well-formed expression back as the expression, before
anything that ends an expression (`Expr.WellFormed.readsExpr`), and `parse_typespec` those of
every well-formed type specifier (`Typespec.WellFormed.reads`). The invariant is `Expr.Reads`
(`Sunder/Parse/ReadBack.lean`), one lemma per form:

* an operand is read by its null denotation (`ReadsOperand.of_nud`): the literals after `(:T)`,
  `syscall`, `sizeof`, `alignof`, a prefix operator or a cast at `PRECEDENCE_PREFIX`;
* a postfix form by the left denotation after a primary expression (`ReadsOperand.of_led`);
* a binary operator by reading its left operand, whose loop reads the operator and then the right
  operand at the operator's own level (`Expr.Reads.binary`).

`Expr.WellFormed.reads` puts them together by induction on the size of the tree.
-/

namespace Sunder.Parse

/-! ## Expressions -/

section Exprs
variable {rest : List Token}

/-- A binary operator: its left operand is read first, and the loop after it reads the operator
and then the right operand at the operator's own level. -/
theorem Expr.Reads.binary {op : TokenKind} {lhs rhs : Expr} (hop : op ∈ binaryOperators)
    (hl : lhs.Reads) (hr : rhs.Reads) (hlb : level op ≤ lhs.binding)
    (hrb : level op < rhs.binding) : (Expr.binary op lhs rhs).Reads := by
  intro precedence rest r hp hprec hrest hloop
  have hlev := rank_of_binary op hop
  have hprec : precedence.rank < level op := hprec.resolve_right (Nat.not_le_of_lt hlev.2)
  have hrhs : Gives (fun p => p.exprPrecedence (tokenKindPrecedence op)) (rhs.tokens ++ rest)
      (.ok (rhs, rest)) :=
    hr _ rest _ (Nat.le_of_lt hlev.2) (.inl hrb)
      ⟨hrest.1, Nat.le_trans hrest.2 (Nat.le_of_lt hrb)⟩ (Gives.exprLoop_stop hrest.2)
  have hends : Ends (tok op :: (rhs.tokens ++ rest)) :=
    ⟨fun hk => absurd ((show op = TokenKind.colonColon from hk) ▸ hop) (by decide),
      fun hk => absurd ((show op = TokenKind.lbracketLbracket from hk) ▸ hop) (by decide)⟩
  simp only [Expr.tokens, List.append_assoc, List.cons_append]
  exact hl precedence _ r hp (.inl (Nat.lt_of_lt_of_le hprec hlb)) ⟨hends, hlb⟩
    (Gives.exprLoop_led hprec (fun _ => tokenKindLed_binary hop)
      (parseExprLedBinary_binary hrhs)
      (by simp only [List.length_cons, List.length_append]; omega) hloop)

theorem Expr.Reads.symbol {isFromRoot : Bool} {elements : List SymbolElement}
    (hne : elements ≠ []) (h : ∀ x ∈ elements, x.Reads) :
    (Expr.symbol isFromRoot elements).Reads := by
  have hk := symbolTokens_current isFromRoot hne []
  rw [List.append_nil] at hk
  exact .of_operand ((Operand.symbol hk fun _ hrest => parseSymbol_reads hne h hrest).reads.mono
    fun _ h => h.1)

theorem Expr.Reads.boolean (b : Bool) : (Expr.boolean b).Reads := by
  refine .of_operand (ReadsOperand.mono ?_ fun _ h => h.1)
  cases b
  · exact (Operand.boolean (t := tok .false_) (.inr rfl)).reads
  · exact (Operand.boolean (t := tok .true_) (.inl rfl)).reads

theorem Expr.Reads.integer (value : Nat) (suffix : String) : (Expr.integer value suffix).Reads :=
  .of_operand ((Operand.integer (t := { kind := .integer, number := value, suffix := suffix })
    rfl).reads.mono fun _ h => h.1)

theorem Expr.Reads.character (c : Int) : (Expr.character c).Reads :=
  .of_operand ((Operand.character (t := { kind := .character, character := c }) rfl).reads.mono
    fun _ h => h.1)

theorem Expr.Reads.bytes (s : List UInt8) : (Expr.bytes s).Reads :=
  .of_operand ((Operand.bytes (t := { kind := .bytes, bytes := s }) rfl).reads.mono fun _ h => h.1)

theorem Expr.Reads.grouped {e : Expr} (h : ReadsExpr e.tokens e) : (Expr.grouped e).Reads :=
  .of_operand ((Operand.grouped (l := tok .lparen) (r := tok .rparen) rfl rfl h).reads.mono
    fun _ h => h.1)

/-- `sizeof(T)` and `alignof(T)`. -/
theorem parseExprOfTypespec_reads {keyword : TokenKind} {node : Typespec → Expr} {t : Typespec}
    (ht : t.Reads) (rest : List Token) :
    Runs (parseExprOfTypespec keyword node)
      (tok keyword :: (tok .lparen :: (t.tokens ++ [tok .rparen]) ++ rest))
      (.ok (node t, rest)) := by
  intro n hn
  simp only [List.cons_append, List.append_assoc, List.singleton_append, List.length_cons,
    List.length_append] at hn ⊢
  rw [parseExprOfTypespec, bind_of_ok (expectCurrent_tok _ _), bind_of_ok (expectCurrent_tok _ _),
    bind_of_ok (ht _ (ends_of_kind (t := tok .rparen) rfl) n
      (by simp only [List.length_append, List.length_cons]; omega)),
    bind_of_ok (expectCurrent_tok _ _)]
  rfl

theorem Expr.Reads.sizeof {t : Typespec} (ht : t.Reads) : (Expr.sizeof t).Reads :=
  .of_operand ((ReadsOperand.of_nud (t := tok .sizeof) (fun _ => rfl) fun rest _ =>
    (parseExprOfTypespec_reads ht rest : Runs parseExprSizeof _ _)).mono fun _ h => h.1)

theorem Expr.Reads.alignof {t : Typespec} (ht : t.Reads) : (Expr.alignof t).Reads :=
  .of_operand ((ReadsOperand.of_nud (t := tok .alignof) (fun _ => rfl) fun rest _ =>
    (parseExprOfTypespec_reads ht rest : Runs parseExprAlignof _ _)).mono fun _ h => h.1)

/-- A prefix operator `op e`, or `countof(e)`, its operand binding no looser than a prefix
operator. -/
theorem Expr.Reads.unary {op : TokenKind} {rhs : Expr}
    (hop : op ∈ prefixOperators ∨ op = .countof)
    (h : rhs.Reads) (hb : Precedence.prefix_.rank ≤ rhs.binding) : (Expr.unary op rhs).Reads := by
  rcases hop with hop | rfl
  · have hc : op ≠ .countof := fun hc => absurd (hc ▸ hop) (by decide)
    refine .of_operand ?_
    simp only [Expr.tokens, if_neg hc, Expr.binding_unary hc]
    refine ReadsOperand.of_nud (fun _ => tokenKindNud_prefix hop) fun rest hrest n hn => ?_
    simp only [List.length_cons, List.length_append] at hn
    rw [parseExprNudUnary, advanceToken_bind, current_cons, List.tail_cons, tok_kind, if_neg hc,
      bind_of_ok (h .prefix_ _ _ (Nat.le_refl _) (.inr hb) ⟨hrest.1, Nat.le_trans hrest.2 hb⟩
        (Gives.exprLoop_stop hrest.2) n (by simp only [List.length_append]; omega))]
    rfl
  · refine .of_operand (ReadsOperand.mono ?_ fun _ h => h.1)
    simp only [Expr.tokens, if_pos, List.cons_append, List.append_assoc, List.singleton_append]
    refine ReadsOperand.of_nud (fun _ => rfl) fun rest _ n hn => ?_
    have hclosed : FollowsAt rhs.binding (tok .rparen :: rest) :=
      ⟨ends_of_kind rfl, Nat.zero_le _⟩
    simp only [List.cons_append, List.append_assoc, List.nil_append, List.length_cons,
      List.length_append] at hn ⊢
    rw [parseExprNudUnary, advanceToken_bind, current_cons, List.tail_cons, tok_kind, if_pos rfl,
      bind_of_ok (expectCurrent_tok _ _),
      bind_of_ok (h .prefix_ _ _ (Nat.le_refl _) (.inr hb) hclosed
        (Gives.exprLoop_stop (Nat.zero_le _)) n
        (by simp only [List.length_cons, List.length_append]; omega)),
      bind_of_ok (expectCurrent_tok _ _)]
    rfl

/-- `(:T) e`, its operand binding no looser than a prefix operator. -/
theorem Expr.Reads.cast {t : Typespec} {e : Expr} (ht : t.Reads) (he : e.Reads)
    (hb : Precedence.prefix_.rank ≤ e.binding) : (Expr.cast t e).Reads := by
  have hnud := he.readsExpr (Nat.lt_of_lt_of_le (by decide) hb)
  refine .of_operand ?_
  simp only [Expr.tokens, typeTokens, List.cons_append, List.append_assoc, List.nil_append]
  refine ReadsOperand.of_nud (fun _ => rfl) fun rest hrest n hn => ?_
  simp only [List.cons_append, List.append_assoc, List.length_cons, List.length_append] at hn ⊢
  rw [parseExprLparen, bind_of_ok (expectCurrent_tok _ _), currentToken_bind, current_cons,
    tok_kind, if_neg (not_not.2 rfl), bind_of_ok (expectCurrent_tok _ _),
    bind_of_ok (ht _ (ends_of_kind (t := tok .rparen) rfl) n
      (by simp only [List.length_cons, List.length_append]; omega)),
    bind_of_ok (expectCurrent_tok _ _), currentToken_bind,
    if_neg (fun h => absurd h.1 (hnud.current_ne rest .lbracket)),
    if_neg (fun h => absurd h.1 (hnud.current_ne rest .lbrace)),
    if_neg (fun h => absurd h.1 (hnud.current_ne rest .lbracket)),
    if_neg (fun h => absurd h.1 (hnud.current_ne rest .lbrace)),
    bind_of_ok (he .prefix_ _ _ (Nat.le_refl _) (.inr hb) ⟨hrest.1, Nat.le_trans hrest.2 hb⟩
      (Gives.exprLoop_stop hrest.2) n (by simp only [List.length_append]; omega))]
  rfl

/-- `syscall(e₁, …, eₙ)`. -/
theorem parseExprSyscall_reads {arguments : List Expr} (hne : arguments ≠ [])
    (h : ∀ e ∈ arguments, ReadsExpr e.tokens e) (rest : List Token) :
    Runs parseExprSyscall (tok .syscall :: (tok .lparen :: (commaList (tok .comma)
      (arguments.map Expr.tokens) ++ [tok .rparen]) ++ rest)) (.ok (.syscall arguments, rest)) := by
  intro n hn
  obtain ⟨e, es, rfl⟩ := List.exists_cons_of_ne_nil hne
  simp only [commaList, List.map_cons, List.map_map, Function.comp_def, List.cons_append,
    List.append_assoc, List.nil_append, List.length_cons, List.length_append] at hn ⊢
  have hends : EndsExpr (tok .rparen :: rest) := endsExpr_of_kind rfl
  have hloop := untilKind_reads (f := do let _ ← expectCurrent .comma; parseExpr (parsers n))
    (k := .rparen) (g := fun e => tok .comma :: e.tokens) (F := EndsExpr) (L := n - 1)
    ⟨fun _ _ => List.cons_ne_nil _ _, fun y hy ts hts hlen => by
      rw [List.cons_append, bind_of_ok (expectCurrent_tok _ _)]
      exact h y (.tail _ hy) ts hts n
        (by simp only [List.length_append, List.length_cons] at hlen ⊢; omega)⟩
    (fun _ _ _ _ => endsExpr_of_kind (t := tok .comma) rfl)
    (fun _ _ => by exact (by decide : TokenKind.comma ≠ .rparen)) hends rfl
    (by simp only [List.length_append, List.length_cons]; omega)
  rw [parseExprSyscall, bind_of_ok (expectCurrent_tok _ _), bind_of_ok (expectCurrent_tok _ _),
    bind_of_ok (h e (.head _) _ (sepTail_of (fun _ => endsExpr_of_kind (t := tok .comma) rfl)
      Expr.tokens _ hends es) n (by simp only [List.length_append, List.length_cons]; omega)),
    bind_of_ok hloop, bind_of_ok (expectCurrent_tok _ _)]
  rfl

theorem Expr.Reads.syscall {arguments : List Expr} (hne : arguments ≠ [])
    (h : ∀ e ∈ arguments, ReadsExpr e.tokens e) : (Expr.syscall arguments).Reads := by
  refine .of_operand (ReadsOperand.mono ?_ fun _ h => h.1)
  simp only [Expr.tokens, Expr.tokensEach_eq]
  exact ReadsOperand.of_nud (t := tok .syscall) (fun _ => rfl) fun rest _ =>
    parseExprSyscall_reads hne h rest

/-- A call `f(e₁, …, eₙ)`, after a primary expression. -/
theorem Expr.Reads.call {f : Expr} {arguments : List Expr} (hf : f.Reads)
    (hb : f.binding = Precedence.postfix_.rank) (h : ∀ e ∈ arguments, ReadsExpr e.tokens e) :
    (Expr.call f arguments).Reads := by
  have hargs : ∀ x ∈ arguments.map (fun e => (e.tokens, e)), ReadsExpr x.1 x.2 := by
    simp only [List.mem_map]
    rintro _ ⟨e, he, rfl⟩
    exact h e he
  refine .of_operand (ReadsOperand.mono ?_ fun _ h => h.1)
  simp only [Expr.tokens, Expr.tokensEach_eq]
  refine (hf.primary hb).of_led (t := tok .lparen) rfl (ends_of_kind rfl) (fun _ => rfl)
    fun rest => ?_
  have hrun := parseExprLedLparen_call (l := tok .lparen) (r := tok .rparen) rfl rfl
    (rfl : (tok .comma).kind = .comma) hargs f rest
  simp only [List.map_map, Function.comp_def, List.map_id'] at hrun
  rw [List.append_assoc, List.singleton_append]
  exact hrun

/-- An index `l[i]`, after a primary expression. -/
theorem Expr.Reads.accessIndex {lhs idx : Expr} (hl : lhs.Reads)
    (hb : lhs.binding = Precedence.postfix_.rank) (hi : ReadsExpr idx.tokens idx) :
    (Expr.accessIndex lhs idx).Reads :=
  .of_operand (ReadsOperand.mono ((hl.primary hb).of_led (t := tok .lbracket) rfl
    (ends_of_kind rfl) (fun _ => rfl) fun rest => by
      rw [List.append_assoc, List.singleton_append]
      exact parseExprLedLbracket_index (l := tok .lbracket) (r := tok .rbracket) rfl rfl hi lhs
        rest)
    fun _ h => h.1)

/-- A slice `l[b:e]`, after a primary expression. -/
theorem Expr.Reads.accessSlice {lhs b e : Expr} (hl : lhs.Reads)
    (hb : lhs.binding = Precedence.postfix_.rank) (hbegin : ReadsExpr b.tokens b)
    (hend : ReadsExpr e.tokens e) : (Expr.accessSlice lhs b e).Reads :=
  .of_operand (ReadsOperand.mono ((hl.primary hb).of_led (t := tok .lbracket) rfl
    (ends_of_kind rfl) (fun _ => rfl) fun rest => by
      simp only [List.append_assoc, List.cons_append, List.singleton_append, List.nil_append]
      exact parseExprLedLbracket_slice (l := tok .lbracket) (c := tok .colon) (r := tok .rbracket)
        rfl rfl rfl hbegin hend lhs rest)
    fun _ h => h.1)

/-- A member access `l.m`, after a primary expression. -/
theorem Expr.Reads.accessMember {lhs : Expr} {member : String} (hl : lhs.Reads)
    (hb : lhs.binding = Precedence.postfix_.rank) : (Expr.accessMember lhs member).Reads :=
  .of_operand (ReadsOperand.mono ((hl.primary hb).of_led (t := tok .dot) rfl
    (ends_of_kind rfl) (fun _ => rfl) fun rest =>
      parseExprLedDot_member (d := tok .dot) (i := identTok member) rfl rfl lhs rest)
    fun _ h => h.1)

/-- A dereference `l.*`, after a primary expression. -/
theorem Expr.Reads.accessDereference {lhs : Expr} (hl : lhs.Reads)
    (hb : lhs.binding = Precedence.postfix_.rank) : (Expr.accessDereference lhs).Reads :=
  .of_operand (ReadsOperand.mono ((hl.primary hb).of_led (t := tok .dotStar)
    rfl (ends_of_kind rfl) (fun _ => rfl) fun rest =>
      (parseExprLedDotStar_dereference rfl lhs rest :
        Runs _ (tok .dotStar :: ([] ++ rest)) _))
    fun _ h => h.1)

/-- The elements of an array literal after the first, each after a comma, the last one followed
by `...` when it fills the rest. -/
theorem parseArrayElements_tail {ellipsis : Option Expr}
    (hx : ∀ e ∈ ellipsis, ReadsExpr e.tokens e)
    (rest : List Token) (n : Nat) : ∀ (elements : List Expr) (bound : Nat),
      (∀ e ∈ elements, ReadsExpr e.tokens e) → elements.length < bound →
      (((elements.map Expr.tokens ++ Expr.ellipsisTokens ellipsis).map
        (tok .comma :: ·)).flatten ++ tok .rbracket :: rest).length < n →
      parseArrayElements (parsers n) bound false
          (((elements.map Expr.tokens ++ Expr.ellipsisTokens ellipsis).map
            (tok .comma :: ·)).flatten ++ tok .rbracket :: rest) =
        .ok ((elements, ellipsis), tok .rbracket :: rest)
  | [], bound + 1, _, _, hn => by
    cases ellipsis with
    | none =>
      show parseArrayElements (parsers n) (bound + 1) false (tok .rbracket :: rest) = _
      rw [parseArrayElements, currentToken_bind, current_cons, tok_kind, if_pos rfl]
      rfl
    | some e =>
      simp only [Expr.ellipsisTokens, List.nil_append, List.map_cons, List.map_nil,
        List.flatten_cons, List.flatten_nil, List.append_nil, List.cons_append, List.append_assoc,
        List.length_cons, List.length_append] at hn ⊢
      rw [parseArrayElements, currentToken_bind, current_cons, tok_kind, if_neg (by decide),
        commaUnlessFirst, bind_assoc, bind_of_ok (expectCurrent_tok _ _), pure_bind,
        bind_of_ok (hx e rfl _ (endsExpr_of_kind (t := tok .ellipsis) rfl) n
          (by simp only [List.length_cons, List.length_append]; omega)),
        currentToken_bind, current_cons, tok_kind, if_pos rfl, bind_of_ok (expectCurrent_tok _ _)]
      rfl
  | e :: es, bound + 1, hes, hb, hn => by
    have htail : ∀ P : List Token → Prop, (∀ ts, P (tok .comma :: ts)) →
        P (tok .rbracket :: rest) →
        P (((es.map Expr.tokens ++ Expr.ellipsisTokens ellipsis).map (tok .comma :: ·)).flatten ++
          tok .rbracket :: rest) := fun P hc hr => sepTail_of hc id _ hr _
    have hlen : (es.map Expr.tokens ++ Expr.ellipsisTokens ellipsis).length ≤
        ((es.map Expr.tokens ++ Expr.ellipsisTokens ellipsis).map
          (tok .comma :: ·)).flatten.length :=
      length_le_flatten fun _ _ => List.cons_ne_nil _ _
    simp only [List.length_append, List.length_map] at hlen
    simp only [List.map_cons, List.cons_append, List.flatten_cons, List.append_assoc,
      List.length_cons, List.length_append, List.length_map] at hn hb ⊢
    rw [parseArrayElements, currentToken_bind, current_cons, tok_kind, if_neg (by decide),
      commaUnlessFirst, bind_assoc, bind_of_ok (expectCurrent_tok _ _), pure_bind,
      bind_of_ok (hes e (.head _) _ (htail EndsExpr (fun _ => endsExpr_of_kind rfl)
        (endsExpr_of_kind rfl)) n (by simp only [List.length_append, List.length_cons]; omega)),
      currentToken_bind, if_neg (htail (fun ts => (current ts).kind ≠ .ellipsis)
        (fun _ => by exact (by decide : TokenKind.comma ≠ .ellipsis))
        (by exact (by decide : TokenKind.rbracket ≠ .ellipsis))),
      bind_of_ok (parseArrayElements_tail hx rest n es bound (fun e h => hes e (.tail _ h))
        (by omega) (by simp only [List.length_append, List.length_cons]; omega))]
    rfl

/-- The elements of an array literal, up to `]`. -/
theorem parseArrayElements_reads {elements : List Expr} {ellipsis : Option Expr}
    (he : ∀ e ∈ elements, ReadsExpr e.tokens e) (hx : ∀ e ∈ ellipsis, ReadsExpr e.tokens e)
    (rest : List Token) (n : Nat)
    (hn : (commaList (tok .comma) (elements.map Expr.tokens ++ Expr.ellipsisTokens ellipsis) ++
      tok .rbracket :: rest).length < n) :
    bounded (parseArrayElements (parsers n) · true)
        (commaList (tok .comma) (elements.map Expr.tokens ++ Expr.ellipsisTokens ellipsis) ++
          tok .rbracket :: rest) = .ok ((elements, ellipsis), tok .rbracket :: rest) := by
  rw [bounded_apply]
  rcases elements with _ | ⟨e, es⟩
  · cases ellipsis with
    | none =>
      show parseArrayElements (parsers n) (_ + 1) true (tok .rbracket :: rest) = _
      rw [parseArrayElements, currentToken_bind, current_cons, tok_kind, if_pos rfl]
      rfl
    | some e =>
      have he := hx e rfl
      simp only [Expr.ellipsisTokens, List.nil_append, commaList, List.map_nil, List.flatten_nil,
        List.append_nil, List.append_assoc, List.singleton_append, List.length_cons,
        List.length_append] at hn ⊢
      rw [parseArrayElements, currentToken_bind, if_neg (he.current_ne _ .rbracket),
        commaUnlessFirst, pure_bind,
        bind_of_ok (he _ (endsExpr_of_kind (t := tok .ellipsis) rfl) n
          (by simp only [List.length_cons, List.length_append]; omega)),
        currentToken_bind, current_cons, tok_kind, if_pos rfl, bind_of_ok (expectCurrent_tok _ _)]
      rfl
  · have he' := he e (.head _)
    have hlen : (es.map Expr.tokens ++ Expr.ellipsisTokens ellipsis).length ≤
        ((es.map Expr.tokens ++ Expr.ellipsisTokens ellipsis).map
          (tok .comma :: ·)).flatten.length :=
      length_le_flatten fun _ _ => List.cons_ne_nil _ _
    simp only [List.length_append, List.length_map] at hlen
    have htail : ∀ P : List Token → Prop, (∀ ts, P (tok .comma :: ts)) →
        P (tok .rbracket :: rest) →
        P (((es.map Expr.tokens ++ Expr.ellipsisTokens ellipsis).map (tok .comma :: ·)).flatten ++
          tok .rbracket :: rest) := fun P hc hr => sepTail_of hc id _ hr _
    simp only [List.map_cons, List.cons_append, commaList, List.append_assoc, List.length_append]
      at hn ⊢
    rw [parseArrayElements, currentToken_bind, if_neg (he'.current_ne _ .rbracket),
      commaUnlessFirst, pure_bind,
      bind_of_ok (he' _ (htail EndsExpr (fun _ => endsExpr_of_kind rfl) (endsExpr_of_kind rfl)) n
        (by simp only [List.length_append]; omega)),
      currentToken_bind, if_neg (htail (fun ts => (current ts).kind ≠ .ellipsis)
        (fun _ => by exact (by decide : TokenKind.comma ≠ .ellipsis))
        (by exact (by decide : TokenKind.rbracket ≠ .ellipsis))),
      bind_of_ok (parseArrayElements_tail hx rest n es _ (fun e h => he e (.tail _ h))
        (by simp only [List.length_cons, List.length_append]; omega)
        (by simp only [List.length_append]; omega))]
    rfl

/-- `(:T)[e₁, …, eₙ]` or `(:T)[e₁, …, eₙ...]`, `T` an array type. -/
theorem Expr.Reads.array {t : Typespec} {elements : List Expr} {ellipsis : Option Expr}
    (hk : t.isArray) (ht : t.Reads) (he : ∀ e ∈ elements, ReadsExpr e.tokens e)
    (hx : ∀ e ∈ ellipsis, ReadsExpr e.tokens e) : (Expr.array t elements ellipsis).Reads := by
  refine .of_operand (ReadsOperand.mono ?_ fun _ h => h.1)
  simp only [Expr.tokens, typeTokens, Expr.tokensEach_eq, List.cons_append, List.append_assoc,
    List.nil_append]
  refine ReadsOperand.of_nud (fun _ => rfl) fun rest _ n hn => ?_
  simp only [List.cons_append, List.append_assoc, List.nil_append, List.length_cons,
    List.length_append] at hn ⊢
  rw [parseExprLparen, bind_of_ok (expectCurrent_tok _ _), currentToken_bind, current_cons,
    tok_kind, if_neg (not_not.2 rfl), bind_of_ok (expectCurrent_tok _ _),
    bind_of_ok (ht _ (ends_of_kind (t := tok .rparen) rfl) n
      (by simp only [List.length_cons, List.length_append]; omega)),
    bind_of_ok (expectCurrent_tok _ _), currentToken_bind, current_cons, tok_kind,
    if_pos ⟨rfl, hk⟩, bind_of_ok (expectCurrent_tok _ _),
    bind_of_ok (parseArrayElements_reads he hx rest n
      (by simp only [List.length_cons, List.length_append]; omega))]
  rfl

/-- `(:T){p, c}`, `T` a slice type. -/
theorem Expr.Reads.slice {t : Typespec} {pointer count : Expr} (hk : t.isSlice) (ht : t.Reads)
    (hp : ReadsExpr pointer.tokens pointer) (hc : ReadsExpr count.tokens count) :
    (Expr.slice t pointer count).Reads := by
  refine .of_operand (ReadsOperand.mono ?_ fun _ h => h.1)
  simp only [Expr.tokens, typeTokens, List.cons_append, List.append_assoc, List.nil_append]
  refine ReadsOperand.of_nud (fun _ => rfl) fun rest _ n hn => ?_
  simp only [List.cons_append, List.append_assoc, List.nil_append, List.length_cons,
    List.length_append] at hn ⊢
  rw [parseExprLparen, bind_of_ok (expectCurrent_tok _ _), currentToken_bind, current_cons,
    tok_kind, if_neg (not_not.2 rfl), bind_of_ok (expectCurrent_tok _ _),
    bind_of_ok (ht _ (ends_of_kind (t := tok .rparen) rfl) n
      (by simp only [List.length_cons, List.length_append]; omega)),
    bind_of_ok (expectCurrent_tok _ _), currentToken_bind, current_cons, tok_kind,
    if_neg (fun h => absurd h.1 (by decide)), if_pos ⟨rfl, hk⟩,
    bind_of_ok (expectCurrent_tok _ _),
    bind_of_ok (hp _ (endsExpr_of_kind (t := tok .comma) rfl) n
      (by simp only [List.length_cons, List.length_append]; omega)),
    bind_of_ok (expectCurrent_tok _ _),
    bind_of_ok (hc _ (endsExpr_of_kind (t := tok .rbrace) rfl) n
      (by simp only [List.length_cons, List.length_append]; omega)),
    bind_of_ok (expectCurrent_tok _ _)]
  rfl

theorem Typespec.isArray_of_isSlice {t : Typespec} (h : t.isSlice) : t.isArray = false := by
  cases t <;> first | rfl | cases h

/-- `(:T)[e₁, …, eₙ]`, `T` a slice type. -/
theorem Expr.Reads.arraySlice {t : Typespec} {elements : List Expr} (hk : t.isSlice)
    (ht : t.Reads) (he : ∀ e ∈ elements, ReadsExpr e.tokens e) :
    (Expr.arraySlice t elements).Reads := by
  refine .of_operand (ReadsOperand.mono ?_ fun _ h => h.1)
  simp only [Expr.tokens, typeTokens, Expr.tokensEach_eq, List.cons_append, List.append_assoc,
    List.nil_append]
  refine ReadsOperand.of_nud (fun _ => rfl) fun rest _ n hn => ?_
  simp only [List.cons_append, List.append_assoc, List.nil_append, List.length_cons,
    List.length_append] at hn ⊢
  have helements := untilKindSep_reads (f := parseExpr (parsers n)) (k := .rbracket) (L := n - 1)
    (readsEach_expr he (Nat.sub_lt (by omega) Nat.one_pos))
    (fun e h => List.append_nil e.tokens ▸ (he e h).current_ne [] .rbracket)
    (fun _ => endsExpr_of_kind (t := tok .comma) rfl) (by decide)
    (endsExpr_of_kind rfl : EndsExpr (tok .rbracket :: rest)) rfl
    (by simp only [List.length_append, List.length_cons]; omega)
  rw [parseExprLparen, bind_of_ok (expectCurrent_tok _ _), currentToken_bind, current_cons,
    tok_kind, if_neg (not_not.2 rfl), bind_of_ok (expectCurrent_tok _ _),
    bind_of_ok (ht _ (ends_of_kind (t := tok .rparen) rfl) n
      (by simp only [List.length_cons, List.length_append]; omega)),
    bind_of_ok (expectCurrent_tok _ _), currentToken_bind, current_cons, tok_kind,
    if_neg (fun h => absurd h.2 (by rw [Typespec.isArray_of_isSlice hk]; decide)),
    if_neg (fun h => absurd h.1 (by decide)), if_pos ⟨rfl, hk⟩,
    bind_of_ok (expectCurrent_tok _ _), bind_of_ok helements, bind_of_ok (expectCurrent_tok _ _)]
  rfl

/-- The initializers `.m₁ = e₁, …` of a struct literal, up to `}`. -/
theorem parseMemberInitializerList_reads {initializers : List (String × Expr)}
    (h : ∀ x ∈ initializers, ReadsExpr x.2.tokens x.2) (rest : List Token) (n : Nat)
    (hn : (commaList (tok .comma) (Expr.initializersTokens initializers) ++
      tok .rbrace :: rest).length < n) :
    parseMemberInitializerList (parsers n) (commaList (tok .comma)
      (Expr.initializersTokens initializers) ++ tok .rbrace :: rest) =
        .ok (initializers, tok .rbrace :: rest) := by
  rw [Expr.initializersTokens_eq] at hn ⊢
  rcases initializers with _ | ⟨x, xs⟩
  · show parseMemberInitializerList (parsers n) (tok .rbrace :: rest) = _
    rw [parseMemberInitializerList, currentToken_bind, current_cons, tok_kind, if_neg (by decide)]
    rfl
  have hdot : (current (commaList (tok .comma) ((x :: xs).map fun x =>
      tok .dot :: identTok x.1 :: tok .assign :: x.2.tokens) ++ tok .rbrace :: rest)).kind =
        .dot := by
    rw [List.map_cons, current_commaList_append (List.cons_ne_nil _ _)]
    rfl
  rw [parseMemberInitializerList, currentToken_bind, if_pos hdot]
  refine sepByComma_reads ⟨fun _ _ => List.cons_ne_nil _ _, fun y hy ts hts hlen => ?_⟩
    (List.cons_ne_nil _ _) (fun _ => endsExpr_of_kind (t := tok .comma) rfl)
    (endsExpr_of_kind (t := tok .rbrace) rfl) (by exact (by decide : TokenKind.rbrace ≠ .comma))
    (Nat.le_of_lt hn)
  simp only [List.cons_append, List.length_cons, List.length_append] at hlen ⊢
  rw [parseMemberInitializer, bind_of_ok (expectCurrent_tok _ _),
    bind_of_ok (parseIdentifier_cons rfl), bind_of_ok (expectCurrent_tok _ _),
    bind_of_ok (h y hy ts hts n (by simp only [List.length_append]; omega))]
  rfl

/-- `(:T){.m₁ = e₁, …}`, `T` no slice type. -/
theorem Expr.Reads.struct_ {t : Typespec} {initializers : List (String × Expr)}
    (hk : t.isSlice = false) (ht : t.Reads)
    (hi : ∀ x ∈ initializers, ReadsExpr x.2.tokens x.2) :
    (Expr.struct_ t initializers).Reads := by
  refine .of_operand (ReadsOperand.mono ?_ fun _ h => h.1)
  simp only [Expr.tokens, typeTokens, List.cons_append, List.append_assoc, List.nil_append]
  refine ReadsOperand.of_nud (fun _ => rfl) fun rest _ n hn => ?_
  simp only [List.cons_append, List.append_assoc, List.nil_append, List.length_cons,
    List.length_append] at hn ⊢
  rw [parseExprLparen, bind_of_ok (expectCurrent_tok _ _), currentToken_bind, current_cons,
    tok_kind, if_neg (not_not.2 rfl), bind_of_ok (expectCurrent_tok _ _),
    bind_of_ok (ht _ (ends_of_kind (t := tok .rparen) rfl) n
      (by simp only [List.length_cons, List.length_append]; omega)),
    bind_of_ok (expectCurrent_tok _ _), currentToken_bind, current_cons, tok_kind,
    if_neg (fun h => absurd h.1 (by decide)), if_neg (fun h => absurd h.2 (by rw [hk]; decide)),
    if_neg (fun h => absurd h.1 (by decide)), if_pos ⟨rfl, hk⟩,
    bind_of_ok (expectCurrent_tok _ _),
    bind_of_ok (parseMemberInitializerList_reads hi rest n
      (by simp only [List.length_cons, List.length_append]; omega)),
    bind_of_ok (expectCurrent_tok _ _)]
  rfl

end Exprs

/-! ## Well-formed trees are read back -/

theorem sizeOf_lt_of_mem_option {α : Type} [SizeOf α] {a : α} {o : Option α} (h : a ∈ o) :
    sizeOf a < sizeOf o := by
  cases h
  show sizeOf a < 1 + sizeOf a
  omega

theorem sizeOf_snd_lt_of_mem {α β : Type} [SizeOf α] [SizeOf β] {x : α × β}
    {l : List (α × β)}
    (h : x ∈ l) : sizeOf x.2 < sizeOf l := by
  have := List.sizeOf_lt_of_mem h
  obtain ⟨a, b⟩ := x
  show sizeOf b < sizeOf l
  have : sizeOf (a, b) = 1 + sizeOf a + sizeOf b := rfl
  omega

mutual

theorem SymbolElement.WellFormed.reads : ∀ {x : SymbolElement}, x.WellFormed → x.Reads
  | _, .mk h => .mk fun t ht => Typespec.WellFormed.reads (h t ht)
termination_by x _ => sizeOf x

theorem Typespec.WellFormed.reads : ∀ {t : Typespec}, t.WellFormed → t.Reads
  | _, .symbol hne h => .symbol hne fun x hx => SymbolElement.WellFormed.reads (h x hx)
  | _, .function hp hr =>
    .function (fun t ht => Typespec.WellFormed.reads (hp t ht)) (Typespec.WellFormed.reads hr)
  | _, .pointer h => .pointer (Typespec.WellFormed.reads h)
  | _, .array hc hb =>
    .array ((Expr.WellFormed.reads hc).readsExpr hc.binding_pos) (Typespec.WellFormed.reads hb)
  | _, .slice h => .slice (Typespec.WellFormed.reads h)
  | _, .typeof h => .typeof ((Expr.WellFormed.reads h).readsExpr h.binding_pos)
termination_by t _ => sizeOf t

theorem Expr.WellFormed.reads : ∀ {e : Expr}, e.WellFormed → e.Reads
  | _, .symbol hne h => .symbol hne fun x hx => SymbolElement.WellFormed.reads (h x hx)
  | _, .boolean b => .boolean b
  | _, .integer value suffix => .integer value suffix
  | _, .character c => .character c
  | _, .bytes s => .bytes s
  | _, .array hk ht he hx => .array hk (Typespec.WellFormed.reads ht)
      (fun e h => (Expr.WellFormed.reads (he e h)).readsExpr (he e h).binding_pos)
      (fun e h => (Expr.WellFormed.reads (hx e h)).readsExpr (hx e h).binding_pos)
  | _, .slice hk ht hp hc => .slice hk (Typespec.WellFormed.reads ht)
      ((Expr.WellFormed.reads hp).readsExpr hp.binding_pos)
      ((Expr.WellFormed.reads hc).readsExpr hc.binding_pos)
  | _, .arraySlice hk ht he => .arraySlice hk (Typespec.WellFormed.reads ht)
      (fun e h => (Expr.WellFormed.reads (he e h)).readsExpr (he e h).binding_pos)
  | _, .struct_ hk ht hi => .struct_ hk (Typespec.WellFormed.reads ht)
      (fun x h => (Expr.WellFormed.reads (hi x h)).readsExpr (hi x h).binding_pos)
  | _, .cast ht he hb => .cast (Typespec.WellFormed.reads ht) (Expr.WellFormed.reads he) hb
  | _, .grouped he => .grouped ((Expr.WellFormed.reads he).readsExpr he.binding_pos)
  | _, .syscall hne h => .syscall hne
      (fun e he => (Expr.WellFormed.reads (h e he)).readsExpr (h e he).binding_pos)
  | _, .call hf hb h => .call (Expr.WellFormed.reads hf) hb
      (fun e he => (Expr.WellFormed.reads (h e he)).readsExpr (h e he).binding_pos)
  | _, .accessIndex hl hb hi => .accessIndex (Expr.WellFormed.reads hl) hb
      ((Expr.WellFormed.reads hi).readsExpr hi.binding_pos)
  | _, .accessSlice hl hb hbegin hend => .accessSlice (Expr.WellFormed.reads hl) hb
      ((Expr.WellFormed.reads hbegin).readsExpr hbegin.binding_pos)
      ((Expr.WellFormed.reads hend).readsExpr hend.binding_pos)
  | _, .accessMember hl hb => .accessMember (Expr.WellFormed.reads hl) hb
  | _, .accessDereference hl hb => .accessDereference (Expr.WellFormed.reads hl) hb
  | _, .sizeof ht => .sizeof (Typespec.WellFormed.reads ht)
  | _, .alignof ht => .alignof (Typespec.WellFormed.reads ht)
  | _, .unary hop h hb => .unary hop (Expr.WellFormed.reads h) hb
  | _, .binary hop hl hr hlb hrb =>
    .binary hop (Expr.WellFormed.reads hl) (Expr.WellFormed.reads hr) hlb hrb
termination_by e _ => sizeOf e
decreasing_by
  all_goals simp_wf
  all_goals first
    | omega
    | (have h := List.sizeOf_lt_of_mem ‹_›; omega)
    | (have h := sizeOf_lt_of_mem_option ‹_›; omega)
    | (have h := sizeOf_snd_lt_of_mem ‹_›; omega)

end

/-- `parse_expr` reads the tokens of a well-formed expression back as the expression. -/
theorem Expr.WellFormed.readsExpr {e : Expr} (h : e.WellFormed) : ReadsExpr e.tokens e :=
  h.reads.readsExpr h.binding_pos

end Sunder.Parse
