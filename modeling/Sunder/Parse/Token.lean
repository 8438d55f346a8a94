import Mathlib
/-!
# Tokens, the parser's primitives and its loops

`src/parse.c` reads the stream of `lexer_next_token` through `parser->current_token` and
`parser->peek_token`. The stream is modelled as the list of the tokens not yet consumed: the
current token is its head and, once the list is exhausted, `EOF`, which the lexer returns for
ever after the end of the input. A parse function (`Parser`) reads from that list and returns what
is left, or fails with the diagnostic `fatal` reports (`ParseError`). `check_current(parser,
kind)` is `(← currentToken).kind = kind`.

The loops of the parser are `untilKind`, `whileKind` and `untilKindSep`. The model bounds each by
the number of tokens left plus one (`bounded`): `src/parse.c` has no such bound, and
`Sunder/Parse/Progress.lean` shows that it is never reached.

* `Progress ts r`, `Steady ts r`: the result `r` of a parse function run on `ts` is a diagnostic,
  or what is left after consuming at least one token (`Progress`), or no more than `ts`
  (`Steady`). They compose through `>>=` (`Stops.bind`).
* `untilKind_steady`, `whileKind_steady`, `untilKindSep_steady`, `sepByComma_progress`: a loop
  whose body consumes a token every round stops within its bound.
-/

namespace Sunder.Parse

/-- `enum token_kind`: the kinds `src/parse.c` tests. -/
inductive TokenKind where
  | true_ | false_ | not | or | and | namespace_ | import_ | var | const | func | struct_
  | extend | alias | extern_ | if_ | elif | else_ | for_ | in_ | break_ | continue_ | dump
  | return_ | syscall | sizeof | alignof | typeof | countof
  | eq | ne | le | lt | ge | gt | plus | dash | star | fslash | pipe | caret | ampersand | tilde
  | assign | colon | colonColon | semicolon | comma | ellipsis | dot | dotStar
  | lparen | rparen | lbrace | rbrace | lbracket | rbracket | lbracketLbracket | rbracketRbracket
  | identifier | integer | character | bytes
  | eof
  deriving DecidableEq, Repr

/-- `struct token`: its kind, its text (`token->start`, `token->count`: an identifier's name),
and what the lexer read for a literal (`token->data`): the value of an integer's digits and its
suffix, a character, the bytes of a string. -/
structure Token where
  kind : TokenKind
  text : String := ""
  number : Nat := 0
  suffix : String := ""
  character : Int := 0
  bytes : List UInt8 := []

/-- The token `lexer_next_token` returns at the end of the input and for ever after. -/
def eofToken : Token := { kind := .eof }

/-- The diagnostics of `fatal` in `src/parse.c`, with the token its message shows. -/
inductive ParseError where
  /-- "expected `kind`, found `token`" (`expect_current`). -/
  | expected (kind : TokenKind) (found : Token)
  /-- "unrecognized prefix token `kind` in expression" (`parse_expr_precedence`). -/
  | unrecognizedPrefix (kind : TokenKind)
  /-- "expected declaration, found `token`" (`parse_decl`). -/
  | expectedDeclaration (found : Token)
  /-- "expected member variable or member function, found `token`" (`parse_member`). -/
  | expectedMember (found : Token)
  /-- "expected type specifier, found `token`" (`parse_typespec`). -/
  | expectedTypespec (found : Token)
  /-- "template parameter list declared with zero parameters". -/
  | zeroTemplateParameters
  /-- "template argument list declared with zero arguments". -/
  | zeroTemplateArguments
  /-- The `assert` on entry to a parse function fails: an internal error, not a diagnostic. -/
  | assertion (condition : String)
  /-- The model's bound on nested calls or on the rounds of a loop is reached. -/
  | fuel

/-- A parse function: it reads from the tokens not yet consumed and returns what is left. -/
abbrev Parser := StateT (List Token) (Except ParseError)

/-- `parser->current_token`. -/
def current (ts : List Token) : Token := ts.headD eofToken

/-- `parser->current_token`, read inside a parse function. -/
def currentToken : Parser Token := do return current (← get)

/-- `parser->peek_token`. -/
def peekToken : Parser Token := do return current (← get).tail

/-- `advance_token`: the current token, which the stream moves past. At the end of the input
nothing moves. -/
def advanceToken : Parser Token := modifyGet fun ts => (current ts, ts.tail)

/-- `expect_current`: the current token if it has the kind, which the stream moves past;
"expected `kind`, found `token`" otherwise. -/
def expectCurrent (kind : TokenKind) : Parser Token := do
  let token ← currentToken
  if token.kind = kind then advanceToken else throw (.expected kind token)

/-- `assert(check_current(parser, kind))` on entry to a parse function. -/
def assertCurrent (kind : TokenKind) (condition : String) : Parser Unit := do
  if (← currentToken).kind ≠ kind then throw (.assertion condition)

/-! ## Loops -/

/-- `while (!check_current(parser, kind)) sbuf_push(xs, f(parser));`, at most `bound` rounds. -/
def untilKind {α : Type} (kind : TokenKind) (f : Parser α) : Nat → Parser (List α)
  | 0 => throw .fuel
  | bound + 1 => do
    if (← currentToken).kind = kind then pure []
    else
      let x ← f
      let xs ← untilKind kind f bound
      pure (x :: xs)

/-- `while (check_current(parser, kind)) sbuf_push(xs, f(parser));`, at most `bound` rounds. -/
def whileKind {α : Type} (kind : TokenKind) (f : Parser α) : Nat → Parser (List α)
  | 0 => throw .fuel
  | bound + 1 => do
    if (← currentToken).kind = kind then
      let x ← f
      let xs ← whileKind kind f bound
      pure (x :: xs)
    else pure []

/-- `if (sbuf_count(xs) != 0) expect_current(parser, TOKEN_COMMA);`, `first` while `xs` is
empty. -/
def commaUnlessFirst : Bool → Parser Unit
  | true => pure ()
  | false => do let _ ← expectCurrent .comma

/-- `while (!check_current(parser, kind)) { if (sbuf_count(xs) != 0)
expect_current(parser, TOKEN_COMMA); sbuf_push(xs, f(parser)); }`, at most `bound` rounds;
`first` while nothing is pushed. -/
def untilKindSep {α : Type} (kind : TokenKind) (f : Parser α) : Nat → Bool → Parser (List α)
  | 0, _ => throw .fuel
  | bound + 1, first => do
    if (← currentToken).kind = kind then pure []
    else
      commaUnlessFirst first
      let x ← f
      let xs ← untilKindSep kind f bound false
      pure (x :: xs)

/-- A loop of the parser, given one round per token left and one more. -/
def bounded {α : Type} (loop : Nat → Parser α) : Parser α := fun ts => loop (ts.length + 1) ts

/-- `sbuf_push(xs, f(parser)); while (check_current(parser, TOKEN_COMMA)) {
advance_token(parser); sbuf_push(xs, f(parser)); }`. -/
def sepByComma {α : Type} (f : Parser α) : Parser (List α) := do
  let x ← f
  let xs ← bounded (whileKind .comma (do let _ ← advanceToken; f))
  pure (x :: xs)

/-! ## Running the primitives -/

section Run
variable {α β : Type} {ts : List Token}

@[simp] theorem currentToken_apply : currentToken ts = .ok (current ts, ts) := rfl

@[simp] theorem advanceToken_apply : advanceToken ts = .ok (current ts, ts.tail) := rfl

theorem expectCurrent_apply (kind : TokenKind) : expectCurrent kind ts =
    if (current ts).kind = kind then .ok (current ts, ts.tail)
    else .error (.expected kind (current ts)) := by
  show (if (current ts).kind = kind then advanceToken else throw _) ts = _
  split_ifs <;> rfl

@[simp] theorem current_cons (t : Token) (ts : List Token) : current (t :: ts) = t := rfl

theorem expectCurrent_cons {t : Token} {kind : TokenKind} (h : t.kind = kind) :
    expectCurrent kind (t :: ts) = .ok (t, ts) := by
  rw [expectCurrent_apply]
  exact if_pos h

theorem bind_apply (x : Parser α) (f : α → Parser β) : (x >>= f) ts =
    match x ts with
    | .ok (a, ts') => f a ts'
    | .error e => .error e := by
  show Except.bind _ _ = _
  rcases x ts with e | ⟨a, ts'⟩ <;> rfl

theorem currentToken_bind (f : Token → Parser β) : (currentToken >>= f) ts = f (current ts) ts :=
  rfl

theorem peekToken_bind (f : Token → Parser β) : (peekToken >>= f) ts = f (current ts.tail) ts :=
  rfl

theorem advanceToken_bind (f : Token → Parser β) :
    (advanceToken >>= f) ts = f (current ts) ts.tail :=
  rfl

theorem bind_of_ok {x : Parser α} {f : α → Parser β} {ts' : List Token} {a : α}
    (h : x ts = .ok (a, ts')) : (x >>= f) ts = f a ts' := by
  rw [bind_apply, h]

@[simp] theorem pure_apply (a : α) : (pure a : Parser α) ts = .ok (a, ts) := rfl

@[simp] theorem throw_apply (e : ParseError) : (throw e : Parser α) ts = .error e := rfl

theorem length_tail_le (ts : List Token) : ts.tail.length ≤ ts.length := by
  cases ts <;> simp

theorem current_kind_ne_eof {ts : List Token} (h : (current ts).kind ≠ .eof) :
    ts.tail.length < ts.length := by
  cases ts with
  | nil => exact absurd rfl h
  | cons t ts => simp

end Run

/-! ## Progress -/

/-- The result `r` of a parse function run on `ts` is an error other than running out of fuel,
or what is left of `ts` stands in `R` to `ts` by length. -/
def Stops {α : Type} (R : Nat → Nat → Prop) (ts : List Token)
    (r : Except ParseError (α × List Token)) : Prop :=
  match r with
  | .ok (_, ts') => R ts'.length ts.length
  | .error e => e ≠ .fuel

/-- A diagnostic, or at least one token consumed. -/
abbrev Progress {α : Type} (ts : List Token) (r : Except ParseError (α × List Token)) : Prop :=
  Stops (· < ·) ts r

/-- A diagnostic, or the input not grown. -/
abbrev Steady {α : Type} (ts : List Token) (r : Except ParseError (α × List Token)) : Prop :=
  Stops (· ≤ ·) ts r

section Stops
variable {α β : Type} {R S T : Nat → Nat → Prop} {ts : List Token}

@[simp] theorem stops_ok {a : α} {ts' : List Token} : Stops R ts (.ok (a, ts')) ↔ R ts'.length ts.length :=
  Iff.rfl

@[simp] theorem stops_error {e : ParseError} : Stops (α := α) R ts (.error e) ↔ e ≠ .fuel :=
  Iff.rfl

theorem Stops.mono (hR : ∀ {a b}, R a b → S a b) {r : Except ParseError (α × List Token)}
    (h : Stops R ts r) : Stops S ts r := by
  rcases r with e | ⟨a, ts'⟩
  · exact h
  · exact hR h

theorem Progress.steady {r : Except ParseError (α × List Token)} (h : Progress ts r) :
    Steady ts r :=
  h.mono Nat.le_of_lt

/-- Progress from a shorter input is progress from a longer one. -/
theorem Progress.of_le {ts' : List Token} {r : Except ParseError (α × List Token)}
    (h : Progress ts' r) (hl : ts'.length ≤ ts.length) : Progress ts r := by
  rcases r with e | ⟨a, ts''⟩
  · exact h
  · exact Nat.lt_of_lt_of_le h hl

/-- A run of `x` and then of `f` stops as the two runs do, the length relations composed. -/
theorem Stops.bind (hT : ∀ a b c, S a b → R b c → T a c) {x : Parser α} {f : α → Parser β}
    (hx : Stops R ts (x ts))
    (hf : ∀ a ts', x ts = .ok (a, ts') → R ts'.length ts.length → Stops S ts' (f a ts')) :
    Stops T ts ((x >>= f) ts) := by
  rw [bind_apply]
  rcases h : x ts with e | ⟨a, ts'⟩
  · rw [h] at hx; exact hx
  · rw [h] at hx
    show Stops T ts (f a ts')
    have hs := hf a ts' h hx
    rcases hr : f a ts' with e' | ⟨b, ts''⟩
    · rw [hr] at hs; exact hs
    · rw [hr] at hs; exact hT _ _ _ hs hx

theorem Progress.bind {x : Parser α} {f : α → Parser β} (hx : Progress ts (x ts))
    (hf : ∀ a ts', ts'.length < ts.length → Steady ts' (f a ts')) :
    Progress ts ((x >>= f) ts) :=
  @Stops.bind α β (· < ·) (· ≤ ·) (· < ·) ts (fun _ _ _ => Nat.lt_of_le_of_lt) x f hx
    fun a ts' _ => hf a ts'

theorem Steady.bind_progress {x : Parser α} {f : α → Parser β} (hx : Steady ts (x ts))
    (hf : ∀ a ts', ts'.length ≤ ts.length → Progress ts' (f a ts')) :
    Progress ts ((x >>= f) ts) :=
  @Stops.bind α β (· ≤ ·) (· < ·) (· < ·) ts (fun _ _ _ => Nat.lt_of_lt_of_le) x f hx
    fun a ts' _ => hf a ts'

theorem Steady.bind {x : Parser α} {f : α → Parser β} (hx : Steady ts (x ts))
    (hf : ∀ a ts', ts'.length ≤ ts.length → Steady ts' (f a ts')) :
    Steady ts ((x >>= f) ts) :=
  @Stops.bind α β (· ≤ ·) (· ≤ ·) (· ≤ ·) ts (fun _ _ _ => Nat.le_trans) x f hx
    fun a ts' _ => hf a ts'

/-- A conditional stops as both its branches do. -/
theorem Stops.ite {c : Prop} [Decidable c] {x y : Parser α} {ts' : List Token}
    (hx : c → Stops R ts (x ts')) (hy : ¬c → Stops R ts (y ts')) :
    Stops R ts ((if c then x else y) ts') := by
  split_ifs with h
  exacts [hx h, hy h]

theorem pure_steady (a : α) : Steady ts ((pure a : Parser α) ts) := Nat.le_refl _

theorem throw_stops {e : ParseError} (he : e ≠ .fuel) : Stops R ts ((throw e : Parser α) ts) := he

theorem currentToken_steady : Steady ts (currentToken ts) := Nat.le_refl _

theorem advanceToken_steady : Steady ts (advanceToken ts) := length_tail_le ts

theorem advanceToken_progress (h : (current ts).kind ≠ .eof) : Progress ts (advanceToken ts) :=
  current_kind_ne_eof h

/-- `expect_current` of a kind other than `EOF` consumes the token it finds or fails. -/
theorem expectCurrent_progress {kind : TokenKind} (hk : kind ≠ .eof) :
    Progress ts (expectCurrent kind ts) := by
  rw [expectCurrent_apply]
  split_ifs with h
  · exact current_kind_ne_eof (h ▸ hk)
  · exact ParseError.noConfusion

theorem expectCurrent_steady (kind : TokenKind) : Steady ts (expectCurrent kind ts) := by
  rw [expectCurrent_apply]
  split_ifs
  · exact length_tail_le ts
  · exact ParseError.noConfusion

theorem assertCurrent_steady (kind : TokenKind) (condition : String) :
    Steady ts (assertCurrent kind condition ts) := by
  show Steady ts ((if (current ts).kind ≠ kind then (throw (.assertion condition) : Parser Unit)
    else pure ()) ts)
  split_ifs
  · exact ParseError.noConfusion
  · exact Nat.le_refl _

end Stops

/-! ## The loops stop within their bounds -/

section Loops
variable {α : Type} {kind : TokenKind} {f : Parser α}

theorem untilKind_succ (bound : Nat) (ts : List Token) : untilKind kind f (bound + 1) ts =
    if (current ts).kind = kind then .ok ([], ts)
    else (do let x ← f; let xs ← untilKind kind f bound; pure (x :: xs)) ts := by
  show (if (current ts).kind = kind then (pure [] : Parser (List α)) else _) ts = _
  split_ifs <;> rfl

theorem whileKind_succ (bound : Nat) (ts : List Token) : whileKind kind f (bound + 1) ts =
    if (current ts).kind = kind then
      (do let x ← f; let xs ← whileKind kind f bound; pure (x :: xs)) ts
    else .ok ([], ts) := by
  show (if (current ts).kind = kind then _ else (pure [] : Parser (List α))) ts = _
  split_ifs <;> rfl

/-- A loop `while (!check_current(parser, kind))` whose body consumes a token or fails stops
within any bound above the number of tokens left. -/
theorem untilKind_steady :
    ∀ (bound : Nat) (ts : List Token), ts.length < bound →
      (∀ ts', ts'.length ≤ ts.length → Progress ts' (f ts')) →
      Steady ts (untilKind kind f bound ts)
  | 0, _, h, _ => absurd h (Nat.not_lt_zero _)
  | bound + 1, ts, hb, hf => by
    rw [untilKind_succ]
    split_ifs
    · exact Nat.le_refl _
    · refine (Progress.bind (hf ts (Nat.le_refl _)) fun _ ts₁ h₁ => ?_).steady
      refine Steady.bind (untilKind_steady bound ts₁ (by omega)
        fun ts' h' => hf ts' (by omega)) fun _ _ _ => pure_steady _

/-- A loop `while (check_current(parser, kind))` whose body consumes a token or fails whenever
it runs stops within any bound above the number of tokens left. -/
theorem whileKind_steady :
    ∀ (bound : Nat) (ts : List Token), ts.length < bound →
      (∀ ts', ts'.length ≤ ts.length → (current ts').kind = kind → Progress ts' (f ts')) →
      Steady ts (whileKind kind f bound ts)
  | 0, _, h, _ => absurd h (Nat.not_lt_zero _)
  | bound + 1, ts, hb, hf => by
    rw [whileKind_succ]
    split_ifs with hk
    · refine (Progress.bind (hf ts (Nat.le_refl _) hk) fun _ ts₁ h₁ => ?_).steady
      refine Steady.bind (whileKind_steady bound ts₁ (by omega)
        fun ts' h' => hf ts' (by omega)) fun _ _ _ => pure_steady _
    · exact Nat.le_refl _

theorem untilKindSep_succ (bound : Nat) (first : Bool) (ts : List Token) :
    untilKindSep kind f (bound + 1) first ts =
      if (current ts).kind = kind then .ok ([], ts)
      else (do
        commaUnlessFirst first
        let x ← f
        let xs ← untilKindSep kind f bound false
        pure (x :: xs)) ts := by
  show (if (current ts).kind = kind then (pure [] : Parser (List α)) else _) ts = _
  split_ifs <;> rfl

theorem commaUnlessFirst_steady (first : Bool) (ts : List Token) :
    Steady ts (commaUnlessFirst first ts) := by
  cases first
  · exact Steady.bind (expectCurrent_steady _) fun _ _ _ => pure_steady _
  · exact pure_steady _

/-- The loop `while (!check_current(parser, kind))` with a comma before every element but the
first stops within any bound above the number of tokens left. -/
theorem untilKindSep_steady :
    ∀ (bound : Nat) (ts : List Token) (first : Bool), ts.length < bound →
      (∀ ts', ts'.length ≤ ts.length → Progress ts' (f ts')) →
      Steady ts (untilKindSep kind f bound first ts)
  | 0, _, _, h, _ => absurd h (Nat.not_lt_zero _)
  | bound + 1, ts, first, hb, hf => by
    rw [untilKindSep_succ]
    split_ifs
    · exact Nat.le_refl _
    · refine (Steady.bind_progress (commaUnlessFirst_steady first ts) fun _ ts₁ h₁ =>
        Progress.bind (hf ts₁ h₁) fun _ ts₂ h₂ => ?_).steady
      exact Steady.bind (untilKindSep_steady bound ts₂ false (by omega)
        fun ts' h' => hf ts' (by omega)) fun _ _ _ => pure_steady _

theorem bounded_apply (loop : Nat → Parser α) (ts : List Token) :
    bounded loop ts = loop (ts.length + 1) ts := rfl

/-- A comma-separated list, its elements consuming a token or failing, does so too. -/
theorem sepByComma_progress {ts : List Token}
    (hf : ∀ ts', ts'.length ≤ ts.length → Progress ts' (f ts')) :
    Progress ts (sepByComma f ts) := by
  refine Progress.bind (hf ts (Nat.le_refl _)) fun _ ts₁ h₁ => ?_
  refine Steady.bind (whileKind_steady _ ts₁ (Nat.lt_succ_self _) fun ts' h' hk => ?_)
    fun _ _ _ => pure_steady _
  exact Progress.bind (advanceToken_progress (by rw [hk]; decide)) fun _ ts₂ h₂ =>
    (hf ts₂ (by omega)).steady

end Loops

end Sunder.Parse
