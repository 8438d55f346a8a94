import Sunder.Parse.Tree
/-!
# Expressions and type specifiers

`parse_expr_precedence` is a Pratt parser. The null denotation of the current token
(`token_kind_nud`) parses an operand; then, while the current token binds tighter than the level
asked for (`token_kind_precedence`), its left denotation (`token_kind_led`) extends the
expression. A binary operator parses its right operand at its own level, a prefix operator and a
cast parse theirs at `PRECEDENCE_PREFIX`.

The parse functions reach the ones they recurse through by `Parsers`: `parse_expr_precedence`,
the next round of its loop, `parse_typespec`, `parse_block` and `parse_decl`, each with one nested
call fewer left (`parsers`, `Sunder/Parse/Decl.lean`).
-/

namespace Sunder.Parse

/-- `enum precedence`, from the loosest binding to the tightest. -/
inductive Precedence where
  | lowest | or | and | compare | sum | product | prefix_ | postfix_
  deriving DecidableEq, Repr

/-- The value of the enumerator, which `parse_expr_precedence` compares. -/
def Precedence.rank : Precedence → Nat
  | .lowest => 0 | .or => 1 | .and => 2 | .compare => 3 | .sum => 4 | .product => 5
  | .prefix_ => 6 | .postfix_ => 7

/-- `token_kind_precedence`. -/
def tokenKindPrecedence : TokenKind → Precedence
  | .or => .or
  | .and => .and
  | .eq | .ne | .le | .lt | .ge | .gt => .compare
  | .plus | .dash | .pipe | .caret => .sum
  | .star | .fslash | .ampersand => .product
  | .lparen | .lbracket | .dotStar | .dot => .postfix_
  | _ => .lowest

/-- The parse functions through which `src/parse.c` recurses, each with one nested call fewer
left; `exprLoop` is the next round of the loop of `parse_expr_precedence`. -/
structure Parsers where
  exprPrecedence : Precedence → Parser Expr
  exprLoop : Precedence → Expr → Parser Expr
  typespec : Parser Typespec
  block : Parser (List Stmt)
  decl : Parser Decl

/-- `parse_expr`. -/
def parseExpr (p : Parsers) : Parser Expr := p.exprPrecedence .lowest

/-! ## Symbols -/

/-- `parse_identifier`. -/
def parseIdentifier : Parser String := do
  let token ← expectCurrent .identifier
  pure token.text

/-- `parse_template_argument`. -/
def parseTemplateArgument (p : Parsers) : Parser Typespec := p.typespec

/-- `parse_template_argument_list`. -/
def parseTemplateArgumentList (p : Parsers) : Parser (List Typespec) := do
  let _ ← expectCurrent .lbracketLbracket
  if (← currentToken).kind = .rbracketRbracket then throw .zeroTemplateArguments
  else
    let templateArguments ← sepByComma (parseTemplateArgument p)
    let _ ← expectCurrent .rbracketRbracket
    pure templateArguments

/-- `parse_symbol_element`. -/
def parseSymbolElement (p : Parsers) : Parser SymbolElement := do
  let identifier ← parseIdentifier
  let templateArguments ←
    (if (← currentToken).kind = .lbracketLbracket then parseTemplateArgumentList p else pure [])
  pure (.mk identifier templateArguments)

/-- `parse_symbol`: whether the symbol starts with `::`, and its elements. -/
def parseSymbol (p : Parsers) : Parser (Bool × List SymbolElement) := do
  let isFromRoot ← (if (← currentToken).kind = .colonColon then do
      let _ ← expectCurrent .colonColon
      pure true
    else pure false)
  let first ← parseSymbolElement p
  let rest ← bounded (whileKind .colonColon (do
    let _ ← expectCurrent .colonColon
    parseSymbolElement p))
  pure (isFromRoot, first :: rest)

/-! ## Type specifiers -/

/-- `parse_typespec_symbol`. -/
def parseTypespecSymbol (p : Parsers) : Parser Typespec := do
  let (isFromRoot, elements) ← parseSymbol p
  pure (.symbol isFromRoot elements)

/-- `parse_typespec_function`. -/
def parseTypespecFunction (p : Parsers) : Parser Typespec := do
  assertCurrent .func "check_current(parser, TOKEN_FUNC)"
  let _ ← expectCurrent .func
  let _ ← expectCurrent .lparen
  let parameterTypespecs ←
    (if (← currentToken).kind = .rparen then pure [] else sepByComma p.typespec)
  let _ ← expectCurrent .rparen
  let returnTypespec ← p.typespec
  pure (.function parameterTypespecs returnTypespec)

/-- `parse_typespec_pointer`. -/
def parseTypespecPointer (p : Parsers) : Parser Typespec := do
  assertCurrent .star "check_current(parser, TOKEN_STAR)"
  let _ ← expectCurrent .star
  let base ← p.typespec
  pure (.pointer base)

/-- `parse_typespec_array_or_slice`. -/
def parseTypespecArrayOrSlice (p : Parsers) : Parser Typespec := do
  assertCurrent .lbracket "check_current(parser, TOKEN_LBRACKET)"
  let _ ← expectCurrent .lbracket
  if (← currentToken).kind = .rbracket then
    let _ ← expectCurrent .rbracket
    let base ← p.typespec
    pure (.slice base)
  else
    let count ← parseExpr p
    let _ ← expectCurrent .rbracket
    let base ← p.typespec
    pure (.array count base)

/-- `parse_typespec_typeof`. -/
def parseTypespecTypeof (p : Parsers) : Parser Typespec := do
  assertCurrent .typeof "check_current(parser, TOKEN_TYPEOF)"
  let _ ← expectCurrent .typeof
  let _ ← expectCurrent .lparen
  let expr ← parseExpr p
  let _ ← expectCurrent .rparen
  pure (.typeof expr)

/-- `parse_typespec`. -/
def parseTypespec (p : Parsers) : Parser Typespec := do
  let token ← currentToken
  if token.kind = .identifier ∨ token.kind = .colonColon then parseTypespecSymbol p
  else if token.kind = .func then parseTypespecFunction p
  else if token.kind = .star then parseTypespecPointer p
  else if token.kind = .lbracket then parseTypespecArrayOrSlice p
  else if token.kind = .typeof then parseTypespecTypeof p
  else throw (.expectedTypespec token)

/-! ## Null denotations -/

/-- `parse_expr_symbol`. -/
def parseExprSymbol (p : Parsers) : Parser Expr := do
  let (isFromRoot, elements) ← parseSymbol p
  pure (.symbol isFromRoot elements)

/-- `parse_boolean`. -/
def parseBoolean : Parser Bool := do
  let token ← advanceToken
  if token.kind = .true_ ∨ token.kind = .false_ then pure (token.kind == .true_)
  else throw (.assertion "token->kind == TOKEN_TRUE || token->kind == TOKEN_FALSE")

/-- `parse_expr_boolean`. -/
def parseExprBoolean : Parser Expr := do
  let b ← parseBoolean
  pure (.boolean b)

/-- `parse_integer`: the value of the digits and the suffix. -/
def parseInteger : Parser (Nat × String) := do
  let token ← expectCurrent .integer
  pure (token.number, token.suffix)

/-- `parse_expr_integer`. -/
def parseExprInteger : Parser Expr := do
  let (value, suffix) ← parseInteger
  pure (.integer value suffix)

/-- `parse_expr_character`. -/
def parseExprCharacter : Parser Expr := do
  let token ← expectCurrent .character
  pure (.character token.character)

/-- `parse_expr_bytes`. -/
def parseExprBytes : Parser Expr := do
  let token ← expectCurrent .bytes
  pure (.bytes token.bytes)

/-- `parse_member_initializer`. -/
def parseMemberInitializer (p : Parsers) : Parser (String × Expr) := do
  let _ ← expectCurrent .dot
  let identifier ← parseIdentifier
  let _ ← expectCurrent .assign
  let expr ← parseExpr p
  pure (identifier, expr)

/-- `parse_member_initializer_list`. -/
def parseMemberInitializerList (p : Parsers) : Parser (List (String × Expr)) := do
  if (← currentToken).kind = .dot then sepByComma (parseMemberInitializer p) else pure []

/-- The loop of `<expr-array>` in `parse_expr_lparen`: the elements up to `]`, separated by
commas, the last followed by `...` when it fills the rest (the `break`); at most `bound`
rounds. -/
def parseArrayElements (p : Parsers) : Nat → Bool → Parser (List Expr × Option Expr)
  | 0, _ => throw .fuel
  | bound + 1, first => do
    if (← currentToken).kind = .rbracket then pure ([], none)
    else
      commaUnlessFirst first
      let expr ← parseExpr p
      if (← currentToken).kind = .ellipsis then
        let _ ← expectCurrent .ellipsis
        pure ([], some expr)
      else
        let (elements, ellipsis) ← parseArrayElements p bound false
        pure (expr :: elements, ellipsis)

/-- `parse_expr_lparen`: a parenthesised expression, or after `(:T)` an array, slice,
array-slice or struct literal, or a cast. -/
def parseExprLparen (p : Parsers) : Parser Expr := do
  let _ ← expectCurrent .lparen
  if (← currentToken).kind ≠ .colon then
    let expr ← parseExpr p
    let _ ← expectCurrent .rparen
    pure (.grouped expr)
  else
    let _ ← expectCurrent .colon
    let typespec ← p.typespec
    let _ ← expectCurrent .rparen
    let token ← currentToken
    if token.kind = .lbracket ∧ typespec.isArray then
      let _ ← expectCurrent .lbracket
      let (elements, ellipsis) ← bounded (parseArrayElements p · true)
      let _ ← expectCurrent .rbracket
      pure (.array typespec elements ellipsis)
    else if token.kind = .lbrace ∧ typespec.isSlice then
      let _ ← expectCurrent .lbrace
      let pointer ← parseExpr p
      let _ ← expectCurrent .comma
      let count ← parseExpr p
      let _ ← expectCurrent .rbrace
      pure (.slice typespec pointer count)
    else if token.kind = .lbracket ∧ typespec.isSlice then
      let _ ← expectCurrent .lbracket
      let elements ← bounded (untilKindSep .rbracket (parseExpr p) · true)
      let _ ← expectCurrent .rbracket
      pure (.arraySlice typespec elements)
    else if token.kind = .lbrace ∧ typespec.isSlice = false then
      let _ ← expectCurrent .lbrace
      let initializers ← parseMemberInitializerList p
      let _ ← expectCurrent .rbrace
      pure (.struct_ typespec initializers)
    else
      let expr ← p.exprPrecedence .prefix_
      pure (.cast typespec expr)

/-- `parse_expr_syscall`. -/
def parseExprSyscall (p : Parsers) : Parser Expr := do
  let _ ← expectCurrent .syscall
  let _ ← expectCurrent .lparen
  let first ← parseExpr p
  let rest ← bounded (untilKind .rparen (do
    let _ ← expectCurrent .comma
    parseExpr p))
  let _ ← expectCurrent .rparen
  pure (.syscall (first :: rest))

/-- `parse_expr_sizeof` and `parse_expr_alignof`: the keyword, then a type specifier in
parentheses. -/
def parseExprOfTypespec (keyword : TokenKind) (node : Typespec → Expr) (p : Parsers) :
    Parser Expr := do
  let _ ← expectCurrent keyword
  let _ ← expectCurrent .lparen
  let rhs ← p.typespec
  let _ ← expectCurrent .rparen
  pure (node rhs)

/-- `parse_expr_sizeof`. -/
def parseExprSizeof (p : Parsers) : Parser Expr := parseExprOfTypespec .sizeof .sizeof p

/-- `parse_expr_alignof`. -/
def parseExprAlignof (p : Parsers) : Parser Expr := parseExprOfTypespec .alignof .alignof p

/-- `parse_expr_nud_unary`: the operator, then its operand at `PRECEDENCE_PREFIX`, in
parentheses after `countof`. -/
def parseExprNudUnary (p : Parsers) : Parser Expr := do
  let op ← advanceToken
  if op.kind = .countof then
    let _ ← expectCurrent .lparen
    let rhs ← p.exprPrecedence .prefix_
    let _ ← expectCurrent .rparen
    pure (.unary op.kind rhs)
  else
    let rhs ← p.exprPrecedence .prefix_
    pure (.unary op.kind rhs)

/-! ## Left denotations -/

/-- `parse_expr_led_lparen`: a call. -/
def parseExprLedLparen (p : Parsers) (lhs : Expr) : Parser Expr := do
  let _ ← expectCurrent .lparen
  let args ← bounded (untilKindSep .rparen (parseExpr p) · true)
  let _ ← expectCurrent .rparen
  pure (.call lhs args)

/-- `parse_expr_led_lbracket`: an index or a slice. -/
def parseExprLedLbracket (p : Parsers) (lhs : Expr) : Parser Expr := do
  let _ ← expectCurrent .lbracket
  let idx ← parseExpr p
  if (← currentToken).kind = .colon then
    let _ ← expectCurrent .colon
    let e ← parseExpr p
    let _ ← expectCurrent .rbracket
    pure (.accessSlice lhs idx e)
  else
    let _ ← expectCurrent .rbracket
    pure (.accessIndex lhs idx)

/-- `parse_expr_led_dot_star`. -/
def parseExprLedDotStar (lhs : Expr) : Parser Expr := do
  let _ ← expectCurrent .dotStar
  pure (.accessDereference lhs)

/-- `parse_expr_led_dot`. -/
def parseExprLedDot (lhs : Expr) : Parser Expr := do
  let _ ← expectCurrent .dot
  let identifier ← parseIdentifier
  pure (.accessMember lhs identifier)

/-- `parse_expr_led_binary`: the operator, then its right operand at the operator's own level. -/
def parseExprLedBinary (p : Parsers) (lhs : Expr) : Parser Expr := do
  let op ← advanceToken
  let rhs ← p.exprPrecedence (tokenKindPrecedence op.kind)
  pure (.binary op.kind lhs rhs)

/-! ## The Pratt loop -/

/-- `token_kind_nud`. -/
def tokenKindNud (p : Parsers) : TokenKind → Option (Parser Expr)
  | .identifier | .colonColon => some (parseExprSymbol p)
  | .true_ | .false_ => some parseExprBoolean
  | .integer => some parseExprInteger
  | .character => some parseExprCharacter
  | .bytes => some parseExprBytes
  | .lparen => some (parseExprLparen p)
  | .syscall => some (parseExprSyscall p)
  | .sizeof => some (parseExprSizeof p)
  | .alignof => some (parseExprAlignof p)
  | .not | .countof | .plus | .dash | .tilde | .star | .ampersand => some (parseExprNudUnary p)
  | _ => none

/-- `token_kind_led`. -/
def tokenKindLed (p : Parsers) : TokenKind → Option (Expr → Parser Expr)
  | .lparen => some (parseExprLedLparen p)
  | .lbracket => some (parseExprLedLbracket p)
  | .dotStar => some parseExprLedDotStar
  | .dot => some parseExprLedDot
  | .or | .and | .eq | .ne | .le | .lt | .ge | .gt | .plus | .dash | .star | .fslash | .pipe
  | .caret | .ampersand => some (parseExprLedBinary p)
  | _ => none

/-- `parse_expr_precedence`: the null denotation of the current token, then the loop. -/
def parseExprPrecedence (p : Parsers) (precedence : Precedence) : Parser Expr := do
  let nudToken ← currentToken
  match tokenKindNud p nudToken.kind with
  | none => throw (.unrecognizedPrefix nudToken.kind)
  | some parseNud =>
    let expr ← parseNud
    p.exprLoop precedence expr

/-- A round of the loop of `parse_expr_precedence`, `while (precedence <
current_precedence(parser))`: the left denotation of the current token extends `expr`, and the
next round is `p.exprLoop`. -/
def parseExprLoop (p : Parsers) (precedence : Precedence) (expr : Expr) : Parser Expr := do
  let token ← currentToken
  if precedence.rank < (tokenKindPrecedence token.kind).rank then
    match tokenKindLed p token.kind with
    | none => pure expr
    | some parseLed =>
      let expr ← parseLed expr
      p.exprLoop precedence expr
  else pure expr

/-- The kinds `token_kind_led` maps to `parse_expr_led_binary`. -/
def binaryOperators : List TokenKind :=
  [.or, .and, .eq, .ne, .le, .lt, .ge, .gt, .plus, .dash, .star, .fslash, .pipe, .caret, .ampersand]

/-- The prefix operators of `parse_expr_nud_unary` but `countof`, whose operand is in
parentheses. -/
def prefixOperators : List TokenKind := [.not, .plus, .dash, .tilde, .star, .ampersand]

/-! ## The dispatch tables -/

section Tables
variable {p : Parsers} {k : TokenKind}

theorem tokenKindLed_binary (hk : k ∈ binaryOperators) :
    tokenKindLed p k = some (parseExprLedBinary p) := by
  cases k <;> first | rfl | exact absurd hk (by decide)

/-- A binary operator binds looser than a prefix operator, and tighter than `PRECEDENCE_LOWEST`. -/
theorem rank_of_binary : ∀ k ∈ binaryOperators,
    0 < (tokenKindPrecedence k).rank ∧ (tokenKindPrecedence k).rank < Precedence.prefix_.rank := by
  decide

theorem tokenKindNud_prefix (hk : k ∈ prefixOperators) :
    tokenKindNud p k = some (parseExprNudUnary p) := by
  cases k <;> first | rfl | exact absurd hk (by decide)

theorem parseExprPrecedence_nud {precedence : Precedence} {ts : List Token} {f : Parser Expr}
    (h : tokenKindNud p (current ts).kind = some f) :
    parseExprPrecedence p precedence ts = (f >>= p.exprLoop precedence) ts := by
  unfold parseExprPrecedence
  rw [currentToken_bind, h]

theorem parseExprLoop_led {precedence : Precedence} {e : Expr} {ts : List Token}
    {f : Expr → Parser Expr}
    (hr : precedence.rank < (tokenKindPrecedence (current ts).kind).rank)
    (h : tokenKindLed p (current ts).kind = some f) :
    parseExprLoop p precedence e ts = (f e >>= p.exprLoop precedence) ts := by
  unfold parseExprLoop
  rw [currentToken_bind, if_pos hr, h]

/-- The loop stops before a token that binds no tighter than its level. -/
theorem parseExprLoop_stop {precedence : Precedence} {e : Expr} {ts : List Token}
    (hr : (tokenKindPrecedence (current ts).kind).rank ≤ precedence.rank) :
    parseExprLoop p precedence e ts = .ok (e, ts) := by
  unfold parseExprLoop
  rw [currentToken_bind, if_neg (Nat.not_lt.2 hr)]
  rfl

end Tables

end Sunder.Parse
