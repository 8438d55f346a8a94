import Sunder.Parse.Expr
/-!
# Statements, declarations and modules

The parse functions of `src/parse.c` above expressions, and `parsers`, which ties the recursion
through `Parsers` with a bound on the number of nested calls. `parse` gives one nested call per
token of its input and one more: `Sunder/Parse/Progress.lean` shows that every call consumes a
token before it makes a nested one, so the bound is never reached.
-/

namespace Sunder.Parse

/-! ## Statements -/

/-- `parse_stmt_decl`. -/
def parseStmtDecl (p : Parsers) : Parser Stmt := do
  let decl ← p.decl
  pure (.decl decl)

/-- The `elif` rounds of `parse_stmt_if`. -/
def parseElif (p : Parsers) : Parser (Option Expr × List Stmt) := do
  let _ ← advanceToken
  let condition ← parseExpr p
  let body ← p.block
  pure (some condition, body)

/-- `parse_stmt_if`: the `if` conditional, the `elif` chain and the optional `else`. -/
def parseStmtIf (p : Parsers) : Parser Stmt := do
  assertCurrent .if_ "check_current(parser, TOKEN_IF)"
  let _ ← expectCurrent .if_
  let condition ← parseExpr p
  let body ← p.block
  let elifs ← bounded (whileKind .elif (parseElif p))
  let else_ ← (if (← currentToken).kind = .else_ then do
      let _ ← advanceToken
      let body ← p.block
      pure [(none, body)]
    else pure [])
  pure (.if_ ((some condition, body) :: elifs ++ else_))

/-- `parse_stmt_for`: a range loop when an identifier and `in` follow `for`, a conditional loop
otherwise. -/
def parseStmtFor (p : Parsers) : Parser Stmt := do
  assertCurrent .for_ "check_current(parser, TOKEN_FOR)"
  let _ ← expectCurrent .for_
  if (← currentToken).kind = .identifier ∧ (← peekToken).kind = .in_ then
    let identifier ← parseIdentifier
    let _ ← expectCurrent .in_
    let b ← parseExpr p
    let _ ← expectCurrent .colon
    let e ← parseExpr p
    let body ← p.block
    pure (.forRange identifier b e body)
  else
    let expr ← parseExpr p
    let body ← p.block
    pure (.forExpr expr body)

/-- `parse_stmt_break` and `parse_stmt_continue`: the keyword and `;`. -/
def parseStmtJump (keyword : TokenKind) (condition : String) (stmt : Stmt) : Parser Stmt := do
  assertCurrent keyword condition
  let _ ← expectCurrent keyword
  let _ ← expectCurrent .semicolon
  pure stmt

/-- `parse_stmt_break`. -/
def parseStmtBreak : Parser Stmt :=
  parseStmtJump .break_ "check_current(parser, TOKEN_BREAK)" .break_

/-- `parse_stmt_continue`. -/
def parseStmtContinue : Parser Stmt :=
  parseStmtJump .continue_ "check_current(parser, TOKEN_CONTINUE)" .continue_

/-- `parse_stmt_dump`. -/
def parseStmtDump (p : Parsers) : Parser Stmt := do
  assertCurrent .dump "check_current(parser, TOKEN_DUMP)"
  let _ ← expectCurrent .dump
  let expr ← parseExpr p
  let _ ← expectCurrent .semicolon
  pure (.dump expr)

/-- `parse_stmt_return`. -/
def parseStmtReturn (p : Parsers) : Parser Stmt := do
  assertCurrent .return_ "check_current(parser, TOKEN_RETURN)"
  let _ ← expectCurrent .return_
  let expr ← (if (← currentToken).kind ≠ .semicolon then do
      let expr ← parseExpr p
      pure (some expr)
    else pure none)
  let _ ← expectCurrent .semicolon
  pure (.return_ expr)

/-- `parse_stmt`: a declaration, a keyword statement, or an expression followed by `= rhs;`
(`<stmt-assign>`) or by `;` (`<stmt-expr>`). -/
def parseStmt (p : Parsers) : Parser Stmt := do
  let token ← currentToken
  if token.kind = .var ∨ token.kind = .const ∨ token.kind = .func ∨ token.kind = .alias then
    parseStmtDecl p
  else if token.kind = .if_ then parseStmtIf p
  else if token.kind = .for_ then parseStmtFor p
  else if token.kind = .break_ then parseStmtBreak
  else if token.kind = .continue_ then parseStmtContinue
  else if token.kind = .dump then parseStmtDump p
  else if token.kind = .return_ then parseStmtReturn p
  else
    let expr ← parseExpr p
    if (← currentToken).kind = .assign then
      let _ ← expectCurrent .assign
      let rhs ← parseExpr p
      let _ ← expectCurrent .semicolon
      pure (.assign expr rhs)
    else
      let _ ← expectCurrent .semicolon
      pure (.expr expr)

/-- `parse_block`. -/
def parseBlock (p : Parsers) : Parser (List Stmt) := do
  let _ ← expectCurrent .lbrace
  let stmts ← bounded (untilKind .rbrace (parseStmt p))
  let _ ← expectCurrent .rbrace
  pure stmts

/-! ## Declarations -/

/-- `parse_decl_variable` and `parse_decl_constant`: the keyword, the name, an optional type
specifier after `:`, then `= expr;`. -/
def parseDeclBinding (keyword : TokenKind) (decl : String → Option Typespec → Expr → Decl)
    (p : Parsers) : Parser Decl := do
  let _ ← expectCurrent keyword
  let identifier ← parseIdentifier
  let typespec ← (if (← currentToken).kind = .colon then do
      let _ ← expectCurrent .colon
      let typespec ← p.typespec
      pure (some typespec)
    else pure none)
  let _ ← expectCurrent .assign
  let expr ← parseExpr p
  let _ ← expectCurrent .semicolon
  pure (decl identifier typespec expr)

/-- `parse_decl_variable`. -/
def parseDeclVariable (p : Parsers) : Parser Decl := parseDeclBinding .var .variable p

/-- `parse_decl_constant`. -/
def parseDeclConstant (p : Parsers) : Parser Decl := parseDeclBinding .const .constant p

/-- `parse_template_parameter`. -/
def parseTemplateParameter : Parser String := parseIdentifier

/-- `parse_template_parameter_list`: empty unless the current token is `[[`. -/
def parseTemplateParameterList : Parser (List String) := do
  if (← currentToken).kind ≠ .lbracketLbracket then pure []
  else
    let _ ← expectCurrent .lbracketLbracket
    if (← currentToken).kind = .rbracketRbracket then throw .zeroTemplateParameters
    else
      let templateParameters ← sepByComma parseTemplateParameter
      let _ ← expectCurrent .rbracketRbracket
      pure templateParameters

/-- `parse_function_parameter`. -/
def parseFunctionParameter (p : Parsers) : Parser (String × Typespec) := do
  let identifier ← parseIdentifier
  let _ ← expectCurrent .colon
  let typespec ← p.typespec
  pure (identifier, typespec)

/-- `parse_function_parameter_list`: empty unless the current token is an identifier. -/
def parseFunctionParameterList (p : Parsers) : Parser (List (String × Typespec)) := do
  if (← currentToken).kind ≠ .identifier then pure []
  else sepByComma (parseFunctionParameter p)

/-- `parse_decl_function`. -/
def parseDeclFunction (p : Parsers) : Parser Decl := do
  let _ ← expectCurrent .func
  let identifier ← parseIdentifier
  let templateParameters ← parseTemplateParameterList
  let _ ← expectCurrent .lparen
  let functionParameters ← parseFunctionParameterList p
  let _ ← expectCurrent .rparen
  let returnTypespec ← p.typespec
  let body ← p.block
  pure (.function identifier templateParameters functionParameters returnTypespec body)

/-- `parse_member_variable`. -/
def parseMemberVariable (p : Parsers) : Parser Member := do
  let _ ← expectCurrent .var
  let identifier ← parseIdentifier
  let _ ← expectCurrent .colon
  let typespec ← p.typespec
  let _ ← expectCurrent .semicolon
  pure (.variable identifier typespec)

/-- `parse_member_constant`. -/
def parseMemberConstant (p : Parsers) : Parser Member := do
  let decl ← parseDeclConstant p
  pure (.constant decl)

/-- `parse_member_function`. -/
def parseMemberFunction (p : Parsers) : Parser Member := do
  let decl ← parseDeclFunction p
  pure (.function decl)

/-- `parse_member`. -/
def parseMember (p : Parsers) : Parser Member := do
  let token ← currentToken
  if token.kind = .var then parseMemberVariable p
  else if token.kind = .const then parseMemberConstant p
  else if token.kind = .func then parseMemberFunction p
  else throw (.expectedMember token)

/-- `parse_member_list`: the members up to `}`. -/
def parseMemberList (p : Parsers) : Parser (List Member) :=
  bounded (untilKind .rbrace (parseMember p))

/-- `parse_decl_struct`. -/
def parseDeclStruct (p : Parsers) : Parser Decl := do
  let _ ← expectCurrent .struct_
  let identifier ← parseIdentifier
  let templateParameters ← parseTemplateParameterList
  let _ ← expectCurrent .lbrace
  let members ← parseMemberList p
  let _ ← expectCurrent .rbrace
  pure (.struct_ identifier templateParameters members)

/-- `parse_decl_extend`. -/
def parseDeclExtend (p : Parsers) : Parser Decl := do
  let _ ← expectCurrent .extend
  let typespec ← p.typespec
  let decl ← p.decl
  pure (.extend typespec decl)

/-- `parse_decl_alias`. -/
def parseDeclAlias (p : Parsers) : Parser Decl := do
  let _ ← expectCurrent .alias
  let identifier ← parseIdentifier
  let _ ← expectCurrent .assign
  let (isFromRoot, elements) ← parseSymbol p
  let _ ← expectCurrent .semicolon
  pure (.alias identifier isFromRoot elements)

/-- `parse_decl_extern_variable`. -/
def parseDeclExternVariable (p : Parsers) : Parser Decl := do
  let _ ← expectCurrent .extern_
  let _ ← expectCurrent .var
  let identifier ← parseIdentifier
  let _ ← expectCurrent .colon
  let typespec ← p.typespec
  let _ ← expectCurrent .semicolon
  pure (.externVariable identifier typespec)

/-- `parse_decl`. -/
def parseDecl (p : Parsers) : Parser Decl := do
  let token ← currentToken
  if token.kind = .var then parseDeclVariable p
  else if token.kind = .const then parseDeclConstant p
  else if token.kind = .func then parseDeclFunction p
  else if token.kind = .struct_ then parseDeclStruct p
  else if token.kind = .extend then parseDeclExtend p
  else if token.kind = .alias then parseDeclAlias p
  else if token.kind = .extern_ ∧ (← peekToken).kind = .var then parseDeclExternVariable p
  else throw (.expectedDeclaration token)

/-! ## Modules -/

/-- `parse_namespace`. -/
def parseNamespace : Parser (List String) := do
  let _ ← expectCurrent .namespace_
  let first ← parseIdentifier
  let rest ← bounded (untilKind .semicolon (do
    let _ ← expectCurrent .colonColon
    parseIdentifier))
  let _ ← expectCurrent .semicolon
  pure (first :: rest)

/-- `parse_import`: the path, the bytes of a string literal. -/
def parseImport : Parser (List UInt8) := do
  let _ ← expectCurrent .import_
  let token ← expectCurrent .bytes
  let _ ← expectCurrent .semicolon
  pure token.bytes

/-- `parse_module`: an optional namespace, the imports, then declarations up to `EOF`. -/
def parseModule (p : Parsers) : Parser Module := do
  let namespace_ ← (if (← currentToken).kind = .namespace_ then do
      let namespace_ ← parseNamespace
      pure (some namespace_)
    else pure none)
  let imports ← bounded (whileKind .import_ parseImport)
  let decls ← bounded (untilKind .eof p.decl)
  pure ⟨namespace_, imports, decls⟩

/-- The parse functions with `n` nested calls left. -/
def parsers : Nat → Parsers
  | 0 => ⟨fun _ => throw .fuel, fun _ _ => throw .fuel, throw .fuel, throw .fuel, throw .fuel⟩
  | n + 1 =>
    let p := parsers n
    ⟨parseExprPrecedence p, parseExprLoop p, parseTypespec p, parseBlock p, parseDecl p⟩

/-- `parse`: the module a token stream spells, with one nested call per token and one more. -/
def parse (ts : List Token) : Except ParseError Module :=
  (parseModule (parsers (ts.length + 1)) ts).map (·.1)

end Sunder.Parse
