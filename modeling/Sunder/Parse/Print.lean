import Sunder.Parse.Pratt
/-!
# The tokens of a syntax tree

The concrete syntax `src/parse.c` reads, written out from a tree: `Expr.tokens`, `Typespec.tokens`,
`Stmt.tokens`, `Decl.tokens`, `Module.tokens`. Each form is the tokens its parse function
expects, in order: a binary operator between its operands, a postfix form after its operand, an
array literal's elements separated by commas and its last one followed by `...` when it fills
the rest, an `if` with its `elif`s and `else`. A token carries no text or literal but for an
identifier, an integer, a character and a string (`tok`, `identTok`).

The printer does not parenthesise: a tree keeps its parentheses as `Expr.grouped` nodes, and a
well-formed tree (`Sunder/Parse/WellFormed.lean`) needs none besides. `Sunder/Parse/RoundTrip.lean`
shows that `parse` reads the tokens of every well-formed module back as the module.
-/

namespace Sunder.Parse

/-- The token of a kind that carries no text or literal. -/
def tok (k : TokenKind) : Token := { kind := k }

/-- An identifier. -/
def identTok (name : String) : Token := { kind := .identifier, text := name }

/-- `[[ a₁, …, aₙ ]]`: template arguments or parameters, nothing for none. -/
def templateTokens : List (List Token) → List Token
  | [] => []
  | a :: as =>
    tok .lbracketLbracket :: (commaList (tok .comma) (a :: as) ++ [tok .rbracketRbracket])

/-- A symbol: `::` first when it starts from the root, then its elements separated by `::`. -/
def symbolTokens (isFromRoot : Bool) (elements : List (List Token)) : List Token :=
  (if isFromRoot then [tok .colonColon] else []) ++ commaList (tok .colonColon) elements

/-- `(:T)`, before a literal or a cast. -/
def typeTokens (t : List Token) : List Token := tok .lparen :: tok .colon :: (t ++ [tok .rparen])

/-- A type specifier after `:`, nothing for none. -/
def annotationTokens : Option (List Token) → List Token
  | none => []
  | some t => tok .colon :: t

@[simp] theorem tok_kind (k : TokenKind) : (tok k).kind = k := rfl

@[simp] theorem identTok_kind (name : String) : (identTok name).kind = .identifier := rfl

@[simp] theorem identTok_text (name : String) : (identTok name).text = name := rfl

mutual

/-- The tokens of a symbol element: its identifier, then its template arguments. -/
def SymbolElement.tokens : SymbolElement → List Token
  | .mk name templateArguments =>
    identTok name :: templateTokens (Typespec.tokensEach templateArguments)

/-- The tokens of each of a list of symbol elements. -/
def SymbolElement.tokensEach : List SymbolElement → List (List Token)
  | [] => []
  | x :: xs => x.tokens :: SymbolElement.tokensEach xs

/-- The tokens of each of a list of type specifiers. -/
def Typespec.tokensEach : List Typespec → List (List Token)
  | [] => []
  | t :: ts => t.tokens :: Typespec.tokensEach ts

/-- The tokens of a type specifier. -/
def Typespec.tokens : Typespec → List Token
  | .symbol isFromRoot elements => symbolTokens isFromRoot (SymbolElement.tokensEach elements)
  | .function parameters ret => tok .func :: tok .lparen ::
      (commaList (tok .comma) (Typespec.tokensEach parameters) ++ tok .rparen :: ret.tokens)
  | .pointer base => tok .star :: base.tokens
  | .array count base => tok .lbracket :: (count.tokens ++ tok .rbracket :: base.tokens)
  | .slice base => tok .lbracket :: tok .rbracket :: base.tokens
  | .typeof e => tok .typeof :: tok .lparen :: (e.tokens ++ [tok .rparen])

/-- The tokens of each of a list of expressions. -/
def Expr.tokensEach : List Expr → List (List Token)
  | [] => []
  | e :: es => e.tokens :: Expr.tokensEach es

/-- The element of an array literal that fills the rest, followed by `...`. -/
def Expr.ellipsisTokens : Option Expr → List (List Token)
  | none => []
  | some e => [e.tokens ++ [tok .ellipsis]]

/-- The tokens of each initializer `.name = expr` of a struct literal. -/
def Expr.initializersTokens : List (String × Expr) → List (List Token)
  | [] => []
  | (name, e) :: xs =>
    (tok .dot :: identTok name :: tok .assign :: e.tokens) :: Expr.initializersTokens xs

/-- The tokens of an expression. -/
def Expr.tokens : Expr → List Token
  | .symbol isFromRoot elements => symbolTokens isFromRoot (SymbolElement.tokensEach elements)
  | .boolean b => [tok (if b then .true_ else .false_)]
  | .integer value suffix => [{ kind := .integer, number := value, suffix := suffix }]
  | .character c => [{ kind := .character, character := c }]
  | .bytes s => [{ kind := .bytes, bytes := s }]
  | .array t elements ellipsis => typeTokens t.tokens ++ tok .lbracket ::
      (commaList (tok .comma) (Expr.tokensEach elements ++ Expr.ellipsisTokens ellipsis) ++
        [tok .rbracket])
  | .slice t pointer count => typeTokens t.tokens ++ tok .lbrace ::
      (pointer.tokens ++ tok .comma :: (count.tokens ++ [tok .rbrace]))
  | .arraySlice t elements => typeTokens t.tokens ++ tok .lbracket ::
      (commaList (tok .comma) (Expr.tokensEach elements) ++ [tok .rbracket])
  | .struct_ t initializers => typeTokens t.tokens ++ tok .lbrace ::
      (commaList (tok .comma) (Expr.initializersTokens initializers) ++ [tok .rbrace])
  | .cast t e => typeTokens t.tokens ++ e.tokens
  | .grouped e => tok .lparen :: (e.tokens ++ [tok .rparen])
  | .syscall arguments => tok .syscall :: tok .lparen ::
      (commaList (tok .comma) (Expr.tokensEach arguments) ++ [tok .rparen])
  | .call f arguments => f.tokens ++ tok .lparen ::
      (commaList (tok .comma) (Expr.tokensEach arguments) ++ [tok .rparen])
  | .accessIndex lhs idx => lhs.tokens ++ tok .lbracket :: (idx.tokens ++ [tok .rbracket])
  | .accessSlice lhs b e =>
    lhs.tokens ++ tok .lbracket :: (b.tokens ++ tok .colon :: (e.tokens ++ [tok .rbracket]))
  | .accessMember lhs member => lhs.tokens ++ [tok .dot, identTok member]
  | .accessDereference lhs => lhs.tokens ++ [tok .dotStar]
  | .sizeof t => tok .sizeof :: tok .lparen :: (t.tokens ++ [tok .rparen])
  | .alignof t => tok .alignof :: tok .lparen :: (t.tokens ++ [tok .rparen])
  | .unary op rhs =>
    if op = .countof then tok .countof :: tok .lparen :: (rhs.tokens ++ [tok .rparen])
    else tok op :: rhs.tokens
  | .binary op lhs rhs => lhs.tokens ++ tok op :: rhs.tokens

end

mutual

/-- The tokens of a list of statements, one after the other. -/
def Stmt.tokensAll : List Stmt → List Token
  | [] => []
  | s :: ss => s.tokens ++ Stmt.tokensAll ss

/-- The conditionals of an `if`, the first one `first`. -/
def Stmt.conditionalsTokens (first : Bool) : List (Option Expr × List Stmt) → List Token
  | [] => []
  | x :: xs => Stmt.conditionalTokens first x ++ Stmt.conditionalsTokens false xs

/-- A conditional of an `if`: `if` (or `elif` after the first) with its condition, `else`
without one, then its block. -/
def Stmt.conditionalTokens (first : Bool) : Option Expr × List Stmt → List Token
  | (some condition, body) => tok (if first then .if_ else .elif) :: (condition.tokens ++
      tok .lbrace :: (Stmt.tokensAll body ++ [tok .rbrace]))
  | (none, body) => tok .else_ :: tok .lbrace :: (Stmt.tokensAll body ++ [tok .rbrace])

/-- The tokens of a statement. -/
def Stmt.tokens : Stmt → List Token
  | .decl d => d.tokens
  | .if_ conditionals => Stmt.conditionalsTokens true conditionals
  | .forRange name b e body => tok .for_ :: identTok name :: tok .in_ :: (b.tokens ++ tok .colon ::
      (e.tokens ++ tok .lbrace :: (Stmt.tokensAll body ++ [tok .rbrace])))
  | .forExpr cond body =>
    tok .for_ :: (cond.tokens ++ tok .lbrace :: (Stmt.tokensAll body ++ [tok .rbrace]))
  | .break_ => [tok .break_, tok .semicolon]
  | .continue_ => [tok .continue_, tok .semicolon]
  | .dump e => tok .dump :: (e.tokens ++ [tok .semicolon])
  | .return_ none => [tok .return_, tok .semicolon]
  | .return_ (some e) => tok .return_ :: (e.tokens ++ [tok .semicolon])
  | .assign lhs rhs => lhs.tokens ++ tok .assign :: (rhs.tokens ++ [tok .semicolon])
  | .expr e => e.tokens ++ [tok .semicolon]

/-- The tokens of a list of members, one after the other. -/
def Member.tokensAll : List Member → List Token
  | [] => []
  | x :: xs => x.tokens ++ Member.tokensAll xs

/-- The tokens of a member of a struct. -/
def Member.tokens : Member → List Token
  | .variable name t => tok .var :: identTok name :: tok .colon :: (t.tokens ++ [tok .semicolon])
  | .constant decl => decl.tokens
  | .function decl => decl.tokens

/-- The tokens of a declaration. -/
def Decl.tokens : Decl → List Token
  | .variable name t e => tok .var :: identTok name ::
      (annotationTokens (t.map Typespec.tokens) ++ tok .assign :: (e.tokens ++ [tok .semicolon]))
  | .constant name t e => tok .const :: identTok name ::
      (annotationTokens (t.map Typespec.tokens) ++ tok .assign :: (e.tokens ++ [tok .semicolon]))
  | .function name templateParameters parameters ret body => tok .func :: identTok name ::
      (templateTokens (templateParameters.map fun x => [identTok x]) ++ tok .lparen ::
        (commaList (tok .comma)
            (parameters.map fun x => identTok x.1 :: tok .colon :: x.2.tokens) ++
          tok .rparen :: (ret.tokens ++ tok .lbrace :: (Stmt.tokensAll body ++ [tok .rbrace]))))
  | .struct_ name templateParameters members => tok .struct_ :: identTok name ::
      (templateTokens (templateParameters.map fun x => [identTok x]) ++ tok .lbrace ::
        (Member.tokensAll members ++ [tok .rbrace]))
  | .extend t decl => tok .extend :: (t.tokens ++ decl.tokens)
  | .alias name isFromRoot elements => tok .alias :: identTok name :: tok .assign ::
      (symbolTokens isFromRoot (SymbolElement.tokensEach elements) ++ [tok .semicolon])
  | .externVariable name t =>
    tok .extern_ :: tok .var :: identTok name :: tok .colon :: (t.tokens ++ [tok .semicolon])

end

/-- `namespace a::b;`, nothing for no namespace. -/
def namespaceTokens : Option (List String) → List Token
  | none => []
  | some ns =>
    tok .namespace_ ::
      (commaList (tok .colonColon) (ns.map fun x => [identTok x]) ++ [tok .semicolon])

/-- `import "path";`. -/
def importTokens (path : List UInt8) : List Token :=
  [tok .import_, { kind := .bytes, bytes := path }, tok .semicolon]

/-- The tokens of a module: its namespace, its imports, then its declarations. -/
def Module.tokens (m : Module) : List Token :=
  namespaceTokens m.namespace_ ++ (m.imports.map importTokens).flatten ++
    (m.decls.map Decl.tokens).flatten

/-! ## Lists of trees -/

theorem SymbolElement.tokensEach_eq : ∀ xs : List SymbolElement,
    SymbolElement.tokensEach xs = xs.map SymbolElement.tokens
  | [] => rfl
  | x :: xs => congrArg (x.tokens :: ·) (tokensEach_eq xs)

theorem Typespec.tokensEach_eq :
    ∀ ts : List Typespec, Typespec.tokensEach ts = ts.map Typespec.tokens
  | [] => rfl
  | t :: ts => congrArg (t.tokens :: ·) (tokensEach_eq ts)

theorem Expr.tokensEach_eq : ∀ es : List Expr, Expr.tokensEach es = es.map Expr.tokens
  | [] => rfl
  | e :: es => congrArg (e.tokens :: ·) (tokensEach_eq es)

theorem Expr.initializersTokens_eq : ∀ xs : List (String × Expr),
    Expr.initializersTokens xs =
      xs.map fun x => tok .dot :: identTok x.1 :: tok .assign :: x.2.tokens
  | [] => rfl
  | (_, _) :: xs => congrArg (_ :: ·) (initializersTokens_eq xs)

theorem Stmt.tokensAll_eq : ∀ ss : List Stmt, Stmt.tokensAll ss = (ss.map Stmt.tokens).flatten
  | [] => rfl
  | s :: ss => congrArg (s.tokens ++ ·) (tokensAll_eq ss)

theorem Member.tokensAll_eq :
    ∀ xs : List Member, Member.tokensAll xs = (xs.map Member.tokens).flatten
  | [] => rfl
  | x :: xs => congrArg (x.tokens ++ ·) (tokensAll_eq xs)

theorem Stmt.conditionalsTokens_eq : ∀ xs : List (Option Expr × List Stmt),
    Stmt.conditionalsTokens false xs = (xs.map (Stmt.conditionalTokens false)).flatten
  | [] => rfl
  | x :: xs => congrArg (Stmt.conditionalTokens false x ++ ·) (conditionalsTokens_eq xs)

end Sunder.Parse
