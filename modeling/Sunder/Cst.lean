import Sunder.Value

/-!
# The concrete syntax tree

The parser's output as the resolver reads it (`struct cst_*` of the source): typespecs,
expressions, declarations, struct members and statements, with identifiers as their interned
names. Source locations are left out; the resolver only copies them into diagnostics.
-/

namespace Sunder

/-- The operator tokens of unary and binary expressions (`enum token_kind`). -/
inductive Token where
  | plus | dash | star | fslash | not | countof | tilde | ampersand
  | or | and | shl | shr | eq | ne | le | lt | ge | gt | pipe | caret
  deriving DecidableEq, Repr

mutual

/-- `struct cst_symbol_element`: an identifier with its optional template arguments. -/
inductive CstSymbolElement where
  | mk (name : String) (templateArguments : List CstTypespec)

/-- `struct cst_typespec`. -/
inductive CstTypespec where
  | symbol (isFromRoot : Bool) (elements : List CstSymbolElement)
  | function (params : List CstTypespec) (ret : CstTypespec)
  | pointer (base : CstTypespec)
  | array (count : CstExpr) (base : CstTypespec)
  | slice (base : CstTypespec)
  | typeof (e : CstExpr)

/-- `struct cst_expr`. An integer literal is its digits' value and its suffix (`""`, `"y"`,
`"u8"`, ..., `"u"`, `"s"`). -/
inductive CstExpr where
  | symbol (isFromRoot : Bool) (elements : List CstSymbolElement)
  | boolean (b : Bool)
  | integer (value : Nat) (suffix : String)
  | character (c : Int)
  | bytes (s : List UInt8)
  | list (t : CstTypespec) (elements : List CstExpr) (ellipsis : Option CstExpr)
  | slice (t : CstTypespec) (pointer count : CstExpr)
  | struct_ (t : CstTypespec) (initializers : List (String × CstExpr))
  | cast (t : CstTypespec) (e : CstExpr)
  | grouped (e : CstExpr)
  | call (f : CstExpr) (args : List CstExpr)
  | accessIndex (lhs idx : CstExpr)
  | accessSlice (lhs b e : CstExpr)
  | accessMember (lhs : CstExpr) (member : CstSymbolElement)
  | accessDereference (lhs : CstExpr)
  | sizeof (t : CstTypespec)
  | alignof (t : CstTypespec)
  | unary (op : Token) (rhs : CstExpr)
  | binary (op : Token) (lhs rhs : CstExpr)

/-- `struct cst_decl`; `name` is `decl->name`. -/
inductive CstDecl where
  | variable (name : String) (t : Option CstTypespec) (e : CstExpr)
  | constant (name : String) (t : Option CstTypespec) (e : CstExpr)
  | function (name : String) (templateParameters : List String)
      (params : List (String × CstTypespec)) (ret : CstTypespec) (body : List CstStmt)
  | struct_ (name : String) (templateParameters : List String) (members : List CstMember)
  | extend (name : String) (t : CstTypespec) (decl : CstDecl)
  | alias (name : String) (t : CstTypespec)
  | externVariable (name : String) (t : CstTypespec)
  | externFunction (name : String) (params : List (String × CstTypespec)) (ret : CstTypespec)

/-- `struct cst_member`. -/
inductive CstMember where
  | variable (name : String) (t : CstTypespec)
  | constant (decl : CstDecl)
  | function (decl : CstDecl)

/-- `struct cst_stmt`; a block is its list of statements. -/
inductive CstStmt where
  | decl (d : CstDecl)
  | defer (body : List CstStmt)
  | if_ (conditionals : List (Option CstExpr × List CstStmt))
  | forRange (name : String) (b : Option CstExpr) (e : CstExpr) (body : List CstStmt)
  | forExpr (cond : CstExpr) (body : List CstStmt)
  | break_
  | continue_
  | dump (e : CstExpr)
  | return_ (e : Option CstExpr)
  | assign (lhs rhs : CstExpr)
  | expr (e : CstExpr)

end

/-- `decl->name`. -/
def CstDecl.name : CstDecl → String
  | .variable n _ _ | .constant n _ _ | .function n _ _ _ _ | .struct_ n _ _ | .extend n _ _
  | .alias n _ | .externVariable n _ | .externFunction n _ _ => n

/-- `struct cst_module`: the optional namespace, the import paths, and the declarations in the
topological order computed before resolution (`module->ordered`). -/
structure CstModule where
  namespace_ : List String
  imports : List String
  ordered : List CstDecl

end Sunder
