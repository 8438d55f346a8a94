import Sunder.Parse.Token
/-!
# The syntax tree `src/parse.c` builds

The `cst_*_new` constructors `src/parse.c` calls, without their source locations. They are those
of the snapshot of the parser under `src/` and differ from the tree the resolver reads
(`Sunder/Cst.lean`): the parser builds `syscall` expressions, array-slice literals apart from array
literals, member accesses by identifier, and `for` ranges that always have a beginning. A
unary or binary node keeps the kind of its operator token.
-/

namespace Sunder.Parse

mutual

/-- `struct cst_symbol_element`: an identifier and its template arguments. -/
inductive SymbolElement where
  | mk (name : String) (templateArguments : List Typespec)

/-- `struct cst_typespec`. -/
inductive Typespec where
  | symbol (isFromRoot : Bool) (elements : List SymbolElement)
  | function (parameters : List Typespec) (ret : Typespec)
  | pointer (base : Typespec)
  | array (count : Expr) (base : Typespec)
  | slice (base : Typespec)
  | typeof (e : Expr)

/-- `struct cst_expr`. -/
inductive Expr where
  | symbol (isFromRoot : Bool) (elements : List SymbolElement)
  | boolean (b : Bool)
  | integer (value : Nat) (suffix : String)
  | character (c : Int)
  | bytes (s : List UInt8)
  | array (t : Typespec) (elements : List Expr) (ellipsis : Option Expr)
  | slice (t : Typespec) (pointer count : Expr)
  | arraySlice (t : Typespec) (elements : List Expr)
  | struct_ (t : Typespec) (initializers : List (String × Expr))
  | cast (t : Typespec) (e : Expr)
  | grouped (e : Expr)
  | syscall (arguments : List Expr)
  | call (f : Expr) (arguments : List Expr)
  | accessIndex (lhs idx : Expr)
  | accessSlice (lhs b e : Expr)
  | accessMember (lhs : Expr) (member : String)
  | accessDereference (lhs : Expr)
  | sizeof (t : Typespec)
  | alignof (t : Typespec)
  | unary (op : TokenKind) (rhs : Expr)
  | binary (op : TokenKind) (lhs rhs : Expr)

end

/-- `typespec->kind == TYPESPEC_ARRAY`. -/
def Typespec.isArray : Typespec → Bool
  | .array _ _ => true
  | _ => false

/-- `typespec->kind == TYPESPEC_SLICE`. -/
def Typespec.isSlice : Typespec → Bool
  | .slice _ => true
  | _ => false

mutual

/-- `struct cst_decl`. -/
inductive Decl where
  | variable (name : String) (t : Option Typespec) (e : Expr)
  | constant (name : String) (t : Option Typespec) (e : Expr)
  | function (name : String) (templateParameters : List String)
      (parameters : List (String × Typespec)) (ret : Typespec) (body : List Stmt)
  | struct_ (name : String) (templateParameters : List String) (members : List Member)
  | extend (t : Typespec) (decl : Decl)
  | alias (name : String) (isFromRoot : Bool) (elements : List SymbolElement)
  | externVariable (name : String) (t : Typespec)

/-- `struct cst_member`. -/
inductive Member where
  | variable (name : String) (t : Typespec)
  | constant (decl : Decl)
  | function (decl : Decl)

/-- `struct cst_stmt`; a block is its list of statements. -/
inductive Stmt where
  | decl (d : Decl)
  | if_ (conditionals : List (Option Expr × List Stmt))
  | forRange (name : String) (b e : Expr) (body : List Stmt)
  | forExpr (cond : Expr) (body : List Stmt)
  | break_
  | continue_
  | dump (e : Expr)
  | return_ (e : Option Expr)
  | assign (lhs rhs : Expr)
  | expr (e : Expr)

end

/-- `struct cst_module`: the namespace, the paths of the imports and the declarations in source
order. -/
structure Module where
  namespace_ : Option (List String)
  imports : List (List UInt8)
  decls : List Decl

end Sunder.Parse
