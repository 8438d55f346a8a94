import Sunder.Cst

/-!
# Symbols and the typed IR

`Symbol` is `struct symbol` (a name and one payload per `enum symbol_kind`); symbol tables are
numbered (`Sunder/Resolver/State.lean`), so a template or namespace symbol refers to its tables
by number. `Expr` is the resolver's typed expression (`struct expr`) and `Stmt` its statement;
the evaluator's `TIR_EXPR_*` kinds are the same nodes under older names (`TIR_EXPR_IDENTIFIER`
is `Expr.symbol`, `TIR_EXPR_LITERAL_ARRAY` is `Expr.arrayList`, `TIR_EXPR_LITERAL_SLICE` is
`Expr.slice`, `TIR_EXPR_INDEX` is `Expr.accessIndex`, `TIR_EXPR_SLICE` is `Expr.accessSlice`).

`Expr.type` is the type every node carries; `exprIsLvalue` is `tir_expr_is_lvalue`.
-/

namespace Sunder

/-- The payload of a symbol, by `enum symbol_kind`. -/
inductive SymbolData where
  | type (t : Ty)
  | variable (t : Ty) (address : Address) (value : Option Value)
  | constant (t : Ty) (address : Address) (value : Value)
  /-- A function: its type, static address and the value `value_new_function` made of it. -/
  | function (t : Ty) (address : Address) (value : Value)
  /-- A template: its declaration, the static-address prefix and symbol table it was declared
  in, and the table caching its instances. -/
  | template (decl : CstDecl) (addrPrefix : Option String) (parent instances : Nat)
  | namespace_ (table : Nat)

/-- `struct symbol`. -/
structure Symbol where
  name : String
  data : SymbolData

/-- `enum symbol_kind`. -/
inductive SymbolKind where
  | type | variable | constant | function | template | namespace_
  deriving DecidableEq, Repr

namespace Symbol

/-- `symbol->kind`. -/
def kind (s : Symbol) : SymbolKind :=
  match s.data with
  | .type _ => .type
  | .variable _ _ _ => .variable
  | .constant _ _ _ => .constant
  | .function _ _ _ => .function
  | .template _ _ _ _ => .template
  | .namespace_ _ => .namespace_

/-- `symbol->type` (a namespace or template has none; `void` stands in for it). -/
def type (s : Symbol) : Ty :=
  match s.data with
  | .type t | .variable t _ _ | .constant t _ _ | .function t _ _ => t
  | _ => .void

/-- `symbol->address`. -/
def address (s : Symbol) : Option Address :=
  match s.data with
  | .variable _ a _ | .constant _ a _ | .function _ a _ => some a
  | _ => none

/-- `symbol->value`. -/
def value (s : Symbol) : Option Value :=
  match s.data with
  | .variable _ _ v => v
  | .constant _ _ v | .function _ _ v => some v
  | _ => none

end Symbol

/-- `enum uop_kind`. -/
inductive Uop where
  | not | pos | neg | bitnot | dereference | addressof | countof
  deriving DecidableEq, Repr

/-- `enum bop_kind`. -/
inductive Bop where
  | or | and | shl | shr | eq | ne | le | lt | ge | gt | add | sub | mul | div
  | bitor | bitxor | bitand
  deriving DecidableEq, Repr

/-- `struct expr`: every node carries its resolved type (`Expr.type`). -/
inductive Expr where
  | symbol (s : Symbol)
  | boolean (b : Bool)
  | integer (t : Ty) (x : Int)
  | bytes (address : Address) (count : Nat)
  | arrayList (t : Ty) (elements : List Expr) (ellipsis : Option Expr)
  | sliceList (t : Ty) (array : Symbol) (elements : List Expr)
  | slice (t : Ty) (pointer count : Expr)
  | struct_ (t : Ty) (members : List Expr)
  | cast (t : Ty) (e : Expr)
  | syscall (args : List Expr)
  | call (f : Expr) (args : List Expr)
  | accessIndex (t : Ty) (lhs idx : Expr)
  | accessSlice (t : Ty) (lhs b e : Expr)
  | accessMemberVariable (t : Ty) (lhs : Expr) (member : String)
  | sizeof (rhs : Ty)
  | alignof (rhs : Ty)
  | unary (t : Ty) (op : Uop) (rhs : Expr)
  | binary (t : Ty) (op : Bop) (lhs rhs : Expr)

/-- The type of a node (`expr->type`). -/
def Expr.type : Expr → Ty
  | .symbol s => s.type
  | .boolean _ => .bool
  | .integer t _ => t
  | .bytes _ _ => .slice .byte
  | .arrayList t _ _ | .sliceList t _ _ | .slice t _ _ | .struct_ t _ | .cast t _ => t
  | .syscall _ => ssize
  | .call f _ => match f.type with
    | .function _ r => r
    | _ => .void
  | .accessIndex t _ _ | .accessSlice t _ _ _ | .accessMemberVariable t _ _ => t
  | .sizeof _ | .alignof _ => usize
  | .unary t _ _ | .binary t _ _ _ => t

/-- `tir_expr_is_lvalue`: identifiers of variables and constants, indexing into a slice or an
lvalue, and dereference. An identifier of a type, namespace or template is `UNREACHABLE()`. -/
def exprIsLvalue : Expr → Except Fault Bool
  | .symbol s => match s.kind with
    | .variable | .constant => pure true
    | .function => pure false
    | _ => throw (.internal "tir_expr_is_lvalue")
  | .accessIndex _ lhs _ => match lhs.type with
    | .slice _ => pure true
    | _ => exprIsLvalue lhs
  | .unary _ op _ => pure (op == .dereference)
  | _ => pure false

end Sunder
