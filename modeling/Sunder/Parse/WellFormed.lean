import Sunder.Parse.Grouping
/-!
# Well-formed syntax trees

The trees `src/parse.c` can build: those of its grammar, with what its parse functions check on
the way. A symbol has at least one element and `syscall` at least one argument; an array literal
has an array type, a slice or array-slice literal a slice type and a struct literal no slice type
(the conditions of `parse_expr_lparen`); an `if` is one conditional with a condition, then the
`elif`s, then at most one `else`; a statement declaration is a variable, a constant, a function
or an alias (those `parse_stmt` dispatches to `parse_stmt_decl`), a member constant a constant and
a member function a function.

How expressions nest is the grouping of `parse_expr_precedence`, by how tightly the root of each
tree binds (`Expr.binding`): a postfix form extends only a tree that binds as tightly as one, the
operand of a prefix operator or a cast binds at least as tightly as a prefix operator, and a
binary operator has a left operand that binds no looser than it and a right one that binds
tighter. The binary operators of a well-formed tree are therefore well grouped
(`Expr.WellFormed.wellGrouped`, `Sunder/Parse/Grouping.lean`).
-/

namespace Sunder.Parse

namespace Expr

/-- How tightly the root of a tree binds, by `enum precedence`: a binary operator at its own
level, a prefix operator and a cast at `PRECEDENCE_PREFIX`, and every other form, which the loop
of `parse_expr_precedence` may extend by a postfix form, at `PRECEDENCE_POSTFIX`. -/
def binding : Expr → Nat
  | .binary op _ _ => level op
  | .unary op _ => if op = .countof then Precedence.postfix_.rank else Precedence.prefix_.rank
  | .cast _ _ => Precedence.prefix_.rank
  | _ => Precedence.postfix_.rank

@[simp] theorem binding_binary (op : TokenKind) (lhs rhs : Expr) :
    (binary op lhs rhs).binding = level op := rfl

@[simp] theorem binding_cast (t : Typespec) (e : Expr) :
    (cast t e).binding = Precedence.prefix_.rank := rfl

@[simp] theorem binding_countof (e : Expr) :
    (unary .countof e).binding = Precedence.postfix_.rank := rfl

theorem binding_unary {op : TokenKind} (h : op ≠ .countof) (e : Expr) :
    (unary op e).binding = Precedence.prefix_.rank :=
  if_neg h

end Expr

/-- No token binds tighter than a postfix form. -/
theorem level_le (k : TokenKind) : level k ≤ Precedence.postfix_.rank := by
  cases k <;> decide

theorem Expr.binding_le (e : Expr) : e.binding ≤ Precedence.postfix_.rank := by
  cases e
  case binary op _ _ => exact level_le op
  case unary op _ =>
    by_cases h : op = .countof
    · subst h
      exact Nat.le_refl _
    · rw [Expr.binding_unary h]
      decide
  case cast => exact (by decide : Precedence.prefix_.rank ≤ Precedence.postfix_.rank)
  all_goals exact Nat.le_refl _

/-- The keyword a declaration starts with. -/
def Decl.keyword : Decl → TokenKind
  | .variable .. => .var
  | .constant .. => .const
  | .function .. => .func
  | .struct_ .. => .struct_
  | .extend .. => .extend
  | .alias .. => .alias
  | .externVariable .. => .extern_

mutual

/-- A well-formed symbol element: its template arguments are well formed. -/
inductive SymbolElement.WellFormed : SymbolElement → Prop
  | mk {name : String} {templateArguments : List Typespec}
      (h : ∀ t ∈ templateArguments, Typespec.WellFormed t) :
      SymbolElement.WellFormed (.mk name templateArguments)

/-- A well-formed type specifier (module doc). -/
inductive Typespec.WellFormed : Typespec → Prop
  | symbol {isFromRoot : Bool} {elements : List SymbolElement} (hne : elements ≠ [])
      (h : ∀ x ∈ elements, SymbolElement.WellFormed x) :
      Typespec.WellFormed (.symbol isFromRoot elements)
  | function {parameters : List Typespec} {ret : Typespec}
      (hp : ∀ t ∈ parameters, Typespec.WellFormed t) (hr : Typespec.WellFormed ret) :
      Typespec.WellFormed (.function parameters ret)
  | pointer {base : Typespec} (h : Typespec.WellFormed base) : Typespec.WellFormed (.pointer base)
  | array {count : Expr} {base : Typespec} (hc : Expr.WellFormed count)
      (hb : Typespec.WellFormed base) : Typespec.WellFormed (.array count base)
  | slice {base : Typespec} (h : Typespec.WellFormed base) : Typespec.WellFormed (.slice base)
  | typeof {e : Expr} (h : Expr.WellFormed e) : Typespec.WellFormed (.typeof e)

/-- A well-formed expression (module doc). -/
inductive Expr.WellFormed : Expr → Prop
  | symbol {isFromRoot : Bool} {elements : List SymbolElement} (hne : elements ≠ [])
      (h : ∀ x ∈ elements, SymbolElement.WellFormed x) :
      Expr.WellFormed (.symbol isFromRoot elements)
  | boolean (b : Bool) : Expr.WellFormed (.boolean b)
  | integer (value : Nat) (suffix : String) : Expr.WellFormed (.integer value suffix)
  | character (c : Int) : Expr.WellFormed (.character c)
  | bytes (s : List UInt8) : Expr.WellFormed (.bytes s)
  | array {t : Typespec} {elements : List Expr} {ellipsis : Option Expr} (hk : t.isArray)
      (ht : Typespec.WellFormed t) (he : ∀ e ∈ elements, Expr.WellFormed e)
      (hx : ∀ e ∈ ellipsis, Expr.WellFormed e) : Expr.WellFormed (.array t elements ellipsis)
  | slice {t : Typespec} {pointer count : Expr} (hk : t.isSlice) (ht : Typespec.WellFormed t)
      (hp : Expr.WellFormed pointer) (hc : Expr.WellFormed count) :
      Expr.WellFormed (.slice t pointer count)
  | arraySlice {t : Typespec} {elements : List Expr} (hk : t.isSlice)
      (ht : Typespec.WellFormed t) (he : ∀ e ∈ elements, Expr.WellFormed e) :
      Expr.WellFormed (.arraySlice t elements)
  | struct_ {t : Typespec} {initializers : List (String × Expr)} (hk : t.isSlice = false)
      (ht : Typespec.WellFormed t) (hi : ∀ x ∈ initializers, Expr.WellFormed x.2) :
      Expr.WellFormed (.struct_ t initializers)
  | cast {t : Typespec} {e : Expr} (ht : Typespec.WellFormed t) (he : Expr.WellFormed e)
      (hb : Precedence.prefix_.rank ≤ e.binding) : Expr.WellFormed (.cast t e)
  | grouped {e : Expr} (he : Expr.WellFormed e) : Expr.WellFormed (.grouped e)
  | syscall {arguments : List Expr} (hne : arguments ≠ [])
      (h : ∀ e ∈ arguments, Expr.WellFormed e) : Expr.WellFormed (.syscall arguments)
  | call {f : Expr} {arguments : List Expr} (hf : Expr.WellFormed f)
      (hb : f.binding = Precedence.postfix_.rank) (h : ∀ e ∈ arguments, Expr.WellFormed e) :
      Expr.WellFormed (.call f arguments)
  | accessIndex {lhs idx : Expr} (hl : Expr.WellFormed lhs)
      (hb : lhs.binding = Precedence.postfix_.rank) (hi : Expr.WellFormed idx) :
      Expr.WellFormed (.accessIndex lhs idx)
  | accessSlice {lhs b e : Expr} (hl : Expr.WellFormed lhs)
      (hb : lhs.binding = Precedence.postfix_.rank) (hbegin : Expr.WellFormed b)
      (hend : Expr.WellFormed e) : Expr.WellFormed (.accessSlice lhs b e)
  | accessMember {lhs : Expr} {member : String} (hl : Expr.WellFormed lhs)
      (hb : lhs.binding = Precedence.postfix_.rank) : Expr.WellFormed (.accessMember lhs member)
  | accessDereference {lhs : Expr} (hl : Expr.WellFormed lhs)
      (hb : lhs.binding = Precedence.postfix_.rank) : Expr.WellFormed (.accessDereference lhs)
  | sizeof {t : Typespec} (ht : Typespec.WellFormed t) : Expr.WellFormed (.sizeof t)
  | alignof {t : Typespec} (ht : Typespec.WellFormed t) : Expr.WellFormed (.alignof t)
  | unary {op : TokenKind} {rhs : Expr} (hop : op ∈ prefixOperators ∨ op = .countof)
      (h : Expr.WellFormed rhs) (hb : Precedence.prefix_.rank ≤ rhs.binding) :
      Expr.WellFormed (.unary op rhs)
  | binary {op : TokenKind} {lhs rhs : Expr} (hop : op ∈ binaryOperators)
      (hl : Expr.WellFormed lhs) (hr : Expr.WellFormed rhs) (hlb : level op ≤ lhs.binding)
      (hrb : level op < rhs.binding) : Expr.WellFormed (.binary op lhs rhs)

end

mutual

/-- A well-formed declaration (module doc). -/
inductive Decl.WellFormed : Decl → Prop
  | variable {name : String} {t : Option Typespec} {e : Expr}
      (ht : ∀ x ∈ t, x.WellFormed) (he : e.WellFormed) : Decl.WellFormed (.variable name t e)
  | constant {name : String} {t : Option Typespec} {e : Expr}
      (ht : ∀ x ∈ t, x.WellFormed) (he : e.WellFormed) : Decl.WellFormed (.constant name t e)
  | function {name : String} {templateParameters : List String}
      {parameters : List (String × Typespec)} {ret : Typespec} {body : List Stmt}
      (hp : ∀ x ∈ parameters, x.2.WellFormed) (hr : ret.WellFormed)
      (hb : ∀ s ∈ body, Stmt.WellFormed s) :
      Decl.WellFormed (.function name templateParameters parameters ret body)
  | struct_ {name : String} {templateParameters : List String} {members : List Member}
      (hm : ∀ x ∈ members, Member.WellFormed x) :
      Decl.WellFormed (.struct_ name templateParameters members)
  | extend {t : Typespec} {decl : Decl} (ht : t.WellFormed) (hd : Decl.WellFormed decl) :
      Decl.WellFormed (.extend t decl)
  | alias {name : String} {isFromRoot : Bool} {elements : List SymbolElement}
      (hne : elements ≠ []) (h : ∀ x ∈ elements, x.WellFormed) :
      Decl.WellFormed (.alias name isFromRoot elements)
  | externVariable {name : String} {t : Typespec} (ht : t.WellFormed) :
      Decl.WellFormed (.externVariable name t)

/-- A well-formed member of a struct: a member constant is a constant, a member function a
function. -/
inductive Member.WellFormed : Member → Prop
  | variable {name : String} {t : Typespec} (ht : t.WellFormed) :
      Member.WellFormed (.variable name t)
  | constant {decl : Decl} (hd : Decl.WellFormed decl) (hk : decl.keyword = .const) :
      Member.WellFormed (.constant decl)
  | function {decl : Decl} (hd : Decl.WellFormed decl) (hk : decl.keyword = .func) :
      Member.WellFormed (.function decl)

/-- A well-formed statement (module doc). -/
inductive Stmt.WellFormed : Stmt → Prop
  | decl {d : Decl} (hd : Decl.WellFormed d)
      (hk : d.keyword = .var ∨ d.keyword = .const ∨ d.keyword = .func ∨ d.keyword = .alias) :
      Stmt.WellFormed (.decl d)
  | if_ {condition : Expr} {body : List Stmt} {elifs else_ : List (Option Expr × List Stmt)}
      (hc : condition.WellFormed) (helifs : ∀ x ∈ elifs, ∃ e, x.1 = some e ∧ e.WellFormed)
      (helse : else_ = [] ∨ ∃ b, else_ = [(none, b)])
      (hb : ∀ x ∈ (some condition, body) :: elifs ++ else_, ∀ s ∈ x.2, Stmt.WellFormed s) :
      Stmt.WellFormed (.if_ ((some condition, body) :: elifs ++ else_))
  | forRange {name : String} {b e : Expr} {body : List Stmt} (hbegin : b.WellFormed)
      (hend : e.WellFormed) (hb : ∀ s ∈ body, Stmt.WellFormed s) :
      Stmt.WellFormed (.forRange name b e body)
  | forExpr {cond : Expr} {body : List Stmt} (hc : cond.WellFormed)
      (hb : ∀ s ∈ body, Stmt.WellFormed s) : Stmt.WellFormed (.forExpr cond body)
  | break_ : Stmt.WellFormed .break_
  | continue_ : Stmt.WellFormed .continue_
  | dump {e : Expr} (he : e.WellFormed) : Stmt.WellFormed (.dump e)
  | return_ {e : Option Expr} (he : ∀ x ∈ e, x.WellFormed) : Stmt.WellFormed (.return_ e)
  | assign {lhs rhs : Expr} (hl : lhs.WellFormed) (hr : rhs.WellFormed) :
      Stmt.WellFormed (.assign lhs rhs)
  | expr {e : Expr} (he : e.WellFormed) : Stmt.WellFormed (.expr e)

end

/-- A well-formed module: a namespace has at least one identifier, and every declaration is well
formed. -/
structure Module.WellFormed (m : Module) : Prop where
  namespace_ne : ∀ ns ∈ m.namespace_, ns ≠ []
  decls : ∀ d ∈ m.decls, d.WellFormed

/-- Every binary operator of a well-formed tree is well grouped. -/
theorem Expr.WellFormed.wellGrouped {e : Expr} (h : e.WellFormed) : e.WellGrouped := by
  cases e
  case binary op lhs rhs =>
    cases h with
    | binary hop hl hr hlb hrb =>
      have hlev := (rank_of_binary op hop).2
      refine .binary hl.wellGrouped hr.wellGrouped ?_ ?_
      · cases lhs <;> first | exact hlb | exact Nat.le_of_lt hlev
      · cases rhs <;> first | exact hrb | exact hlev
  all_goals exact .operand fun _ _ _ he => Expr.noConfusion he
termination_by sizeOf e

end Sunder.Parse
