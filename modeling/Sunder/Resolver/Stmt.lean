import Sunder.Resolver.Expr

/-!
# Statements and blocks

`resolveStmt r` is `resolve_stmt` and `resolveBlock r` is `resolve_block`. A block is resolved in
its own symbol table and restores the current table, `current_rbp_offset` and `current_defer`
on exit, so that sibling blocks reuse the same stack slots and see the same defers.

Statements are resolved in `StmtM`, over the resolver and its `DeferScope`. Defers form a chain:
`resolve_stmt_defer` records the defer in effect before it as its `prev` (the scope's `defers`
holds each node's `prev`) and becomes the current defer; `break`, `continue` and `return` record
the current defer, and a loop records the defer in effect when it was entered as the loop defer
of the `break` and `continue` statements of its body.
-/

namespace Sunder

/-- The defer scope. -/
def getScope : StmtM DeferScope := do pure (← get).2

/-- Update the defer scope. -/
def modifyScope (f : DeferScope → DeferScope) : StmtM Unit := modify fun (s, d) => (s, f d)

/-- `resolve_stmt_decl`: only variables, constants and aliases may be declared locally; a
variable becomes the assignment of its initializer. -/
def resolveStmtDecl (r : Resolvers) : CstDecl → ResolveM (Option Stmt)
  | .variable name ts e => do
    let (_, lhs, rhs) ← resolveDeclVariable r name ts e
    pure (some (.assign lhs rhs))
  | .constant name ts e => do
    discard <| resolveDeclConstant r name ts e
    pure none
  | .function _ _ _ _ _ => fatal "nested function declaration"
  | .struct_ name _ _ => fatal s!"local declaration of struct `{name}`"
  | .extend name _ _ => fatal s!"local declaration of type extension `{name}`"
  | .alias name ts => do
    discard <| resolveDeclAlias r name ts
    pure none
  | .externVariable name _ => fatal s!"local declaration of extern variable `{name}`"
  | .externFunction name _ _ => fatal s!"local declaration of extern function `{name}`"

/-- A nested block, in a new table whose parent is the current one. -/
def nestedBlock (r : Resolvers) (stmts : List CstStmt) : StmtM Block := do
  let table ← liftCore (do symbolTableNew (some (← currentTable)))
  r.block table stmts

/-- `resolve_stmt_defer`: the body is resolved first; the new node's `prev` is the defer in
effect before it, and it becomes the current defer. -/
def resolveStmtDefer (r : Resolvers) (body : List CstStmt) : StmtM Stmt := do
  let b ← nestedBlock r body
  let d ← getScope
  let node := d.defers.length
  modifyScope fun d => { d with defers := d.defers ++ [d.currentDefer], currentDefer := some node }
  pure (.defer node d.currentDefer b)

/-- A condition of an `if` or a `for`, which must be a boolean. -/
def resolveCondition (r : Resolvers) (e : CstExpr) : ResolveM Expr := do
  let c ← r.expr e
  if c.type ≠ .bool then fatal s!"illegal condition with non-boolean type `{c.type.name}`"
  pure c

/-- The conditionals of `resolve_stmt_if`, in order; only the last may lack a condition. -/
def resolveConditionals (r : Resolvers) :
    List (Option CstExpr × List CstStmt) → StmtM (List (Option Expr × Block))
  | [] => pure []
  | (c, body) :: rest => do
    liftCore (require (c.isSome || rest.isEmpty) "resolve_stmt_if")
    let c ← liftCore (c.mapM (resolveCondition r))
    let b ← nestedBlock r body
    pure ((c, b) :: (← resolveConditionals r rest))

/-- A loop body: `is_within_loop` is set and the loop defer is the current defer while the body
is resolved; both are restored after. -/
def loopBody (r : Resolvers) (table : Nat) (body : List CstStmt) : StmtM Block := do
  let d ← getScope
  modifyScope fun d => { d with isWithinLoop := true, currentLoopDefer := d.currentDefer }
  let b ← r.block table body
  modifyScope fun d' => { d' with isWithinLoop := d.isWithinLoop, currentLoopDefer := d.currentLoopDefer }
  pure b

/-- A bound of a range loop, cast to `usize`, which it must then have. -/
def rangeBound (r : Resolvers) (what : String) (e : CstExpr) : ResolveM Expr := do
  let e ← shallowImplicitCast usize (← r.expr e)
  if e.type ≠ usize then
    fatal s!"illegal range-{what}-expression with non-usize type `{e.type.name}`"
  pure e

/-- The loop variable of a range loop: a `usize` local in a new table for the body. Returns the
variable's address, its symbol and the table. -/
def rangeLoopVariable (name : String) : ResolveM (Address × Nat × Nat) := do
  let address ← reserveStorageLocal usize
  let n ← symbolNewVariable name usize address none
  let table ← symbolTableNew (some (← currentTable))
  symbolTableInsert table name n
  pure (address, n, table)

/-- `resolve_stmt_for_range`: the loop variable's slot is released after the body. -/
def resolveStmtForRange (r : Resolvers) (name : String) (b : Option CstExpr) (e : CstExpr)
    (body : List CstStmt) : StmtM Stmt := do
  let b ← liftCore <| match b with
    | some b => rangeBound r "begin" b
    | none => exprNewInteger usize 0
  let e ← liftCore (rangeBound r "end" e)
  let saveRbp := (← get).1.currentRbpOffset
  let (address, _, table) ← liftCore (rangeLoopVariable name)
  let body ← loopBody r table body
  modify fun (s, d) => ({ s with currentRbpOffset := saveRbp }, d)
  pure (.forRange ⟨name, .variable usize address none⟩ b e body)

/-- `resolve_stmt_for_expr`. -/
def resolveStmtForExpr (r : Resolvers) (cond : CstExpr) (body : List CstStmt) : StmtM Stmt := do
  let c ← liftCore (resolveCondition r cond)
  let table ← liftCore (do symbolTableNew (some (← currentTable)))
  pure (.forExpr c (← loopBody r table body))

/-- `resolve_stmt_break`. -/
def resolveStmtBreak : StmtM Stmt := do
  let d ← getScope
  if !d.isWithinLoop then liftCore (fatal "break statement outside of loop")
  pure (.break_ d.currentDefer d.currentLoopDefer)

/-- `resolve_stmt_continue`. -/
def resolveStmtContinue : StmtM Stmt := do
  let d ← getScope
  if !d.isWithinLoop then liftCore (fatal "continue statement outside of loop")
  pure (.continue_ d.currentDefer d.currentLoopDefer)

/-- `resolve_stmt_dump`. -/
def resolveStmtDump (r : Resolvers) (e : CstExpr) : ResolveM Stmt := do
  let e ← r.expr e
  if (← sizeOf e.type) = sizeofUnsized then fatal s!"type `{e.type.name}` has no defined size"
  pure (.dump e)

/-- The return type of a function type. -/
def Ty.returnType : Ty → Ty
  | .function _ r => r
  | _ => .void

/-- The value of `resolve_stmt_return`, cast to the current function's return type; a bare
`return` needs a `void` function. -/
def resolveReturnValue (r : Resolvers) (e : Option CstExpr) : ResolveM (Option Expr) := do
  let (_, fn) ← currentFunctionRecord (← get)
  let rt := fn.type.returnType
  match e with
  | some e => some <$> resolveExprAs r rt e
  | none => do
    if rt ≠ .void then fatal "illegal return statement in function with non-void return type"
    pure none

/-- `resolve_stmt_return`: the value and the current defer. -/
def resolveStmtReturn (r : Resolvers) (e : Option CstExpr) : StmtM Stmt := do
  let e ← liftCore (resolveReturnValue r e)
  pure (.return_ e (← getScope).currentDefer)

/-- `resolve_stmt_assign`. -/
def resolveStmtAssign (r : Resolvers) (lhs rhs : CstExpr) : ResolveM Stmt := do
  let lhs ← r.expr lhs
  let rhs ← r.expr rhs
  if !(← exprIsLvalue lhs) then fatal "left hand side of assignment statement is not an lvalue"
  let rhs ← shallowImplicitCast lhs.type rhs
  checkTypeCompatibility rhs.type lhs.type
  pure (.assign lhs rhs)

/-- `resolve_stmt_expr`. -/
def resolveStmtExpr (r : Resolvers) (e : CstExpr) : ResolveM Stmt := do
  let e ← r.expr e
  if (← sizeOf e.type) = sizeofUnsized then
    fatal s!"statement-expression produces result of unsized type `{e.type.name}`"
  pure (.expr e)

/-- `resolve_stmt`: a local constant or alias declaration yields no statement. -/
def resolveStmt (r : Resolvers) (stmt : CstStmt) : StmtM (Option Stmt) := do
  liftCore (do require (!(← isGlobal)) "resolve_stmt")
  match stmt with
  | .decl d => liftCore (resolveStmtDecl r d)
  | .defer body => some <$> resolveStmtDefer r body
  | .if_ conditionals => do pure (some (.if_ (← resolveConditionals r conditionals)))
  | .forRange name b e body => some <$> resolveStmtForRange r name b e body
  | .forExpr cond body => some <$> resolveStmtForExpr r cond body
  | .break_ => some <$> resolveStmtBreak
  | .continue_ => some <$> resolveStmtContinue
  | .dump e => some <$> liftCore (resolveStmtDump r e)
  | .return_ e => some <$> resolveStmtReturn r e
  | .assign lhs rhs => some <$> liftCore (resolveStmtAssign r lhs rhs)
  | .expr e => some <$> liftCore (resolveStmtExpr r e)

/-- The statement loop of `resolve_block`. -/
def resolveStmts (r : Resolvers) : List CstStmt → StmtM (List Stmt)
  | [] => pure []
  | stmt :: rest => do
    let resolved ← resolveStmt r stmt
    let rest ← resolveStmts r rest
    pure (resolved.toList ++ rest)

/-- `resolve_block`: the statements in `table`; the block's `defer_begin` is the defer in effect
at its end and `defer_end` the one at its start. The current table, `current_rbp_offset` and
`current_defer` are restored. -/
def resolveBlock (r : Resolvers) (table : Nat) (stmts : List CstStmt) : StmtM Block := do
  let (s, d) ← get
  liftCore (require s.currentFunction.isSome "resolve_block")
  set (({ s with currentSymbolTable := table } : Resolver), d)
  let resolved ← resolveStmts r stmts
  let (s', d') ← get
  set (({ s' with currentSymbolTable := s.currentSymbolTable, currentRbpOffset := s.currentRbpOffset }
    : Resolver), { d' with currentDefer := d.currentDefer })
  pure (.mk table resolved d'.currentDefer d.currentDefer)

end Sunder
