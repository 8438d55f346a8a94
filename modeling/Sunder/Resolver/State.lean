import Sunder.ImplicitCast

/-!
# The resolver's state

`Resolver` joins `struct resolver` of `resolve.c` with the parts of `context()` the resolver
writes: the symbols, the symbol tables, the struct types and the functions it creates are kept
in arenas and referred to by number, so that the identity comparisons of the source
(`existing != symbol`, the template cache returning "the same symbol") are comparisons of
numbers. Expressions, typespecs and declarations are resolved in the state-and-error monad
`ResolveM` over it.

The four fields of `struct resolver` that only statements read and write (`current_defer`,
`current_loop_defer`, `is_within_loop`, and the defer nodes made so far) are a separate record
`DeferScope`, and statements are resolved in `StmtM` over both. An expression is lifted into
`StmtM` by `liftCore`, which leaves the scope as it was: that expressions and declarations do not
touch the defer chain holds by their type.

Code of this repository that `resolve.c` calls but that `src/` holds only in an older version
(the four-argument `symbol_table_insert`, the `elements` of a symbol table, the member tables of
types, `stmt_new_defer`, `block_new`) is modelled from the spec.

* `ResolveM.bind_ok`: the inversion lemma every proof about a resolver function starts from.
* `Resolver.lookup`: `symbol_table_lookup`, which climbs the parent tables.
-/

namespace Sunder

/-- Modelled from the spec: `struct symbol_table` as `resolve.c` reads it, the parent table and
the ordered `elements` (name, symbol number). -/
structure SymbolTable where
  parent : Option Nat
  elements : List (String × Nat)

/-- `struct member_variable`: a member of a struct and its byte offset. -/
structure MemberVariable where
  name : String
  type : Ty
  offset : Nat

/-- Modelled from the spec: the struct type `type_new_struct` creates (not under `src/`), with its
member table, its member variables in declaration order, its size and its alignment. -/
structure StructType where
  name : String
  symbols : Nat
  memberVariables : List MemberVariable
  size : Nat
  align : Nat

mutual

/-- The resolved statements (`struct stmt`). A defer node is numbered; its `prev` is the defer
node in effect before it. -/
inductive Stmt where
  | defer (node : Nat) (prev : Option Nat) (body : Block)
  | if_ (conditionals : List (Option Expr × Block))
  | forRange (loopVariable : Symbol) (b e : Expr) (body : Block)
  | forExpr (cond : Expr) (body : Block)
  | break_ (defer_ loopDefer : Option Nat)
  | continue_ (defer_ loopDefer : Option Nat)
  | dump (e : Expr)
  | return_ (e : Option Expr) (defer_ : Option Nat)
  | assign (lhs rhs : Expr)
  | expr (e : Expr)

/-- `struct block`: its symbol table, statements, the defer node in effect at its end
(`defer_begin`, where unwinding starts) and at its start (`defer_end`, where it stops). -/
inductive Block where
  | mk (symbolTable : Nat) (stmts : List Stmt) (deferBegin deferEnd : Option Nat)

end

/-- `struct function`. -/
structure Function where
  name : String
  type : Ty
  address : Address
  symbolParameters : List Nat
  symbolReturn : Nat
  symbolTable : Nat
  body : Option Block
  localStackOffset : Int

/-- `struct incomplete_function`: a function whose body is resolved at the end of the module. -/
structure IncompleteFunction where
  decl : CstDecl
  function : Nat
  symbolTable : Nat

/-- `struct resolver` and the parts of `context()` the resolver reads and writes. -/
structure Resolver where
  symbols : List Symbol
  tables : List SymbolTable
  structs : List StructType
  /-- The member table of each non-struct type that has one (`type->symbols`). -/
  typeTables : List (Ty × Nat)
  functions : List Function
  /-- `context()->static_symbols`, in registration order. -/
  staticSymbols : List Nat
  /-- The `static size_t id` of `resolve_expr_list`. -/
  sliceListCount : Nat
  /-- `resolver->module->symbols`. -/
  moduleSymbols : Nat
  currentStaticAddrPrefix : Option String
  currentFunction : Option Nat
  currentSymbolTable : Nat
  currentExportTable : Nat
  currentRbpOffset : Int
  isWithinConstDecl : Bool
  incompleteFunctions : List IncompleteFunction

/-- `context()->global_symbol_table`: the first table. -/
def globalSymbolTable : Nat := 0

/-- Modelled from the spec: the builtin types `context_init` (not under `src/`) registers in
the global symbol table, each under its name. -/
def builtinTypes : List Ty :=
  [.void, .bool, .byte, .int .u8, .int .s8, .int .u16, .int .s16, .int .u32, .int .s32, .int .u64,
    .int .s64, .int .usize, .int .ssize, .any]

/-- The state before the first module is resolved: the global table holds the builtin types. -/
def contextInit : Resolver where
  symbols := builtinTypes.map fun t => ⟨t.name, .type t⟩
  tables := [⟨none, builtinTypes.enum.map fun (i, t) => (t.name, i)⟩]
  structs := []
  typeTables := []
  functions := []
  staticSymbols := []
  sliceListCount := 0
  moduleSymbols := globalSymbolTable
  currentStaticAddrPrefix := none
  currentFunction := none
  currentSymbolTable := globalSymbolTable
  currentExportTable := globalSymbolTable
  currentRbpOffset := 0
  isWithinConstDecl := false
  incompleteFunctions := []

/-- The resolver: a computation over the state that may stop with a `Fault`. -/
abbrev ResolveM := StateT Resolver (Except Fault)

/-- The statement-level fields of `struct resolver`: the `prev` of each defer node made so far,
`current_defer`, `current_loop_defer` and `is_within_loop`. -/
structure DeferScope where
  defers : List (Option Nat)
  currentDefer : Option Nat
  currentLoopDefer : Option Nat
  isWithinLoop : Bool

/-- The scope when a function body is resolved: `complete_function` runs at the top level,
where no defer is current and no loop encloses it. -/
def DeferScope.init : DeferScope := ⟨[], none, none, false⟩

/-- The resolution of statements. -/
abbrev StmtM := StateT (Resolver × DeferScope) (Except Fault)

/-- An expression-level computation run inside a statement; the scope is left as it was. -/
def liftCore {α : Type} (x : ResolveM α) : StmtM α := fun (s, d) =>
  (x s).map fun (a, s') => (a, (s', d))

instance : MonadLift ResolveM StmtM := ⟨liftCore⟩

/-- A function body resolved from the initial scope. -/
def runBody {α : Type} (x : StmtM α) : ResolveM α := fun s =>
  (x (s, .init)).map fun (a, (s', _)) => (a, s')

/-- `fatal(location, ...)`. -/
def fatal {α : Type} (msg : String) : ResolveM α := throw (.fatal msg)

/-- `assert(c)` in the resolver. -/
def require (c : Bool) (site : String) : ResolveM Unit := if c then pure () else throw (.internal site)

/-! ## Binds -/

theorem ResolveM.bind_ok {α β : Type} {x : ResolveM α} {f : α → ResolveM β} {s s' : Resolver}
    {b : β} : (x >>= f) s = .ok (b, s') ↔ ∃ a s₁, x s = .ok (a, s₁) ∧ f a s₁ = .ok (b, s') := by
  simp only [bind, StateT.bind, Except.bind]
  rcases x s with e | ⟨a, s₁⟩ <;> simp [and_assoc]

@[simp] theorem ResolveM.pure_ok {α : Type} {a b : α} {s s' : Resolver} :
    (pure a : ResolveM α) s = .ok (b, s') ↔ a = b ∧ s = s' := by
  simp [pure, StateT.pure, Except.pure, and_comm, eq_comm]

@[simp] theorem ResolveM.fatal_ok {α : Type} {msg : String} {s s' : Resolver} {b : α} :
    (fatal msg : ResolveM α) s = .ok (b, s') ↔ False := by
  simp [fatal, throw, throwThe, MonadExceptOf.throw, StateT.lift, bind, Except.bind]

/-- The shape `if c then fatal ...` takes in a `do` block followed by more code. -/
@[simp] theorem ResolveM.ite_fatal_ok {α : Type} {c : Prop} [Decidable c] {msg : String}
    {k : ResolveM α} {a : α} {s s' : Resolver} :
    (if c then (fatal msg >>= fun (_ : PUnit) => k) else (pure PUnit.unit >>= fun _ => k)) s =
      .ok (a, s') ↔ ¬c ∧ k s = .ok (a, s') := by
  by_cases hc : c <;> simp [hc, ResolveM.bind_ok]

@[simp] theorem ResolveM.require_ok {c : Bool} {site : String} {s s' : Resolver} {u : Unit} :
    require c site s = .ok (u, s') ↔ c = true ∧ s = s' := by
  cases c <;> simp [require, throw, throwThe, MonadExceptOf.throw, StateT.lift, bind,
    Except.bind, pure, StateT.pure, Except.pure]

@[simp] theorem ResolveM.get_ok {a s s' : Resolver} :
    (get : ResolveM Resolver) s = .ok (a, s') ↔ a = s ∧ s' = s := by
  simp [get, getThe, MonadStateOf.get, StateT.get, pure, Except.pure, and_comm, eq_comm]

@[simp] theorem ResolveM.set_ok {t s s' : Resolver} {u : PUnit} :
    (set t : ResolveM PUnit) s = .ok (u, s') ↔ s' = t := by
  simp [set, StateT.set, pure, Except.pure, eq_comm]

@[simp] theorem ResolveM.modifyGet_ok {α : Type} {f : Resolver → α × Resolver} {a : α}
    {s s' : Resolver} : (modifyGet f : ResolveM α) s = .ok (a, s') ↔ f s = (a, s') := by
  simp [modifyGet, MonadStateOf.modifyGet, StateT.modifyGet, pure, Except.pure, eq_comm]

@[simp] theorem ResolveM.modify_ok {f : Resolver → Resolver} {s s' : Resolver} {u : PUnit} :
    (modify f : ResolveM PUnit) s = .ok (u, s') ↔ s' = f s := by
  simp [modify, modifyGet, MonadStateOf.modifyGet, StateT.modifyGet, pure, Except.pure, eq_comm]

@[simp] theorem ResolveM.lift_ok {α : Type} {x : Except Fault α} {a : α} {s s' : Resolver} :
    (monadLift x : ResolveM α) s = .ok (a, s') ↔ x = .ok a ∧ s' = s := by
  cases x <;> simp [monadLift, MonadLift.monadLift, StateT.lift, bind, Except.bind, pure,
    Except.pure, and_comm, eq_comm]

theorem ResolveM.bind_of_ok {α β : Type} {x : ResolveM α} {f : α → ResolveM β} {s s₁ : Resolver}
    {a : α} (h : x s = .ok (a, s₁)) : (x >>= f) s = f a s₁ := by
  simp [bind, StateT.bind, Except.bind, h]

theorem ResolveM.bind_of_error {α β : Type} {x : ResolveM α} {f : α → ResolveM β} {s : Resolver}
    {e : Fault} (h : x s = .error e) : (x >>= f) s = .error e := by
  simp [bind, StateT.bind, Except.bind, h]

theorem ResolveM.mapM_length {α β : Type} {f : α → ResolveM β} :
    ∀ {l : List α} {bs : List β} {s s' : Resolver}, l.mapM f s = .ok (bs, s') → bs.length = l.length
  | [], _, _, _, h => by
    obtain ⟨rfl, -⟩ := ResolveM.pure_ok.1 h
    rfl
  | _ :: _, _, _, _, h => by
    rw [List.mapM_cons] at h
    obtain ⟨_, _, -, h⟩ := ResolveM.bind_ok.1 h
    obtain ⟨_, _, hm, h⟩ := ResolveM.bind_ok.1 h
    obtain ⟨rfl, -⟩ := ResolveM.pure_ok.1 h
    simp [ResolveM.mapM_length hm]

/-- An entry of a list is an entry of every list it is a prefix of. -/
theorem getElem?_of_isPrefixOf {α : Type} {l l' : List α} {n : Nat} {a : α}
    (hp : l <+: l') (h : l[n]? = some a) : l'[n]? = some a := by
  obtain ⟨t, rfl⟩ := hp
  rw [List.getElem?_append_left (List.getElem?_eq_some_iff.1 h).1, h]

/-! ## Arenas -/

namespace Resolver

/-- `symbol_table_lookup_local`. -/
def lookupLocal (s : Resolver) (t : Nat) (name : String) : Option Nat :=
  (s.tables[t]?.bind fun tbl => tbl.elements.find? (·.1 == name)).map (·.2)

/-- The transitive lookup from table `t`, climbing at most `fuel` parent links. -/
def lookupAux (s : Resolver) (name : String) : Nat → Nat → Option Nat
  | 0, _ => none
  | fuel + 1, t => match s.lookupLocal t name with
    | some n => some n
    | none => s.tables[t]?.bind (·.parent) |>.bind (s.lookupAux name fuel)

/-- `symbol_table_lookup`: a table's parent is created before it, so the parent chain of a
table has at most as many links as there are tables. -/
def lookup (s : Resolver) (t : Nat) (name : String) : Option Nat :=
  s.lookupAux name s.tables.length t

/-- The symbol numbered `n`. -/
def symbol? (s : Resolver) (n : Nat) : Option Symbol := s.symbols[n]?

/-- The size of each struct declaration, as `Ty.size` reads it. -/
def structSize (s : Resolver) (id : Nat) : Nat := (s.structs[id]?.map (·.size)).getD 0

end Resolver

/-- The symbol numbered `n` (every number the resolver hands out names a symbol). -/
def getSymbol (n : Nat) : ResolveM Symbol := do
  match (← get).symbol? n with
  | some sym => pure sym
  | none => throw (.internal "symbol")

/-- `symbol_new_*` followed by `freeze`: the new symbol's number. -/
def newSymbol (sym : Symbol) : ResolveM Nat :=
  modifyGet fun s => (s.symbols.length, { s with symbols := s.symbols ++ [sym] })

/-- `symbol_table_new(parent)`: the new table's number. -/
def symbolTableNew (parent : Option Nat) : ResolveM Nat :=
  modifyGet fun s => (s.tables.length, { s with tables := s.tables ++ [⟨parent, []⟩] })

/-- Modelled from the spec: the four-argument `symbol_table_insert` of `resolve.c` (`src/tir.c`
holds an older three-argument one). Inserting under a name bound locally to another symbol is a
redeclaration; inserting the same symbol again changes nothing. The fourth argument of the
source plays no part in what the spec says insertion does. -/
def symbolTableInsert (t : Nat) (name : String) (sym : Nat) : ResolveM Unit := do
  let s ← get
  match s.lookupLocal t name with
  | some existing =>
    if existing = sym then pure () else fatal s!"redeclaration of `{name}`"
  | none =>
    match s.tables[t]? with
    | some tbl =>
      set { s with tables := s.tables.set t { tbl with elements := tbl.elements ++ [(name, sym)] } }
    | none => throw (.internal "symbol_table_insert")

/-- A transitive lookup that finds nothing found nothing locally. -/
theorem Resolver.lookupLocal_of_lookup_none {s : Resolver} {t : Nat} {name : String}
    (h : s.lookup t name = none) : s.lookupLocal t name = none := by
  unfold Resolver.lookup at h
  rcases hl : s.tables.length with _ | fuel
  · simp [Resolver.lookupLocal, List.getElem?_eq_none (by omega : s.tables.length ≤ t)]
  · rw [hl] at h
    simp only [Resolver.lookupAux] at h
    split at h
    · cases h
    · assumption

/-- A local hit is a transitive hit. -/
theorem Resolver.lookup_of_lookupLocal {s : Resolver} {t n : Nat} {name : String}
    (h : s.lookupLocal t name = some n) : s.lookup t name = some n := by
  have ht : t < s.tables.length := by
    by_contra hc
    simp [Resolver.lookupLocal, List.getElem?_eq_none (by omega : s.tables.length ≤ t)] at h
  unfold Resolver.lookup
  obtain ⟨fuel, hf⟩ : ∃ fuel, s.tables.length = fuel + 1 := ⟨_, (Nat.succ_pred_eq_of_pos (by omega)).symm⟩
  rw [hf]
  simp [Resolver.lookupAux, h]

/-! ## Statement-level binds -/

theorem StmtM.bind_ok {α β : Type} {x : StmtM α} {f : α → StmtM β} {p p' : Resolver × DeferScope}
    {b : β} : (x >>= f) p = .ok (b, p') ↔ ∃ a p₁, x p = .ok (a, p₁) ∧ f a p₁ = .ok (b, p') := by
  simp only [bind, StateT.bind, Except.bind]
  rcases x p with e | ⟨a, p₁⟩ <;> simp [and_assoc]

@[simp] theorem StmtM.pure_ok {α : Type} {a b : α} {p p' : Resolver × DeferScope} :
    (pure a : StmtM α) p = .ok (b, p') ↔ a = b ∧ p = p' := by
  simp [pure, StateT.pure, Except.pure, and_comm, eq_comm]

@[simp] theorem StmtM.get_ok {a p p' : Resolver × DeferScope} :
    (get : StmtM (Resolver × DeferScope)) p = .ok (a, p') ↔ a = p ∧ p' = p := by
  simp [get, getThe, MonadStateOf.get, StateT.get, pure, Except.pure, and_comm, eq_comm]

@[simp] theorem StmtM.set_ok {t p p' : Resolver × DeferScope} {u : PUnit} :
    (set t : StmtM PUnit) p = .ok (u, p') ↔ p' = t := by
  simp [set, StateT.set, pure, Except.pure, eq_comm]

@[simp] theorem StmtM.modifyGet_ok {α : Type} {f : Resolver × DeferScope → α × (Resolver × DeferScope)}
    {a : α} {p p' : Resolver × DeferScope} :
    (modifyGet f : StmtM α) p = .ok (a, p') ↔ f p = (a, p') := by
  simp [modifyGet, MonadStateOf.modifyGet, StateT.modifyGet, pure, Except.pure, eq_comm]

theorem StmtM.map_ok {α β : Type} {f : α → β} {x : StmtM α} {b : β} {p p' : Resolver × DeferScope} :
    (f <$> x) p = .ok (b, p') ↔ ∃ a, x p = .ok (a, p') ∧ f a = b := by
  simp only [Functor.map, StateT.map, bind, Except.bind, pure, Except.pure]
  rcases x p with e | ⟨a, p₁⟩
  · simp
  · simp only [Except.ok.injEq, Prod.mk.injEq]
    exact ⟨fun ⟨h₁, h₂⟩ => ⟨a, ⟨rfl, h₂⟩, h₁⟩, fun ⟨_, ⟨rfl, h₂⟩, h₁⟩ => ⟨h₁, h₂⟩⟩

@[simp] theorem liftCore_ok {α : Type} {x : ResolveM α} {a : α} {s s' : Resolver}
    {d d' : DeferScope} : liftCore x (s, d) = .ok (a, (s', d')) ↔ x s = .ok (a, s') ∧ d' = d := by
  unfold liftCore
  rcases h : x s with e | ⟨b, s₁⟩ <;> simp [Except.map, h, and_assoc, eq_comm]

theorem getSymbol_ok {n : Nat} {sym : Symbol} {s s' : Resolver} :
    getSymbol n s = .ok (sym, s') ↔ s.symbol? n = some sym ∧ s' = s := by
  show (match s.symbol? n with
    | some sym => pure sym
    | none => throw (.internal "symbol") : ResolveM Symbol) s = _ ↔ _
  rcases s.symbol? n with _ | sym' <;>
    simp [throw, throwThe, MonadExceptOf.throw, StateT.lift, bind, Except.bind, pure, StateT.pure,
      Except.pure, and_comm, eq_comm]

theorem newSymbol_ok {sym : Symbol} {n : Nat} {s s' : Resolver} :
    newSymbol sym s = .ok (n, s') ↔ n = s.symbols.length ∧ s' = { s with symbols := s.symbols ++ [sym] } := by
  simp only [newSymbol, ResolveM.modifyGet_ok, Prod.mk.injEq]
  exact and_congr eq_comm eq_comm

theorem symbolTableNew_ok {parent : Option Nat} {t : Nat} {s s' : Resolver} :
    symbolTableNew parent s = .ok (t, s') ↔
      t = s.tables.length ∧ s' = { s with tables := s.tables ++ [⟨parent, []⟩] } := by
  simp only [symbolTableNew, ResolveM.modifyGet_ok, Prod.mk.injEq]
  exact and_congr eq_comm eq_comm

end Sunder
