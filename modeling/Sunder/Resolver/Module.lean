import Sunder.Resolver.Stmt

/-!
# Modules

`resolvers n` ties the knot of the resolver's five recursive entry points with `n` nested calls
(a call at depth `n` stops with `Fault.fuel`). `resolve` is `resolve(module)`: the module's
namespace (`resolveModuleNamespace`), its imports, its structs (declared first so that structs
may refer to each other, then completed in order), its other declarations, and last the bodies
of its functions.

`resolveProgram` runs the resolver on a program of one module from the initial context.
-/

namespace Sunder

/-- The resolver's entry points with `n` nested calls. -/
def resolvers : Nat → Resolvers
  | 0 => ⟨fun _ => throw .fuel, fun _ => throw .fuel, fun _ _ => throw .fuel, fun _ => throw .fuel,
      fun _ _ => throw .fuel⟩
  | n + 1 =>
    let r := resolvers n
    ⟨resolveExpr r, resolveTypespec r, xgetTemplateInstance r, resolveDecl r, resolveBlock r⟩

theorem resolveDeclConstant_clears_k :
    ∃ n s', resolveDeclConstant (resolvers 2) "k" (some (.symbol false [.mk "usize" []]))
        (.integer 1 "u") { contextInit with isWithinConstDecl := true } = .ok (n, s') ∧
      s'.isWithinConstDecl = false := by
  obtain ⟨n, s', h⟩ : ∃ n s', resolveDeclConstant (resolvers 2) "k"
      (some (.symbol false [.mk "usize" []])) (.integer 1 "u")
      { contextInit with isWithinConstDecl := true } = .ok (n, s') := ⟨_, _, rfl⟩
  exact ⟨n, s', h, resolveDeclConstant_clears_isWithinConstDecl h⟩

/-- Two struct types named `Node` (`a::Node`, number 0, and `b::Node`, number 1): `Box[[Node]]`
resolved in `b` returns the instance cached for `a::Node`. -/
theorem xgetTemplateInstance_cached_by_name_node :
    let s : Resolver := { contextInit with
      symbols := contextInit.symbols ++ [⟨"Node", .type (.struct_ "Node" 1)⟩,
        ⟨"Box[[Node]]", .type (.struct_ "Box[[Node]]" 2)⟩,
        ⟨"Box", .template (.struct_ "Box" ["T"] []) none 1 2⟩]
      tables := contextInit.tables ++
        [⟨some 0, [("Node", 14), ("Box", 16)]⟩, ⟨none, [("Box[[Node]]", 15)]⟩]
      currentSymbolTable := 1 }
    [CstTypespec.symbol false [.mk "Node" []]].mapM (resolvers 1).typespec s =
        .ok ([.struct_ "Node" 1], s) ∧
      Ty.struct_ "Node" 1 ≠ .struct_ "Node" 0 ∧
      s.lookup 2 (templateInstanceName "Box" [.struct_ "Node" 0]) = some 15 ∧
      xgetTemplateInstance (resolvers 1) 16 [.symbol false [.mk "Node" []]] s = .ok (15, s) := by
  intro s
  have ht : [CstTypespec.symbol false [.mk "Node" []]].mapM (resolvers 1).typespec s =
      .ok ([.struct_ "Node" 1], s) := rfl
  have hn : [Ty.struct_ "Node" 1].map Ty.name = [Ty.struct_ "Node" 0].map Ty.name := rfl
  have hc : s.lookup 2 (templateInstanceName "Box" [.struct_ "Node" 0]) = some 15 := rfl
  exact ⟨ht, by decide, hc,
    xgetTemplateInstance_cached_by_name rfl (List.cons_ne_nil _ _) rfl ht hn hc⟩

/-- `qualified_name(prefix, name)`: `prefix::name`. -/
def qualifiedName (pfx : Option String) (name : String) : String :=
  match pfx with
  | some p => p ++ "::" ++ name
  | none => name

/-- `qualified_addr(prefix, name)`: `prefix.name`. -/
def qualifiedAddr (pfx : Option String) (name : String) : String :=
  match pfx with
  | some p => p ++ "." ++ name
  | none => name

/-- Modelled from the spec: `module_new` (not under `src/`) gives a module a symbol table under
the global table and an export table. -/
def moduleNew : ResolveM (Nat × Nat) := do
  let symbols ← symbolTableNew (some globalSymbolTable)
  let exports ← symbolTableNew none
  pure (symbols, exports)

/-- `resolver_new(module)`: a resolver at the module's top level (the defer scope starts anew in
each function body, `DeferScope.init`). -/
def resolverNew (symbols exports : Nat) : ResolveM Unit :=
  modify fun s => { s with
    moduleSymbols := symbols
    currentStaticAddrPrefix := none
    currentFunction := none
    currentSymbolTable := symbols
    currentExportTable := exports
    currentRbpOffset := 0
    isWithinConstDecl := false
    incompleteFunctions := [] }

/-- The namespace loop of `resolve`: for each identifier a table under the current one and a
namespace symbol named by the qualified name, in both the symbol and the export table (both
symbols refer to the module table). Returns the static-address prefix `a.b.c`. -/
def enterNamespace (nsname nsaddr : Option String) : List String → ResolveM (Option String)
  | [] => pure nsaddr
  | name :: rest => do
    let nsname := qualifiedName nsname name
    let nsaddr := qualifiedAddr nsaddr name
    let s ← get
    let moduleTable ← symbolTableNew (some s.currentSymbolTable)
    let exportTable ← symbolTableNew (some s.currentExportTable)
    let moduleNs ← newSymbol ⟨nsname, .namespace_ moduleTable⟩
    let exportNs ← newSymbol ⟨nsname, .namespace_ moduleTable⟩
    symbolTableInsert s.currentSymbolTable name moduleNs
    symbolTableInsert s.currentExportTable name exportNs
    modify fun s => { s with currentSymbolTable := moduleTable, currentExportTable := exportTable }
    enterNamespace (some nsname) (some nsaddr) rest

/-- A top-level symbol of a module without a namespace is also inserted into the export table
and the global table under its bare name. -/
def exportTopLevel (isNamespaced : Bool) (name : String) (sym : Nat) : ResolveM Unit := do
  unless isNamespaced do
    symbolTableInsert (← get).currentExportTable name sym
    symbolTableInsert globalSymbolTable name sym

/-- The first loop over the ordered declarations: every struct is declared. -/
def declareStructs (isNamespaced : Bool) : List CstDecl → ResolveM Unit
  | [] => pure ()
  | d :: rest => do
    if d matches .struct_ _ _ _ then
      let sym ← resolveDeclStruct d
      exportTopLevel isNamespaced (← getSymbol sym).name sym
    declareStructs isNamespaced rest

/-- One declaration of the second loop: a struct declared in the first loop is completed
(a template is left alone); another declaration is resolved. -/
def resolveTopLevel (r : Resolvers) (isNamespaced : Bool) (d : CstDecl) : ResolveM Unit := do
  match d with
  | .struct_ name _ _ =>
    let sym ← match (← get).lookupLocal (← currentTable) name with
      | some sym => pure sym
      | none => throw (.internal "resolve: struct")
    match (← getSymbol sym).kind with
    | .type => completeStruct r sym d
    | .template => pure ()
    | _ => throw (.internal "resolve: struct kind")
  | _ =>
    let sym ← resolveDecl r d
    exportTopLevel isNamespaced d.name sym

/-- The last loop of `resolve`: the incomplete functions in order, including those added while
the loop runs (template instances used in a body), with at most `fuel` iterations. -/
def completeFunctions (r : Resolvers) : Nat → Nat → ResolveM Unit
  | 0, _ => throw .fuel
  | fuel + 1, i => do
    match (← get).incompleteFunctions[i]? with
    | none => pure ()
    | some inc =>
      completeFunction r inc
      completeFunctions r fuel (i + 1)

/-- The start of `resolve(module)`, up to its imports: the module's symbol and export tables,
`resolver_new(module)` and the module namespace. Returns the two tables. -/
def resolveModuleNamespace (m : CstModule) : ResolveM (Nat × Nat) := do
  let (symbols, exports) ← moduleNew
  resolverNew symbols exports
  if !m.namespace_.isEmpty then
    let pfx ← enterNamespace none none m.namespace_
    modify fun s => { s with currentStaticAddrPrefix := pfx }
  pure (symbols, exports)

/-- `resolve(module)`, with `resolveImport` for `resolve_import` and at most `fuel` function
bodies. -/
def resolve (r : Resolvers) (fuel : Nat) (resolveImport : String → ResolveM Unit) (m : CstModule) :
    ResolveM Unit := do
  let _ ← resolveModuleNamespace m
  let isNamespaced := !m.namespace_.isEmpty
  m.imports.forM resolveImport
  declareStructs isNamespaced m.ordered
  m.ordered.forM (resolveTopLevel r isNamespaced)
  completeFunctions r fuel 0

/-- The resolver run on a program of one module, from the initial context, with `n` nested
calls and at most `n` function bodies. A program of one module has nothing to import. -/
def resolveProgram (n : Nat) (m : CstModule) : Except Fault Resolver :=
  (resolve (resolvers n) n (fun path => fatal s!"failed to resolve import `{path}`") m).run
    contextInit |>.map (·.2)

end Sunder
