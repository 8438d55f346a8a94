import Sunder.Resolver.Decl

/-!
# Template instantiation

`xgetTemplateInstance` is `xget_template_instance`: the argument types are resolved in the
calling scope, the instance is named `S[[t1, t2]]` from the argument types' names, and that name
is looked up in the template's cache. On a miss the declaration is resolved again with the
template parameters bound to the argument types, under the template's own prefix and table; a
struct instance is cached before its members are completed, so that a member referring to the
instance finds it.

The cache is keyed by names, and a struct type is named by its bare declaration name: two
argument lists of distinct struct types with one name share one cache entry.
-/

namespace Sunder

/-- The mangled instance name `name[[t1, t2, ...]]`. -/
def templateInstanceName (name : String) (ts : List Ty) : String :=
  name ++ "[[" ++ ", ".intercalate (ts.map Ty.name) ++ "]]"

/-- The instance's symbol table: each template parameter bound to a type symbol of its argument,
and the template itself under its own name. -/
def instanceSymbolTable (parent : Nat) (tparams : List String) (types : List Ty)
    (template : Nat) (templateName : String) : ResolveM Nat := do
  let table ← symbolTableNew (some parent)
  (tparams.zip types).forM fun (p, t) => do
    symbolTableInsert table p (← newSymbol ⟨t.name, .type t⟩)
  symbolTableInsert table templateName template
  pure table

/-- Resolve a declaration with the static-address prefix and the current table swapped in, then
restore both. -/
def withScope {α : Type} (pfx : Option String) (table : Nat) (x : ResolveM α) : ResolveM α := do
  let s ← get
  modify fun s => { s with currentStaticAddrPrefix := pfx, currentSymbolTable := table }
  let a ← x
  modify fun s' => { s' with
    currentStaticAddrPrefix := s.currentStaticAddrPrefix
    currentSymbolTable := s.currentSymbolTable }
  pure a

/-- The part of `xget_template_instance` after the kind and arity checks: resolve the arguments,
look the mangled name up in the cache, and on a miss resolve, cache and (for a struct) complete
the instance. -/
def instantiate (r : Resolvers) (template : Nat) (templateName : String) (addrPrefix : Option String)
    (parent instances : Nat) (tparams : List String) (targs : List CstTypespec)
    (instanceDecl : String → CstDecl) : ResolveM Nat := do
  if tparams.length ≠ targs.length then
    fatal s!"expected {tparams.length} template argument(s) for template `{templateName}` (received {targs.length})"
  let types ← targs.mapM r.typespec
  let name := templateInstanceName templateName types
  if let some existing := (← get).lookup instances name then return existing
  let table ← instanceSymbolTable parent tparams types template templateName
  let decl := instanceDecl name
  match decl with
  | .function _ _ _ _ _ =>
    let resolved ← withScope addrPrefix table (resolveDeclFunction r decl)
    require ((← getSymbol resolved).kind == .function) "xget_template_instance: function"
    symbolTableInsert instances name resolved
    pure resolved
  | _ =>
    let resolved ← withScope addrPrefix table (resolveDeclStruct decl)
    require ((← getSymbol resolved).kind == .type) "xget_template_instance: struct"
    symbolTableInsert instances name resolved
    completeStruct r resolved decl
    pure resolved

/-- `xget_template_instance`. -/
def xgetTemplateInstance (r : Resolvers) (sym : Nat) (targs : List CstTypespec) :
    ResolveM Nat := do
  let symbol ← getSymbol sym
  match symbol.data with
  | .type _ => fatal s!"attempted template instantiation of non-template type `{symbol.name}`"
  | .variable _ _ _ => fatal s!"attempted template instantiation of variable `{symbol.name}`"
  | .constant _ _ _ => fatal s!"attempted template instantiation of constant `{symbol.name}`"
  | .function _ _ _ => fatal s!"attempted template instantiation of function `{symbol.name}`"
  | .namespace_ _ => fatal s!"attempted template instantiation of namespace `{symbol.name}`"
  | .template decl addrPrefix parent instances =>
    if targs.isEmpty then
      fatal s!"template instantiation of `{symbol.name}` requires a template argument list"
    match decl with
    | .function _ tparams params ret body =>
      instantiate r sym symbol.name addrPrefix parent instances tparams targs
        fun name => .function name [] params ret body
    | .struct_ _ tparams members =>
      instantiate r sym symbol.name addrPrefix parent instances tparams targs
        fun name => .struct_ name [] members
    | _ => throw (.internal "xget_template_instance")

/-- On a cache hit nothing is resolved again: the arguments are resolved and the cached symbol is
returned. The cache is looked up by the arguments' names, so arguments whose types only share
their names with those of the cached instance hit it too. -/
theorem instantiate_cached_by_name {r : Resolvers} {template : Nat} {templateName : String}
    {addrPrefix : Option String} {parent instances : Nat} {tparams : List String}
    {targs : List CstTypespec} {instanceDecl : String → CstDecl} {types₁ types₂ : List Ty}
    {existing : Nat} {s s₁ : Resolver} (harity : tparams.length = targs.length)
    (ht : targs.mapM r.typespec s = .ok (types₂, s₁)) (hn : types₂.map Ty.name = types₁.map Ty.name)
    (hc : s₁.lookup instances (templateInstanceName templateName types₁) = some existing) :
    instantiate r template templateName addrPrefix parent instances tparams targs instanceDecl s =
      .ok (existing, s₁) := by
  have hname : templateInstanceName templateName types₂ =
      templateInstanceName templateName types₁ := by
    simp only [templateInstanceName, hn]
  simp only [instantiate, harity, ne_eq, not_true_eq_false, ResolveM.ite_fatal_ok, true_and,
    ResolveM.bind_ok]
  refine ⟨not_false, types₂, s₁, ht, s₁, s₁, ResolveM.get_ok.2 ⟨rfl, rfl⟩, ?_⟩
  simp only [hname, hc]
  rfl

/-- A struct template instantiated with arguments whose resolved types have the names of the
types of a cached instance returns that instance, whether or not the types are the same. -/
theorem xgetTemplateInstance_cached_by_name {r : Resolvers} {sym : Nat} {targs : List CstTypespec}
    {name : String} {tparams : List String} {members : List CstMember} {addrPrefix : Option String}
    {parent instances : Nat} {types₁ types₂ : List Ty} {existing : Nat} {s s₁ : Resolver}
    (hsym : s.symbol? sym = some ⟨name, .template (.struct_ name tparams members) addrPrefix parent
      instances⟩)
    (hne : targs ≠ []) (harity : tparams.length = targs.length)
    (ht : targs.mapM r.typespec s = .ok (types₂, s₁)) (hn : types₂.map Ty.name = types₁.map Ty.name)
    (hc : s₁.lookup instances (templateInstanceName name types₁) = some existing) :
    xgetTemplateInstance r sym targs s = .ok (existing, s₁) := by
  unfold xgetTemplateInstance
  refine ResolveM.bind_ok.2
    ⟨⟨name, .template (.struct_ name tparams members) addrPrefix parent instances⟩, s, ?_, ?_⟩
  · exact getSymbol_ok.2 ⟨hsym, rfl⟩
  · have he : targs.isEmpty = false := List.isEmpty_eq_false.2 hne
    simp only [he, Bool.false_eq_true, if_false]
    exact ResolveM.bind_ok.2 ⟨(), s, rfl, instantiate_cached_by_name harity ht hn hc⟩

end Sunder
