import Sunder.Resolver.Module
import Sunder.EvalAccess
/-!
# Literals: signs, constant folding and array lists

What the resolver makes of literals, followed into `eval_rvalue`.

* `resolveExpr_sign_untyped`: a sign is folded into its operand only when the operand is written
  as an integer literal (`resolve_expr_unary`). Before any other untyped operand, such as
  `-(5)`, the result is an untyped `Unary` node, and casting it to a byte or sized integer type
  fails the assertion of `shallow_implicit_cast` that untyped values are literals.
* `resolveExpr_bitwise_byte_literals`: `|`, `^` and `&` on two byte literals are folded, but
  `eval_rvalue` gives a byte, and the fold asserts an integer (`foldInteger`).
  `resolveExprBinaryArithmetic_untyped` is the untyped case: `eval_rvalue` of `src/eval.c`
  asserts a sized integer type for every integer literal, so no untyped fold succeeds.
* `resolveExpr_arrayList_ellipsis`: with an ellipsis, `resolve_expr_list` accepts an array list
  of any number of elements; `eval_rvalue` builds the array only when there are at most `count`.
-/

namespace Sunder

/-! ## Signs before untyped operands -/

/-- **A sign before an untyped operand that is not written as a literal** gives an untyped node
that is not a literal; every cast of it to a byte or sized integer type fails. -/
theorem resolveExpr_sign_untyped {r : Resolvers} {op : Token} {uop : Uop} {rhs : CstExpr}
    {e : Expr} {s s' : Resolver} (hop : (op = .plus ∧ uop = .pos) ∨ (op = .dash ∧ uop = .neg))
    (hlit : ∀ value suffix, rhs ≠ .integer value suffix)
    (hr : r.expr rhs s = .ok (e, s')) (he : e.type = .integer) :
    resolveExpr r (.unary op rhs) s = .ok (.unary .integer uop e, s') ∧
      ∀ t, (t = .byte ∨ ∃ k, t = .int k) →
        shallowImplicitCast t (.unary .integer uop e) =
          .error (.internal "shallow_implicit_cast: EXPR_INTEGER") := by
  refine ⟨?_, fun t ht => shallowImplicitCast_untyped_nonliteral ht rfl fun _ _ => Expr.noConfusion⟩
  show resolveExprUnary r op rhs s = _
  rw [resolveExprUnary_of_ok (fun _ => hlit) hr]
  rcases hop with ⟨rfl, rfl⟩ | ⟨rfl, rfl⟩ <;>
    simp only [resolveExprUnaryOp, resolveExprUnaryArithmetic, he] <;> rfl

/-- `-(5)`: the grouped literal is resolved, then negated as an untyped node. -/
theorem resolveExpr_sign_untyped_neg_five :
    resolveExpr (resolvers 2) (.unary .dash (.grouped (.integer 5 ""))) contextInit =
        .ok (.unary .integer .neg (.integer .integer 5), contextInit) ∧
      ∀ t, (t = .byte ∨ ∃ k, t = .int k) →
        shallowImplicitCast t (.unary .integer .neg (.integer .integer 5)) =
          .error (.internal "shallow_implicit_cast: EXPR_INTEGER") :=
  resolveExpr_sign_untyped (.inr ⟨rfl, rfl⟩) (fun _ _ h => by cases h) rfl rfl

/-- `var x: s32 = -(5);` at global scope. -/
example : resolveDeclVariable (resolvers 3) "x" (some (.symbol false [.mk "s32" []]))
    (.unary .dash (.grouped (.integer 5 ""))) contextInit =
      .error (.internal "shallow_implicit_cast: EXPR_INTEGER") := rfl

/-! ## Folding literal operands -/

theorem resolveExpr_byte_literal (r : Resolvers) (s : Resolver) {a : Nat} (ha : a ≤ 255) :
    resolveExpr r (.integer a "y") s = .ok (.integer .byte a, s) := by
  have h : exprNewInteger .byte a = .ok (.integer .byte a) := exprNewInteger_byte ⟨by omega, by omega⟩
  show (do exprNewInteger (← integerLiteralSuffixToType "y") a : ResolveM Expr) s = _
  simp [integerLiteralSuffixToType, h]

theorem evalRvalue_byte_literal (ss : Nat → Nat) {a : Int} (ha : 0 ≤ a ∧ a ≤ 255) :
    evalRvalue ss (.integer .byte a) = .ok (.byte a.toNat.toUInt8) := by
  rw [evalRvalue_integer, evalInteger, if_pos rfl, if_pos ha]
  rfl

/-- `BITOR`, `BITXOR` and `BITAND` on two byte literals give a byte. -/
theorem evalRvalue_bitwise_byte (ss : Nat → Nat) {bop : Bop} {fy : UInt8 → UInt8 → UInt8}
    {a b : Int} (hop : (bop = .bitor ∧ fy = (· ||| ·)) ∨ (bop = .bitxor ∧ fy = (· ^^^ ·)) ∨
      (bop = .bitand ∧ fy = (· &&& ·)))
    (ha : 0 ≤ a ∧ a ≤ 255) (hb : 0 ≤ b ∧ b ≤ 255) :
    evalRvalue ss (.binary .byte bop (.integer .byte a) (.integer .byte b)) =
      .ok (.byte (fy a.toNat.toUInt8 b.toNat.toUInt8)) := by
  rw [evalRvalue_binary_of_ok (evalRvalue_byte_literal ss ha) (evalRvalue_byte_literal ss hb)]
  rcases hop with ⟨rfl, rfl⟩ | ⟨rfl, rfl⟩ | ⟨rfl, rfl⟩ <;> rfl

/-- The fold of a node whose value is not an integer fails its assertion. -/
theorem foldInteger_of_eval {e : Expr} {v : Value} {s : Resolver}
    (h : evalRvalue s.structSize e = .ok v) (hv : typeIsAnyInteger v.type = false) :
    foldInteger e s = .error (.internal "constant fold: integer") := by
  simp only [foldInteger, ResolveM.bind_of_ok (evalNow_of_ok h), require, hv]
  rfl

/-- Two byte literals pass every check of `resolve_expr_binary_bitwise` and are folded. -/
theorem resolveExprBinaryBitwise_byte (op : Token) (bop : Bop) (a b : Int) (s : Resolver) :
    resolveExprBinaryBitwise op bop (.integer .byte a) (.integer .byte b) s =
      foldInteger (.binary .byte bop (.integer .byte a) (.integer .byte b)) s := rfl

/-- **Folding `|`, `^` and `&` on byte literals**: `eval_rvalue` gives the byte, and the fold
stops at its assertion that the value is an integer. -/
theorem resolveExpr_bitwise_byte_literals (n : Nat) (s : Resolver) {op : Token} {bop : Bop}
    {fy : UInt8 → UInt8 → UInt8} {a b : Nat}
    (hop : (op = .pipe ∧ bop = .bitor ∧ fy = (· ||| ·)) ∨
      (op = .caret ∧ bop = .bitxor ∧ fy = (· ^^^ ·)) ∨
      (op = .ampersand ∧ bop = .bitand ∧ fy = (· &&& ·)))
    (ha : a ≤ 255) (hb : b ≤ 255) :
    evalRvalue s.structSize (.binary .byte bop (.integer .byte a) (.integer .byte b)) =
        .ok (.byte (fy a.toUInt8 b.toUInt8)) ∧
      resolveExpr (resolvers (n + 1)) (.binary op (.integer a "y") (.integer b "y")) s =
        .error (.internal "constant fold: integer") := by
  have he : evalRvalue s.structSize (.binary .byte bop (.integer .byte a) (.integer .byte b)) =
      .ok (.byte (fy a.toUInt8 b.toUInt8)) := by
    simpa using evalRvalue_bitwise_byte s.structSize (hop.imp (·.2) (·.imp (·.2) (·.2)))
      ⟨Int.natCast_nonneg a, by omega⟩ ⟨Int.natCast_nonneg b, by omega⟩
  refine ⟨he, ?_⟩
  show resolveExprBinary (resolvers (n + 1)) op (.integer a "y") (.integer b "y") s = _
  rw [resolveExprBinary_of_ok (resolveExpr_byte_literal (resolvers n) s ha)
    (resolveExpr_byte_literal (resolvers n) s hb)]
  rcases hop with ⟨rfl, rfl, -⟩ | ⟨rfl, rfl, -⟩ | ⟨rfl, rfl, -⟩ <;>
    exact (resolveExprBinaryBitwise_byte _ _ _ _ s).trans (foldInteger_of_eval he rfl)

/-- `0x0Fy | 0xF0y`. -/
theorem resolveExpr_bitwise_byte_literals_or :
    evalRvalue contextInit.structSize (.binary .byte .bitor (.integer .byte 15) (.integer .byte 240)) =
        .ok (.byte 255) ∧
      resolveExpr (resolvers 2) (.binary .pipe (.integer 15 "y") (.integer 240 "y")) contextInit =
        .error (.internal "constant fold: integer") :=
  resolveExpr_bitwise_byte_literals 1 contextInit (.inl ⟨rfl, rfl, rfl⟩) (by decide) (by decide)

/-- Two untyped literals pass every check of `resolve_expr_binary_arithmetic`, and their fold
stops at the assertion of `eval_rvalue` that an integer literal has a sized type. -/
theorem resolveExprBinaryArithmetic_untyped (op : Token) (bop : Bop) (a b : Int) (s : Resolver) :
    resolveExprBinaryArithmetic op bop (.integer .integer a) (.integer .integer b) s =
      .error (.internal "eval_rvalue: integer type") := rfl

/-! ## Array lists with an ellipsis -/

/-- **An array list with an ellipsis is accepted whatever its number of elements**, and its
value is the array of `count` values only when there are at most `count` elements. -/
theorem resolveExpr_arrayList_ellipsis {r : Resolvers} {ts : CstTypespec} {count : Nat}
    {base : Ty} {elements : List CstExpr} {f : CstExpr} {es : List Expr} {fe : Expr}
    {s s₀ s₁ s₂ : Resolver} {ss : Nat → Nat} {vs : List Value} {fv : Value}
    (ht : r.typespec ts s = .ok (.array count base, s₀))
    (hes : elements.mapM (resolveExprAs r base) s₀ = .ok (es, s₁))
    (hf : resolveExprAs r base f s₁ = .ok (fe, s₂))
    (hvs : evalRvalueList ss es = .ok vs) (hfv : evalRvalue ss fe = .ok fv) (hwf : fv.WellFormed) :
    resolveExpr r (.list ts elements (some f)) s =
        .ok (.arrayList (.array count base) es (some fe), s₂) ∧
      evalRvalue ss (.arrayList (.array count base) es (some fe)) =
        if elements.length ≤ count then
          .ok (.array (.array count base) (vs ++ List.replicate (count - elements.length) fv))
        else .error (.internal "value_new_array") := by
  rw [← ResolveM.mapM_length hes]
  refine ⟨?_, evalRvalue_arrayList_ellipsis hvs hfv hwf⟩
  have hell : (some f).mapM (resolveExprAs r base) s₁ = .ok (some fe, s₂) := by
    simp only [Option.mapM, ResolveM.bind_of_ok hf]; rfl
  show resolveExprList r ts elements (some f) s = _
  simp only [resolveExprList, ResolveM.bind_of_ok ht, resolveExprArrayList, ResolveM.bind_of_ok hes,
    ResolveM.bind_of_ok hell, Option.isNone_some, Bool.and_false, Bool.false_eq_true, ite_false]
  rfl

/-- `(:[2]u8)[1u8, 2u8, 3u8, 0u8...]`: three elements for an array of two. -/
theorem resolveExpr_arrayList_ellipsis_u8 :
    let ts : CstTypespec := .array (.integer 2 "u") (.symbol false [.mk "u8" []])
    let es : List Expr := [.integer (.int .u8) 1, .integer (.int .u8) 2, .integer (.int .u8) 3]
    ∃ s', resolveExpr (resolvers 2)
        (.list ts [.integer 1 "u8", .integer 2 "u8", .integer 3 "u8"] (some (.integer 0 "u8")))
        contextInit = .ok (.arrayList (.array 2 (.int .u8)) es (some (.integer (.int .u8) 0)), s') ∧
      evalRvalue (fun _ => 0) (.arrayList (.array 2 (.int .u8)) es (some (.integer (.int .u8) 0))) =
        .error (.internal "value_new_array") := by
  intro ts es
  obtain ⟨s₀, ht⟩ : ∃ s₀, (resolvers 2).typespec ts contextInit = .ok (.array 2 (.int .u8), s₀) :=
    ⟨_, rfl⟩
  have hes : [CstExpr.integer 1 "u8", .integer 2 "u8", .integer 3 "u8"].mapM
      (resolveExprAs (resolvers 2) (.int .u8)) s₀ = .ok (es, s₀) := rfl
  have hf : resolveExprAs (resolvers 2) (.int .u8) (.integer 0 "u8") s₀ =
      .ok (.integer (.int .u8) 0, s₀) := rfl
  have hvs : evalRvalueList (fun _ => 0) es =
      .ok [.integer (.int .u8) 1, .integer (.int .u8) 2, .integer (.int .u8) 3] := rfl
  have hfv : evalRvalue (fun _ => 0) (.integer (.int .u8) 0) = .ok (.integer (.int .u8) 0) := rfl
  have h := resolveExpr_arrayList_ellipsis ht hes hf hvs hfv ⟨.u8, rfl, by decide, by decide⟩
  exact ⟨s₀, h.1, h.2⟩

end Sunder
