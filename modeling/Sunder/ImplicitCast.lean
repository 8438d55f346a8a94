import Sunder.Eval

/-!
# Shallow implicit casts

`shallowImplicitCast` is `shallow_implicit_cast` of `resolve.c`: it rewrites an untyped integer
literal into a range-checked literal of the target type, a `*X` into a cast to `*any`, and a
function into a cast to a function type whose parameter and return types are equal or go from
`*X` to `*any`; anything else is returned unchanged.

* `shallowImplicitCast_spec`: the result is the expression itself, or has exactly the target
  type and is one of the three conversions (`ImplicitConversion`). In the function case only a
  prefix of the source's parameters is compared (`castParams_spec`): the parameter-count check
  of the source has an empty body.
* `shallowImplicitCast_ignores_arity`: the parameter counts are never compared, so a target with
  fewer parameters drops the source's last ones (`shallowImplicitCast_drops_parameter` converts a
  function of two parameters to a function type of one) and a target with more reads past the end
  of the source's parameter list.
-/

namespace Sunder

/-- Modelled from `tir_expr_new_integer` of `tir.c`, which the resolver's `expr_new_integer`
(not under `src/`) replaces: a byte or sized integer literal is range-checked; the untyped
integer type has no bounds to check. -/
def exprNewInteger (t : Ty) (x : Int) : Except Fault Expr :=
  match t with
  | .byte =>
    if x < 0 then throw (.fatal s!"out-of-range byte literal ({x} < 0)")
    else if 255 < x then throw (.fatal s!"out-of-range byte literal ({x} > 255)")
    else pure (.integer t x)
  | .int k =>
    if x < k.min then throw (.fatal s!"out-of-range integer literal ({x} < {k.min})")
    else if k.max < x then throw (.fatal s!"out-of-range integer literal ({x} > {k.max})")
    else pure (.integer t x)
  | .integer => pure (.integer t x)
  | _ => throw (.internal "expr_new_integer")

/-- The conversion `*X` to `*any`, `X` not `any` (`non_any_ptr_to_any_ptr`). -/
def toAnyPointer (dst src : Ty) : Bool :=
  match dst, src with
  | .pointer .any, .pointer b => b != .any
  | _, _ => false

/-- The parameter loop of the function case: for each parameter of the target, the parameter
of the source at the same position must be equal or convert to `*any`. It reads the source's
list at every position of the target's (`from->data.function.parameter_types[i]`). -/
def castParams : List Ty → List Ty → Except Fault Bool
  | [], _ => pure true
  | _ :: _, [] => throw (.undefined "shallow_implicit_cast: parameter_types[i]")
  | tp :: tps, fp :: fps => if tp = fp || toAnyPointer tp fp then castParams tps fps else pure false

/-- The range check of an untyped literal against `[lo, hi]`, then the retyped literal. -/
def castLiteral (t : Ty) (e : Expr) (lo hi : Int) : Except Fault Expr :=
  match e with
  | .integer _ x =>
    if x < lo then throw (.fatal
      s!"out-of-range conversion from `{e.type.name}` to `{t.name}` ({x} < {lo})")
    else if hi < x then throw (.fatal
      s!"out-of-range conversion from `{e.type.name}` to `{t.name}` ({x} > {hi})")
    else exprNewInteger t x
  | _ => throw (.internal "shallow_implicit_cast: EXPR_INTEGER")

/-- `shallow_implicit_cast`. -/
def shallowImplicitCast (t : Ty) (e : Expr) : Except Fault Expr :=
  if t = e.type then pure e
  else match t, e.type with
  | .byte, .integer => castLiteral t e 0 255
  | .int k, .integer => castLiteral t e k.min k.max
  | .pointer .any, src =>
    if toAnyPointer t src then pure (.cast (.pointer .any) e) else pure e
  | .function tps tr, .function fps fr => do
    if ← castParams tps.toList fps.toList then
      if tr = fr || toAnyPointer tr fr then pure (.cast t e) else pure e
    else pure e
  | _, _ => pure e

/-! ## What the cast can do -/

/-- The conversions of the source's comment, as they are implemented: an untyped literal
within the target's range, `*X` to `*any`, and a function whose return type and the first
`length` of its parameters convert to the target's (which has exactly `length` parameters). -/
inductive ImplicitConversion : Ty → Expr → Prop
  | byte {x : Int} : 0 ≤ x → x ≤ 255 → ImplicitConversion .byte (.integer .integer x)
  | int {k : IntKind} {x : Int} : k.min ≤ x → x ≤ k.max →
      ImplicitConversion (.int k) (.integer .integer x)
  | anyPointer {e : Expr} : toAnyPointer (.pointer .any) e.type →
      ImplicitConversion (.pointer .any) e
  | function {tps : TyList} {tr : Ty} {e : Expr} {fps : TyList} {fr : Ty} :
      e.type = .function fps fr → tps.toList.length ≤ fps.toList.length →
      (∀ (i : Nat) (tp fp : Ty), tps.toList[i]? = some tp → fps.toList[i]? = some fp →
        tp = fp ∨ toAnyPointer tp fp) →
      (tr = fr ∨ toAnyPointer tr fr) → ImplicitConversion (.function tps tr) e

theorem castParams_spec : ∀ {tps fps : List Ty}, castParams tps fps = .ok true →
    tps.length ≤ fps.length ∧
      ∀ (i : Nat) (tp fp : Ty), tps[i]? = some tp → fps[i]? = some fp → tp = fp ∨ toAnyPointer tp fp
  | [], _, _ => ⟨Nat.zero_le _, fun _ _ _ h => by simp at h⟩
  | _ :: _, [], h => by simp [castParams, throw, throwThe, MonadExceptOf.throw] at h
  | tp :: tps, fp :: fps, h => by
    simp only [castParams] at h
    split at h
    · next hc =>
      obtain ⟨hl, hi⟩ := castParams_spec h
      refine ⟨by simpa using hl, fun i a b ha hb => ?_⟩
      cases i with
      | zero =>
        simp only [List.getElem?_cons_zero, Option.some.injEq] at ha hb
        subst ha hb
        simpa using hc
      | succ i => exact hi i a b (by simpa using ha) (by simpa using hb)
    · cases h

theorem castLiteral_spec {t e lo hi r} (h : castLiteral t e lo hi = .ok r) :
    ∃ x, e = .integer e.type x ∧ lo ≤ x ∧ x ≤ hi ∧ exprNewInteger t x = .ok r := by
  unfold castLiteral at h
  split at h
  · next x =>
    split at h
    · cases h
    · split at h
      · cases h
      · exact ⟨x, rfl, by omega, by omega, h⟩
  · cases h

theorem exprNewInteger_type {t x r} (h : exprNewInteger t x = .ok r) : r = .integer t x := by
  unfold exprNewInteger at h
  split at h <;> (try split at h) <;> (try split at h) <;> first | cases h; rfl | cases h

theorem exprNewInteger_byte {x : Int} (hx : 0 ≤ x ∧ x ≤ 255) :
    exprNewInteger .byte x = .ok (.integer .byte x) := by
  simp only [exprNewInteger, if_neg (not_lt.2 hx.1), if_neg (not_lt.2 hx.2)]; rfl

theorem castLiteral_nonliteral {t : Ty} {e : Expr} {lo hi : Int} (hn : ∀ u x, e ≠ .integer u x) :
    castLiteral t e lo hi = .error (.internal "shallow_implicit_cast: EXPR_INTEGER") := by
  cases e <;> first | rfl | exact absurd rfl (hn _ _)

/-- An untyped node that is not a literal, cast to a byte or sized integer type, fails the
assertion `expr->kind == EXPR_INTEGER`. -/
theorem shallowImplicitCast_untyped_nonliteral {t : Ty} {e : Expr} (ht : t = .byte ∨ ∃ k, t = .int k)
    (he : e.type = .integer) (hn : ∀ u x, e ≠ .integer u x) :
    shallowImplicitCast t e = .error (.internal "shallow_implicit_cast: EXPR_INTEGER") := by
  rcases ht with rfl | ⟨k, rfl⟩ <;> simp only [shallowImplicitCast, he] <;>
    exact castLiteral_nonliteral hn

/-- **The cast returns its argument or a conversion of it to exactly the target type.** -/
theorem shallowImplicitCast_spec {t : Ty} {e r : Expr} (h : shallowImplicitCast t e = .ok r) :
    r = e ∨ (r.type = t ∧ ImplicitConversion t e) := by
  unfold shallowImplicitCast at h
  split at h
  · cases h; exact .inl rfl
  · next hne =>
    split at h
    · next he =>
      obtain ⟨x, hx, h0, h1, hr⟩ := castLiteral_spec h
      rw [exprNewInteger_type hr, hx, he]
      exact .inr ⟨rfl, .byte h0 h1⟩
    · next k he =>
      obtain ⟨x, hx, h0, h1, hr⟩ := castLiteral_spec h
      rw [exprNewInteger_type hr, hx, he]
      exact .inr ⟨rfl, .int h0 h1⟩
    · next src he =>
      split at h <;> cases h
      · exact .inr ⟨rfl, .anyPointer ‹_›⟩
      · exact .inl rfl
    · next tps tr fps fr he =>
      simp only [bind, Except.bind] at h
      split at h
      · cases h
      · next b hb =>
        cases b
        · cases h; exact .inl rfl
        · obtain ⟨hl, hi⟩ := castParams_spec hb
          by_cases hr : (decide (tr = fr) || toAnyPointer tr fr) = true
          · rw [if_pos hr] at h
            cases h
            exact .inr ⟨rfl, .function he hl hi (by simpa using hr)⟩
          · rw [if_neg hr] at h
            cases h
            exact .inl rfl
    · cases h; exact .inl rfl

/-- On parameters that convert position by position, only the lengths decide the loop: the
target's list fits in the source's, or the loop reads past the end of the source's. -/
theorem castParams_of_convert : ∀ {tps fps : List Ty},
    (∀ (i : Nat) (tp fp : Ty), tps[i]? = some tp → fps[i]? = some fp →
      tp = fp ∨ toAnyPointer tp fp) →
    castParams tps fps = if tps.length ≤ fps.length then .ok true
      else .error (.undefined "shallow_implicit_cast: parameter_types[i]")
  | [], _, _ => (if_pos (Nat.zero_le _)).symm
  | _ :: _, [], _ => (if_neg (Nat.not_succ_le_zero _)).symm
  | tp :: tps, fp :: fps, hi => by
    have h0 := hi 0 tp fp List.getElem?_cons_zero List.getElem?_cons_zero
    simp only [castParams, List.length_cons, Nat.add_le_add_iff_right]
    rw [if_pos (by rcases h0 with h0 | h0 <;> simp [h0])]
    exact castParams_of_convert fun i a b ha hb =>
      hi (i + 1) a b (List.getElem?_cons_succ.trans ha) (List.getElem?_cons_succ.trans hb)

/-- **The parameter count is never compared.** Of a source function whose parameters convert to
the target's position by position, a target with fewer parameters is accepted (when the return
type converts), dropping the source's remaining ones, and a target with more reads past the end
of the source's list. -/
theorem shallowImplicitCast_ignores_arity {tps fps : TyList} {tr fr : Ty} {e : Expr}
    (he : e.type = .function fps fr)
    (hi : ∀ (i : Nat) (tp fp : Ty), tps.toList[i]? = some tp → fps.toList[i]? = some fp →
      tp = fp ∨ toAnyPointer tp fp) :
    (tps.toList.length < fps.toList.length → (tr = fr ∨ toAnyPointer tr fr) →
        shallowImplicitCast (.function tps tr) e = .ok (.cast (.function tps tr) e)) ∧
      (fps.toList.length < tps.toList.length →
        shallowImplicitCast (.function tps tr) e =
          .error (.undefined "shallow_implicit_cast: parameter_types[i]")) := by
  have hne : tps.toList.length ≠ fps.toList.length → Ty.function tps tr ≠ .function fps fr := by
    rintro hl ⟨⟩
    exact hl rfl
  constructor
  · intro hl hr
    have hr' : (decide (tr = fr) || toAnyPointer tr fr) = true := by
      rcases hr with hr | hr <;> simp [hr]
    simp only [shallowImplicitCast, he, hne hl.ne, if_false, castParams_of_convert hi,
      if_pos hl.le, hr', bind, Except.bind, pure, Except.pure, if_true]
  · intro hl
    simp only [shallowImplicitCast, he, hne hl.ne', if_false, castParams_of_convert hi,
      if_neg (Nat.not_le.2 hl), bind, Except.bind]

/-- `func f(p: *u8, q: u32) void` converts implicitly to `func(*any) void`: the cast keeps the
first parameter and drops the second. -/
theorem shallowImplicitCast_drops_parameter :
    let fTy : Ty := .function (.ofList [.pointer (.int .u8), .int .u32]) .void
    let f : Expr := .symbol ⟨"f", .function fTy (.static "f" 0) (.function fTy 0)⟩
    let target : Ty := .function (.ofList [.pointer .any]) .void
    shallowImplicitCast target f = .ok (.cast target f) := by
  intro fTy f target
  refine (shallowImplicitCast_ignores_arity (e := f) rfl ?_).1 (by decide) (.inl rfl)
  rintro (_ | i) tp fp h₁ h₂
  · simp only [TyList.toList_ofList, List.getElem?_cons_zero, Option.some.injEq] at h₁ h₂
    subst h₁ h₂
    exact .inr rfl
  · simp at h₁

end Sunder
