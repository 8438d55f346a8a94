import Sunder.Parse.Expr
/-!
# How binary operators group

What `parse_expr_precedence` is for, stated over the trees it builds. A tree of binary operators
is *well grouped* (`Expr.WellGrouped`) when the left operand of each operator binds no looser
than it and the right operand strictly tighter, by the levels of `token_kind_precedence`, and
everything that is not a binary operator (an operand) binds tighter than all of them. So the
operators of one level associate to the left.

`Expr.flatten` reads a tree back as the chain it was parsed from: its first operand, then each
operator with the operand after it. `Expr.WellGrouped.unique`: a chain has at most one well-grouped
tree. The parser builds it (`Sunder/Parse/Pratt.lean`).
-/

namespace Sunder.Parse

/-- The level of a binary operator: the rank of its `token_kind_precedence`. -/
def level (k : TokenKind) : Nat := (tokenKindPrecedence k).rank

namespace Expr

/-- How tight the root of a tree binds: the level of its operator for a binary operator,
`PRECEDENCE_PREFIX` for an operand. -/
def top : Expr → Nat
  | .binary op _ _ => level op
  | _ => Precedence.prefix_.rank

/-- A tree read back as a chain of binary operators: the first operand, and each operator with
the operand after it, left to right. -/
def flatten : Expr → Expr × List (TokenKind × Expr)
  | .binary op lhs rhs =>
    ((flatten lhs).1, (flatten lhs).2 ++ (op, (flatten rhs).1) :: (flatten rhs).2)
  | e => (e, [])

/-- An operand: any tree but a binary operator. -/
def IsOperand (e : Expr) : Prop := ∀ op lhs rhs, e ≠ .binary op lhs rhs

/-- The chain of binary operators of a tree is well grouped (module doc). -/
inductive WellGrouped : Expr → Prop
  | operand {e : Expr} (he : e.IsOperand) : WellGrouped e
  | binary {op : TokenKind} {lhs rhs : Expr} (hl : WellGrouped lhs) (hr : WellGrouped rhs)
      (hlt : level op ≤ lhs.top) (hrt : level op < rhs.top) : WellGrouped (.binary op lhs rhs)

@[simp] theorem flatten_binary (op : TokenKind) (lhs rhs : Expr) :
    (binary op lhs rhs).flatten =
      (lhs.flatten.1, lhs.flatten.2 ++ (op, rhs.flatten.1) :: rhs.flatten.2) := rfl

@[simp] theorem top_binary (op : TokenKind) (lhs rhs : Expr) :
    (binary op lhs rhs).top = level op := rfl

theorem flatten_of_isOperand {e : Expr} (he : e.IsOperand) : e.flatten = (e, []) := by
  cases e <;> first | rfl | exact absurd rfl (he _ _ _)

theorem top_of_isOperand {e : Expr} (he : e.IsOperand) : e.top = Precedence.prefix_.rank := by
  cases e <;> first | rfl | exact absurd rfl (he _ _ _)

/-- Every operator of a well-grouped chain binds no looser than its root. -/
theorem WellGrouped.top_le {t : Expr} (h : t.WellGrouped) :
    ∀ x ∈ t.flatten.2, t.top ≤ level x.1 := by
  induction h with
  | operand he => simp [flatten_of_isOperand he]
  | binary _ _ hlt hrt ihl ihr =>
    intro x hx
    simp only [flatten_binary, List.mem_append, List.mem_cons] at hx
    rcases hx with hx | rfl | hx
    · exact Nat.le_trans hlt (ihl x hx)
    · exact Nat.le_refl _
    · exact Nat.le_of_lt (Nat.lt_of_lt_of_le hrt (ihr x hx))

/-- The root of a well-grouped chain is its last operator of the loosest level: the one with
operators of its level or tighter before it and only tighter ones after it. Two such splits of
one chain are the same. -/
theorem chain_split_unique {L R L' R' : List (TokenKind × Expr)} {x x' : TokenKind × Expr}
    (h : L ++ x :: R = L' ++ x' :: R')
    (hL : ∀ y ∈ L, level x.1 ≤ level y.1) (hR : ∀ y ∈ R, level x.1 < level y.1)
    (hL' : ∀ y ∈ L', level x'.1 ≤ level y.1) (hR' : ∀ y ∈ R', level x'.1 < level y.1) :
    L = L' ∧ x = x' ∧ R = R' := by
  rcases List.append_eq_append_iff.1 h with ⟨a, rfl, ha⟩ | ⟨c, rfl, hc⟩
  · rcases a with _ | ⟨y, a⟩
    · simp only [List.nil_append, List.cons.injEq] at ha
      exact ⟨(List.append_nil L).symm, ha.1, ha.2⟩
    · simp only [List.cons_append, List.cons.injEq] at ha
      obtain ⟨rfl, rfl⟩ := ha
      have h₁ := hL' x (by simp)
      have h₂ := hR x' (by simp)
      omega
  · rcases c with _ | ⟨y, c⟩
    · simp only [List.nil_append, List.cons.injEq] at hc
      exact ⟨List.append_nil L', hc.1.symm, hc.2.symm⟩
    · simp only [List.cons_append, List.cons.injEq] at hc
      obtain ⟨rfl, rfl⟩ := hc
      have h₁ := hL x' (by simp)
      have h₂ := hR' x (by simp)
      omega

/-- A chain of binary operators has at most one well-grouped tree. -/
theorem WellGrouped.unique {t₁ t₂ : Expr} (h₁ : t₁.WellGrouped) (h₂ : t₂.WellGrouped)
    (h : t₁.flatten = t₂.flatten) : t₁ = t₂ := by
  induction h₁ generalizing t₂ with
  | operand he =>
    cases h₂ with
    | operand he₂ => simpa [flatten_of_isOperand he, flatten_of_isOperand he₂] using h
    | binary => simp [flatten_of_isOperand he] at h
  | @binary op lhs rhs hl hr hlt hrt ihl ihr =>
    cases h₂ with
    | operand he₂ => simp [flatten_of_isOperand he₂] at h
    | @binary op' lhs' rhs' hl' hr' hlt' hrt' =>
      simp only [flatten_binary, Prod.mk.injEq] at h
      obtain ⟨hL, hx, hR⟩ := chain_split_unique h.2
        (fun y hy => Nat.le_trans hlt (hl.top_le y hy))
        (fun y hy => Nat.lt_of_lt_of_le hrt (hr.top_le y hy))
        (fun y hy => Nat.le_trans hlt' (hl'.top_le y hy))
        (fun y hy => Nat.lt_of_lt_of_le hrt' (hr'.top_le y hy))
      simp only [Prod.mk.injEq] at hx
      rw [ihl hl' (Prod.ext h.1 hL), ihr hr' (Prod.ext hx.2 hR), hx.1]

end Expr

end Sunder.Parse
