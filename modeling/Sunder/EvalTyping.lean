import Sunder.EvalAccess

/-!
# The evaluator keeps types

On a well-typed expression, `eval_rvalue` either stops (a `Fault`) or returns a well-formed value
of the expression's type, and `eval_lvalue` a pointer to it (`evalRvalue_typed`).

`Expr.WellTyped` holds the typing rules of `resolve.c` that the evaluator's results depend on:
a symbol's value has the symbol's type, the elements of an array literal have its element type,
indexing an array gives its element type, `not`, the logical operators and the comparisons give
`bool`, `+`, `~` and the bitwise operators the type of their operand, `&` a pointer to it, and
an array's count fits the `size_t` that `countof` reads it into. Where the evaluator builds its
result through a checked constructor of the node's own type (`value_new_integer` for `-` and
the arithmetic operators, a cast, a slice of an array) no rule is needed.

* the checked constructors return values of the type they are given (`valueNewInteger_typed`,
  `valueNewArray_typed`, `valueNewSlice_typed`, ...);
* one lemma per case of the evaluator, on operands of their types (`evalSymbol_typed`,
  `evalAccessIndex_typed`, `evalUnary_typed`, `evalBinary_typed`, `evalLvalueIndex_typed`, ...);
* `evalRvalue_typed`, by induction on the typing, for `eval_rvalue` and `eval_lvalue` together;
  a node that `eval_lvalue` does not handle asserts that it is no lvalue and stops.
-/

namespace Sunder

/-- `v` is a well-formed value of type `t`. -/
structure Value.Typed (v : Value) (t : Ty) : Prop where
  type_eq : v.type = t
  wellFormed : v.WellFormed

/-! ## Successful runs of `Except` -/

section
variable {ε α β : Type}

theorem bind_eq_ok {x : Except ε α} {f : α → Except ε β} {b : β} :
    x >>= f = .ok b ↔ ∃ a, x = .ok a ∧ f a = .ok b := by
  cases x <;> simp [bind, Except.bind]

@[simp] theorem pure_eq_ok {a b : α} : (pure a : Except ε α) = .ok b ↔ a = b := by
  simp [pure, Except.pure]

@[simp] theorem throw_ne_ok {e : ε} {b : α} : (throw e : Except ε α) ≠ .ok b := nofun

end

/-! ## Values of a type -/

theorem Value.elementsOf_iff {b : Ty} :
    ∀ {es : List Value}, Value.ElementsOf b es ↔ ∀ e ∈ es, e.Typed b
  | [] => by simp [Value.ElementsOf]
  | e :: es => by
    simp only [Value.ElementsOf, List.mem_cons, forall_eq_or_imp, elementsOf_iff]
    exact ⟨fun ⟨h, hw, hs⟩ => ⟨⟨h, hw⟩, hs⟩, fun ⟨⟨h, hw⟩, hs⟩ => ⟨h, hw, hs⟩⟩

theorem Value.Typed.clone {v v' : Value} {t : Ty} (hv : v.Typed t) (h : valueClone v = .ok v') :
    v'.Typed t := by
  rw [valueClone_of_wellFormed hv.wellFormed] at h
  cases h
  exact hv

/-! ## The checked constructors -/

section Constructors
variable {t : Ty} {v : Value}

theorem valueNewInteger_typed {x : Int} (h : valueNewInteger t x = .ok v) : v.Typed t := by
  obtain ⟨k, rfl, h0, h1, rfl⟩ := valueNewInteger_eq_ok.1 h
  exact ⟨rfl, k, rfl, h0, h1⟩

theorem valueNewPointer_typed {a : Address} (h : valueNewPointer t a = .ok v) : v.Typed t := by
  cases t <;> cases h
  exact ⟨rfl, _, rfl⟩

/-- `value_new_array` of elements of the element type of `t`. -/
theorem valueNewArray_typed {vs : List Value} (hvs : ∀ n b, t = .array n b → ∀ e ∈ vs, e.Typed b)
    (h : valueNewArray t vs = .ok v) : v.Typed t := by
  cases t <;> try cases h
  case array n b =>
    simp only [valueNewArray] at h
    split at h
    · cases h
      exact ⟨rfl, b, by congr, Value.elementsOf_iff.2 (hvs n b rfl)⟩
    · cases h

theorem valueNewSlice_typed {p c : Value} (hp : p.WellFormed) (hc : c.WellFormed)
    (h : valueNewSlice t p c = .ok v) : v.Typed t := by
  unfold valueNewSlice at h
  split at h
  · split at h
    · cases h
      exact ⟨rfl, _, rfl, by simp_all, hp, rfl, hc⟩
    · cases h
  · cases h

end Constructors

/-! ## The cases of the evaluator -/

/-- A symbol whose value, if it has one, is a well-formed value of its type. -/
def Symbol.ValueTyped (s : Symbol) : Prop :=
  ∀ v, s.value = some v → v.Typed s.type

section Cases
variable {ss : Nat → Nat} {t : Ty} {v : Value}

theorem evalSymbol_typed {s : Symbol} (hs : s.ValueTyped) (h : evalSymbol s = .ok v) :
    v.Typed s.type := by
  unfold evalSymbol at h
  split at h
  all_goals first
    | exact (hs _ ‹_›).clone h
    | cases h

theorem evalInteger_typed {x : Int} (h : evalInteger t x = .ok v) : v.Typed t := by
  unfold evalInteger at h
  split at h
  · split at h <;> cases h
    subst t
    exact ⟨rfl, trivial⟩
  · obtain ⟨_, -, h⟩ := bind_eq_ok.1 h
    exact valueNewInteger_typed h

theorem evalBytes_typed {a : Address} {n : Nat} (h : evalBytes a n = .ok v) :
    v.Typed (.slice .byte) := by
  obtain ⟨p, hp, h⟩ := bind_eq_ok.1 h
  obtain ⟨c, hc, h⟩ := bind_eq_ok.1 h
  exact valueNewSlice_typed (valueNewPointer_typed hp).wellFormed
    (valueNewInteger_typed hc).wellFormed h

/-- The ellipsis of an array literal: clones of a value of the element type fill the rest. -/
theorem evalArrayFill_typed {vs : List Value} {first : Nat} {fv : Value}
    (hvs : ∀ n b, t = .array n b → (∀ e ∈ vs, e.Typed b) ∧ fv.Typed b)
    (h : evalArrayFill t vs first fv = .ok v) : v.Typed t := by
  cases t
  case array n b =>
    obtain ⟨hvs, hfv⟩ := hvs n b rfl
    simp only [evalArrayFill, mapM_valueClone_replicate hfv.wellFormed, bind, Except.bind] at h
    refine valueNewArray_typed (fun _ _ heq e he => ?_) h
    cases heq
    rcases List.mem_append.1 he with he | he
    · exact hvs e he
    · rw [List.eq_of_mem_replicate he]
      exact hfv
  all_goals
    simp only [evalArrayFill] at h
    obtain ⟨_, -, h⟩ := bind_eq_ok.1 h
    cases h

theorem evalCastBytes_typed {v' : Value} (h : evalCastBytes ss t v = .ok v') : v'.Typed t := by
  obtain ⟨bytes, -, h⟩ := bind_eq_ok.1 h
  cases t
  case bool =>
    cases h
    exact ⟨rfl, trivial⟩
  case byte =>
    obtain ⟨_, -, h⟩ := bind_eq_ok.1 h
    cases h
    exact ⟨rfl, trivial⟩
  case int k => exact valueNewInteger_typed h
  all_goals cases h

theorem evalCast_typed {v' : Value} (h : evalCast ss t v = .ok v') : v'.Typed t := by
  simp only [evalCast, pure_bind] at h
  split at h
  · cases h
  split at h
  · cases h
  exact evalCastBytes_typed h

/-- Indexing an array of element type `t` returns the clone of an element. -/
theorem evalAccessIndex_typed {l i : Value} {lt : Ty} (hl : l.Typed lt)
    (ht : ∀ n b, lt = .array n b → b = t) (h : evalAccessIndex l i = .ok v) : v.Typed t := by
  simp only [evalAccessIndex, bind_eq_ok] at h
  obtain ⟨_, -, _, -, n, -, h⟩ := h
  split at h
  · rename_i t' es _
    obtain ⟨rfl, b, rfl, hes⟩ := hl
    obtain rfl := ht _ _ rfl
    simp only [pure_bind] at h
    split at h
    · cases h
    split at h
    · exact (Value.elementsOf_iff.1 hes _ (List.getElem?_mem ‹_›)).clone h
    · cases h
  all_goals cases h

/-- Slicing an array builds a slice of the node's type, over a pointer it builds itself. -/
theorem evalAccessSlice_typed {l bv ev : Value} {lp : Except Fault Value}
    (h : evalAccessSlice ss t l bv ev lp = .ok v) : v.Typed t := by
  unfold evalAccessSlice at h
  iterate 6 obtain ⟨_, -, h⟩ := bind_eq_ok.1 h
  generalize l.type = lt at h
  cases lt
  case array =>
    dsimp only at h
    split_ifs at h <;> try cases h
    simp only [pure_bind] at h
    obtain ⟨p, -, h⟩ := bind_eq_ok.1 h
    obtain ⟨_, -, h⟩ := bind_eq_ok.1 h
    split at h
    · obtain ⟨c, hc, h⟩ := bind_eq_ok.1 h
      exact valueNewSlice_typed (by exact ⟨_, rfl⟩) (valueNewInteger_typed hc).wellFormed h
    · cases h
  all_goals exact absurd h throw_ne_ok

/-- The type `resolve.c` gives a unary node over an operand of type `rt`, where the evaluator's
result depends on it: `not` gives `bool`, `+` and `~` the operand's type, `&` a pointer to it;
`countof` reads an array's count into a `size_t`. -/
def Uop.Typed (op : Uop) (t rt : Ty) : Prop :=
  match op with
  | .not => t = .bool
  | .pos | .bitnot => t = rt
  | .addressof => t = .pointer rt
  | .countof => ∀ n b, rt = .array n b → n < 2 ^ 64
  | .neg | .dereference => True

/-- The type `resolve.c` gives a binary node whose left operand has type `lt`, where the
evaluator's result depends on it: the logical operators and the comparisons give `bool`, the
bitwise operators the operands' type. -/
def Bop.Typed (op : Bop) (t lt : Ty) : Prop :=
  match op with
  | .or | .and | .eq | .ne | .le | .lt | .ge | .gt => t = .bool
  | .bitor | .bitxor | .bitand => t = lt
  | .shl | .shr | .add | .sub | .mul | .div => True

theorem Value.intPayload_eq_ok {r : Value} {x : Int} (h : r.intPayload = .ok x) :
    ∃ t, r = .integer t x := by
  cases r <;> cases h
  exact ⟨_, rfl⟩

/-- A unary node: `rv` and `lv` are the operand's value and address, of its type `rt`. -/
theorem evalUnary_typed {op : Uop} {rv lv : Except Fault Value} {rt : Ty}
    (hr : ∀ r, rv = .ok r → r.Typed rt) (hl : ∀ p, lv = .ok p → p.Typed (.pointer rt))
    (hop : op.Typed t rt) (h : evalUnary ss t op rv lv = .ok v) : v.Typed t := by
  cases op
  case not =>
    obtain rfl : t = .bool := hop
    iterate 2 obtain ⟨_, -, h⟩ := bind_eq_ok.1 h
    cases h
    exact ⟨rfl, trivial⟩
  case pos =>
    obtain rfl : t = rt := hop
    obtain ⟨_, hrv, h⟩ := bind_eq_ok.1 h
    obtain ⟨_, -, h⟩ := bind_eq_ok.1 h
    cases h
    exact hr _ hrv
  case neg =>
    iterate 4 obtain ⟨_, -, h⟩ := bind_eq_ok.1 h
    split at h
    · cases h
    · exact valueNewInteger_typed h
  case bitnot =>
    obtain rfl : t = rt := hop
    obtain ⟨r, hrv, h⟩ := bind_eq_ok.1 h
    obtain ⟨_, -, h⟩ := bind_eq_ok.1 h
    obtain ⟨hty, -⟩ := hr r hrv
    split at h
    · cases h
      exact ⟨hty, trivial⟩
    · split at h
      · exact hty ▸ valueNewInteger_typed h
      · cases h
    · cases h
  case dereference => cases h
  case addressof =>
    obtain rfl : t = .pointer rt := hop
    exact hl v h
  case countof =>
    obtain ⟨_, ht, h⟩ := bind_eq_ok.1 h
    obtain ⟨r, hrv, h⟩ := bind_eq_ok.1 h
    obtain ⟨hty, hwf⟩ := hr r hrv
    rw [check_eq_ok, decide_eq_true_eq] at ht
    rw [ht]
    split at h
    · rename_i count _ _ _ hc
      obtain ⟨_, -, h⟩ := bind_eq_ok.1 h
      cases h
      have hn := hop count _ (hty.symm.trans hc)
      exact ⟨rfl, .usize, rfl, (IntKind.min_le_zero _).trans (Int.natCast_nonneg _),
        show (count : Int) ≤ 2 ^ 64 - 1 by omega⟩
    · obtain ⟨_, -, h⟩ := bind_eq_ok.1 h
      obtain ⟨_, hx, h⟩ := bind_eq_ok.1 h
      cases h
      obtain ⟨_, rfl⟩ := Value.intPayload_eq_ok hx
      obtain ⟨_, -, -, -, hct, hc⟩ := hwf
      exact ⟨rfl, hct ▸ hc⟩
    · cases h

theorem evalArithmetic_typed {sym : String} {f : Int → Int → Int} {l r : Value}
    (h : evalArithmetic t sym f l r = .ok v) : v.Typed t := by
  iterate 5 obtain ⟨_, -, h⟩ := bind_eq_ok.1 h
  split at h
  · cases h
  · exact valueNewInteger_typed h

theorem evalDiv_typed {l r : Value} (h : evalDiv t l r = .ok v) : v.Typed t := by
  iterate 4 obtain ⟨_, -, h⟩ := bind_eq_ok.1 h
  split at h
  · cases h
  · exact valueNewInteger_typed h

/-- The bitwise operators keep the type of their left operand. -/
theorem evalBitwise_typed {fb : Bool → Bool → Bool} {fy : UInt8 → UInt8 → UInt8} {l r : Value}
    (hl : l.type = t) (h : evalBitwise ss fb fy l r = .ok v) : v.Typed t := by
  iterate 3 obtain ⟨_, -, h⟩ := bind_eq_ok.1 h
  split at h
  · cases h
    exact ⟨hl, trivial⟩
  · cases h
    exact ⟨hl, trivial⟩
  · dsimp only at h
    split at h
    · exact hl ▸ valueNewInteger_typed h
    · cases h
  · cases h

/-- The value of a boolean computed from the result of `x`. -/
theorem typed_bool_of_bind {α : Type} {x : Except Fault α} {g : α → Bool}
    (h : (x >>= fun a => pure (Value.boolean (g a))) = .ok v) : v.Typed .bool := by
  obtain ⟨_, -, h⟩ := bind_eq_ok.1 h
  cases h
  exact ⟨rfl, trivial⟩

/-- A binary node whose left operand has the value `l` of type `lt`. -/
theorem evalBinary_typed {op : Bop} {l r : Value} {lt : Ty} (hl : l.Typed lt)
    (hop : op.Typed t lt) (h : evalBinary ss t op l r = .ok v) : v.Typed t := by
  cases op
  case or | and =>
    obtain rfl : t = .bool := hop
    obtain ⟨_, -, h⟩ := bind_eq_ok.1 h
    exact typed_bool_of_bind h
  case eq | ne | le | lt | ge | gt =>
    obtain rfl : t = .bool := hop
    exact typed_bool_of_bind h
  case add | sub | mul => exact evalArithmetic_typed h
  case div => exact evalDiv_typed h
  case bitor | bitxor | bitand =>
    obtain rfl : t = lt := hop
    exact evalBitwise_typed hl.type_eq h
  case shl | shr => cases h

/-- The address of an identifier points to the symbol's type. -/
theorem evalLvalueSymbol_typed {s : Symbol} (h : evalLvalueSymbol s = .ok v) :
    v.Typed (.pointer s.type) := by
  unfold evalLvalueSymbol at h
  split at h
  · exact valueNewPointer_typed h
  all_goals cases h

/-- The address of an element of an array of element type `t`. -/
theorem evalLvalueIndex_typed {lhsType : Ty} {l i : Value} (hl : l.Typed (.pointer lhsType))
    (ht : ∀ n b, lhsType = .array n b → b = t) (h : evalLvalueIndex ss lhsType l i = .ok v) :
    v.Typed (.pointer t) := by
  iterate 2 obtain ⟨_, -, h⟩ := bind_eq_ok.1 h
  split at h
  · rename_i n _ hlt
    cases ht n _ (Ty.pointer.inj (hl.type_eq.symm.trans hlt))
    iterate 2 obtain ⟨_, -, h⟩ := bind_eq_ok.1 h
    split at h
    · dsimp only at h
      split_ifs at h
      · cases h
      · split at h
        · exact valueNewPointer_typed h
        · cases h
    · cases h
  · cases h

end Cases

/-! ## The evaluator -/

/-- The typing rules of `resolve.c` that the results of `eval_rvalue` and `eval_lvalue` depend
on. A node whose value the evaluator builds through a checked constructor of the node's own type
needs no rule, and an operand whose value does not reach the result needs none. -/
inductive Expr.WellTyped : Expr → Prop
  | symbol {s : Symbol} (hs : s.ValueTyped) : (Expr.symbol s).WellTyped
  | boolean (b : Bool) : (Expr.boolean b).WellTyped
  | integer (t : Ty) (x : Int) : (Expr.integer t x).WellTyped
  | bytes (a : Address) (n : Nat) : (Expr.bytes a n).WellTyped
  /-- The elements and the ellipsis of an array literal have its element type. -/
  | arrayList {t : Ty} {es : List Expr} {ell : Option Expr} (hes : ∀ e ∈ es, e.WellTyped)
      (hell : ∀ f ∈ ell, f.WellTyped)
      (ht : ∀ n b, t = .array n b → (∀ e ∈ es, e.type = b) ∧ ∀ f ∈ ell, f.type = b) :
      (Expr.arrayList t es ell).WellTyped
  | sliceList (t : Ty) (array : Symbol) (es : List Expr) : (Expr.sliceList t array es).WellTyped
  | slice {t : Ty} {p c : Expr} (hp : p.WellTyped) (hc : c.WellTyped) :
      (Expr.slice t p c).WellTyped
  | struct_ (t : Ty) (ms : List Expr) : (Expr.struct_ t ms).WellTyped
  | cast (t : Ty) (e : Expr) : (Expr.cast t e).WellTyped
  | syscall (args : List Expr) : (Expr.syscall args).WellTyped
  | call (f : Expr) (args : List Expr) : (Expr.call f args).WellTyped
  /-- Indexing an array gives its element type. -/
  | accessIndex {t : Ty} {lhs : Expr} (idx : Expr) (hl : lhs.WellTyped)
      (ht : ∀ n b, lhs.type = .array n b → b = t) : (Expr.accessIndex t lhs idx).WellTyped
  | accessSlice (t : Ty) (lhs b e : Expr) : (Expr.accessSlice t lhs b e).WellTyped
  | accessMemberVariable (t : Ty) (lhs : Expr) (m : String) :
      (Expr.accessMemberVariable t lhs m).WellTyped
  | sizeof (rhs : Ty) : (Expr.sizeof rhs).WellTyped
  | alignof (rhs : Ty) : (Expr.alignof rhs).WellTyped
  | unary {t : Ty} {op : Uop} {rhs : Expr} (hr : rhs.WellTyped) (hop : op.Typed t rhs.type) :
      (Expr.unary t op rhs).WellTyped
  | binary {t : Ty} {op : Bop} {lhs : Expr} (rhs : Expr) (hl : lhs.WellTyped)
      (hop : op.Typed t lhs.type) : (Expr.binary t op lhs rhs).WellTyped

section
variable {ε α β : Type}

/-- A run that fails after every result of its first step fails. -/
theorem bind_ne_ok {x : Except ε α} {f : α → Except ε β} {b : β} (hf : ∀ a, f a ≠ .ok b) :
    x >>= f ≠ .ok b := fun h =>
  let ⟨a, _, h⟩ := bind_eq_ok.1 h
  hf a h

end

variable {ss : Nat → Nat}

theorem evalRvalueList_typed {b : Ty} :
    ∀ {es : List Expr} {vs : List Value}, (∀ e ∈ es, ∀ v, evalRvalue ss e = .ok v → v.Typed b) →
      evalRvalueList ss es = .ok vs → ∀ v ∈ vs, v.Typed b
  | [], _, _, h => by
    cases h
    exact fun _ => nofun
  | e :: es, _, hes, h => by
    obtain ⟨_, he, h⟩ := bind_eq_ok.1 h
    obtain ⟨_, hvs, h⟩ := bind_eq_ok.1 h
    cases h
    simp only [List.mem_cons, forall_eq_or_imp]
    exact ⟨hes e (List.mem_cons_self _ _) _ he,
      evalRvalueList_typed (fun e' he' => hes e' (List.mem_cons_of_mem _ he')) hvs⟩

/-- On a well-typed node, `eval_rvalue` returns a well-formed value of the node's type and
`eval_lvalue` a pointer to it, whenever they return. -/
theorem evalRvalue_typed {e : Expr} (h : e.WellTyped) :
    (∀ v, evalRvalue ss e = .ok v → v.Typed e.type) ∧
      ∀ v, evalLvalue ss e = .ok v → v.Typed (.pointer e.type) := by
  have otherwise {e : Expr} {v : Value} : (exprIsLvalue e >>= fun c => check c "eval_lvalue" >>=
      fun _ => (throw (.internal "eval_lvalue") : Except Fault Value)) ≠ .ok v :=
    bind_ne_ok fun _ => bind_ne_ok fun _ => throw_ne_ok
  induction h with
  | symbol hs =>
    refine ⟨fun _ => evalSymbol_typed hs, fun _ h => ?_⟩
    iterate 2 obtain ⟨_, -, h⟩ := bind_eq_ok.1 h
    exact evalLvalueSymbol_typed h
  | boolean => exact ⟨fun _ h => by cases h; exact ⟨rfl, trivial⟩, fun _ h => absurd h otherwise⟩
  | integer => exact ⟨fun _ => evalInteger_typed, fun _ h => absurd h otherwise⟩
  | bytes => exact ⟨fun _ => evalBytes_typed, fun _ h => absurd h otherwise⟩
  | @arrayList t es ell _ _ ht ihes ihell =>
    refine ⟨fun v h => ?_, fun _ h => absurd h otherwise⟩
    have hvs {vs} (hvs : evalRvalueList ss es = .ok vs) n b (heq : t = .array n b) :
        ∀ v ∈ vs, v.Typed b :=
      evalRvalueList_typed (fun e he _ hv => (ht n b heq).1 e he ▸ (ihes e he).1 _ hv) hvs
    cases ell with
    | none =>
      obtain ⟨vs, hes, h⟩ := bind_eq_ok.1 h
      exact valueNewArray_typed (hvs hes) h
    | some f =>
      obtain ⟨vs, hes, h⟩ := bind_eq_ok.1 h
      obtain ⟨fv, hfv, h⟩ := bind_eq_ok.1 h
      exact evalArrayFill_typed
        (fun n b heq => ⟨hvs hes n b heq, (ht n b heq).2 f rfl ▸ (ihell f rfl).1 fv hfv⟩) h
  | slice _ _ ihp ihc =>
    refine ⟨fun v h => ?_, fun _ h => absurd h otherwise⟩
    obtain ⟨_, hp, h⟩ := bind_eq_ok.1 h
    obtain ⟨_, hc, h⟩ := bind_eq_ok.1 h
    exact valueNewSlice_typed (ihp.1 _ hp).wellFormed (ihc.1 _ hc).wellFormed h
  | cast =>
    refine ⟨fun v h => ?_, fun _ h => absurd h otherwise⟩
    obtain ⟨_, -, h⟩ := bind_eq_ok.1 h
    exact evalCast_typed h
  | sliceList | struct_ | syscall | call | accessMemberVariable | alignof =>
    exact ⟨fun _ h => absurd h throw_ne_ok, fun _ h => absurd h otherwise⟩
  | accessIndex _ _ ht ih =>
    refine ⟨fun v h => ?_, fun v h => ?_⟩
    · obtain ⟨_, hl, h⟩ := bind_eq_ok.1 h
      obtain ⟨_, -, h⟩ := bind_eq_ok.1 h
      exact evalAccessIndex_typed (ih.1 _ hl) ht h
    · iterate 2 obtain ⟨_, -, h⟩ := bind_eq_ok.1 h
      obtain ⟨_, hl, h⟩ := bind_eq_ok.1 h
      obtain ⟨_, -, h⟩ := bind_eq_ok.1 h
      exact evalLvalueIndex_typed (ih.2 _ hl) ht h
  | accessSlice =>
    refine ⟨fun v h => ?_, fun _ h => absurd h otherwise⟩
    iterate 3 obtain ⟨_, -, h⟩ := bind_eq_ok.1 h
    exact evalAccessSlice_typed h
  | sizeof => exact ⟨fun _ => valueNewInteger_typed, fun _ h => absurd h otherwise⟩
  | unary _ hop ih =>
    refine ⟨fun _ => evalUnary_typed ih.1 ih.2 hop, fun v h => ?_⟩
    iterate 2 obtain ⟨_, -, h⟩ := bind_eq_ok.1 h
    split at h <;> cases h
  | binary _ _ hop ih =>
    refine ⟨fun v h => ?_, fun _ h => absurd h otherwise⟩
    obtain ⟨_, hl, h⟩ := bind_eq_ok.1 h
    obtain ⟨_, -, h⟩ := bind_eq_ok.1 h
    exact evalBinary_typed (ih.1 _ hl) hop h

/-- `~1` at `u8`. -/
theorem evalRvalue_typed_bitnot :
    (Expr.unary (.int .u8) .bitnot (.integer (.int .u8) 1)).WellTyped ∧
      ((∀ v, evalRvalue (fun _ => 0) (.unary (.int .u8) .bitnot (.integer (.int .u8) 1)) = .ok v →
        v.Typed (.int .u8)) ∧
      ∀ v, evalLvalue (fun _ => 0) (.unary (.int .u8) .bitnot (.integer (.int .u8) 1)) = .ok v →
        v.Typed (.pointer (.int .u8))) :=
  ⟨.unary (.integer _ _) rfl, evalRvalue_typed (.unary (.integer _ _) rfl)⟩

end Sunder
