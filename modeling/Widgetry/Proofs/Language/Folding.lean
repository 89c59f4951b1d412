import Widgetry.Language.Constant
import Widgetry.Proofs.Language.Locality

/-!
# Constant expressions in a running program

An expression that has a value without any program around it has that value in every program. And if
it is refused there, because of a division by zero or an operand of the wrong type, it is refused in
the same way by every program.

> `constant_evaluated`: wherever such an expression is run, it changes nothing and comes to its constant
> value or error, as long as it does not nest deeper than it may there (`Expr.height`).

An expression of another shape has no constant: its `Constant.outcome?` is nothing, and nothing is
said about it.
-/

namespace Widgetry

/-- What running an expression has to come to if this is what it is as a constant. -/
def Constant.outcome? {α : Type} :
    Except NumberFault (Except NotConstant α) → Option (Except Halt α)
  | .ok (.ok a) => some (.ok a)
  | .ok (.error (.refused e)) => some (.error (.fault (.source e)))
  | .ok (.error .shape) => none
  | .error e => some (.error (.fault (.number e)))

open Constant

/-! ## Constant values -/

/-- Nothing refers to a table. -/
abbrev NoTable : TableId → Prop := fun _ => False

/-- Two stores agree on nothing. -/
theorem Store.agree_noTable (σ₁ σ₂ : Store) : σ₁.Agree NoTable σ₂ :=
  ⟨fun _ h => h.elim, fun _ h => h.elim⟩

theorem settle_eq_ok {α : Type} {r : Except Fault α} {a : α} (h : settle r = .ok (.ok a)) :
    r = .ok a := by
  cases r with
  | ok b =>
    cases h
    rfl
  | error f => cases f <;> cases h

/-- A sequence of constants is constant if its parts are. -/
theorem Constant.bound_eq_ok {α β : Type} {r : Except NumberFault (Except NotConstant α)}
    {f : α → Except NumberFault (Except NotConstant β)} {b : β}
    (h : Constant.bind r f = .ok (.ok b)) : ∃ a, r = .ok (.ok a) ∧ f a = .ok (.ok b) := by
  cases r with
  | error e => cases h
  | ok r =>
    cases r with
    | error e => cases h
    | ok a => exact ⟨a, rfl, h⟩

mutual

/-- A constant refers to no table of fields. -/
theorem within_constant {v : Value} : ∀ {e : Expr}, e.constant = .ok (.ok v) → v.Within NoTable
  | .literal s line, h => by
    cases h
    exact Value.within_scalar s
  | .array items line, h => by
    obtain ⟨vs, hvs, h⟩ := bound_eq_ok h
    cases h
    exact Value.within_list.mpr (within_constantItems hvs)
  | .unary op operand line, h => by
    obtain ⟨w, -, h⟩ := bound_eq_ok h
    exact within_applyUnary (settle_eq_ok h)
  | .binary op left right line, h => by
    rw [Expr.constant] at h
    split at h
    · cases h
    · obtain ⟨a, ha, h⟩ := bound_eq_ok h
      obtain ⟨b, hb, h⟩ := bound_eq_ok h
      exact Locality.within_applyBinary (within_constant ha) (within_constant hb)
        (settle_eq_ok h)
  | .ident .., h => nomatch h
  | .member .., h => nomatch h
  | .call .., h => nomatch h
  | .node .., h => nomatch h

theorem within_constantItems {vs : List Value} :
    ∀ {es : List Expr}, constantItems es = .ok (.ok vs) → ∀ v ∈ vs, v.Within NoTable
  | [], h => by
    cases h
    exact fun _ hv => nomatch hv
  | e :: rest, h => by
    obtain ⟨v, hv, h⟩ := bound_eq_ok h
    obtain ⟨ws, hws, h⟩ := bound_eq_ok h
    cases h
    intro w hw
    rcases List.mem_cons.mp hw with rfl | hw
    · exact within_constant hv
    · exact within_constantItems hws w hw

end

/-! ## Running them -/

mutual

/-- How deep a constant expression nests. -/
def Expr.height : Expr → Nat
  | .array items _ => heightOfItems items + 1
  | .unary _ operand _ => operand.height + 1
  | .binary _ left right _ => max left.height right.height + 1
  | .literal .. | .ident .. | .member .. | .call .. | .node .. => 1

def heightOfItems : List Expr → Nat
  | [] => 0
  | e :: rest => max e.height (heightOfItems rest)

end

theorem heightOfItems_le_iff {es : List Expr} {d : Nat} :
    heightOfItems es ≤ d ↔ ∀ e ∈ es, e.height ≤ d := by
  induction es with
  | nil => simp [heightOfItems]
  | cons e rest ih => rw [heightOfItems, Nat.max_le, ih, List.forall_mem_cons]

/-- Whether a computation changes nothing and comes to what it is as a constant, if it is one. If it
does not fit, it halts for that, or before that for its own error. -/
def Run.Settles {α : Type} (fits : Prop) (x : Run α)
    (r : Except NumberFault (Except NotConstant α)) : Prop :=
  ∀ (m : Machine) (o : Except Halt α), outcome? r = some o →
    (fits → x m = (o, m)) ∧
      (¬ fits → x m = (.error .tooDeep, m) ∨ x m = (o, m) ∧ ∃ h, o = .error h)

namespace Run.Settles

variable {α β : Type} {fits fits' : Prop}

theorem congr {x : Run α} {r : Except NumberFault (Except NotConstant α)} (h : Settles fits x r)
    (hfits : fits ↔ fits') : Settles fits' x r := by
  intro m o ho
  obtain ⟨hyes, hno⟩ := h m o ho
  exact ⟨fun h => hyes (hfits.mpr h), fun h => hno fun h' => h (hfits.mp h')⟩

theorem pure (a : α) : Settles True (Pure.pure a) (.ok (.ok a)) := by
  intro m o ho
  cases ho
  exact ⟨fun _ => rfl, fun h => absurd trivial h⟩

theorem tooDeep (r : Except NumberFault (Except NotConstant α)) :
    Settles False (Run.halt .tooDeep) r :=
  fun _ _ _ => ⟨False.elim, fun _ => .inl rfl⟩

/-- Nothing is said about what is no constant by its shape. -/
theorem shape (x : Run α) : Settles fits x (.ok (.error .shape)) := by
  intro m o ho
  cases ho

theorem ofExcept (r : Except Fault α) : Settles True (Run.ofExcept r) (settle r) := by
  intro m o ho
  refine ⟨fun _ => ?_, fun h => absurd trivial h⟩
  cases r with
  | ok a =>
    cases ho
    rfl
  | error f =>
    cases f <;>
    · cases ho
      rfl

/-- A computation that ends the whole with its error. -/
theorem stopped {x : Run α} {f : α → Run β} {r : Except NumberFault (Except NotConstant α)}
    (hx : Settles fits x r) {h : Halt} (hr : outcome? r = some (.error h)) (m : Machine) :
    (fits → (x >>= f) m = (.error h, m)) ∧
      (¬ fits → (x >>= f) m = (.error .tooDeep, m) ∨ (x >>= f) m = (.error h, m)) := by
  obtain ⟨hyes, hno⟩ := hx m _ hr
  constructor
  · intro hfits
    rw [Run.run_bind, hyes hfits]
  · intro hfits
    rcases hno hfits with he | ⟨he, -⟩
    · exact .inl (by rw [Run.run_bind, he])
    · exact .inr (by rw [Run.run_bind, he])

/-- What follows has to settle only for a value that is constant. -/
theorem bind {x : Run α} {r : Except NumberFault (Except NotConstant α)} {f : α → Run β}
    {g : α → Except NumberFault (Except NotConstant β)} (hx : Settles fits x r)
    (hf : ∀ a, r = .ok (.ok a) → Settles fits' (f a) (g a)) :
    Settles (fits ∧ fits') (x >>= f) (Constant.bind r g) := by
  intro m o ho
  -- an error is that of the whole, whether the rest fits or not
  have herror : ∀ h, outcome? r = some (.error h) → o = .error h →
      (fits ∧ fits' → (x >>= f) m = (o, m)) ∧
        (¬ (fits ∧ fits') → (x >>= f) m = (.error .tooDeep, m) ∨
          (x >>= f) m = (o, m) ∧ ∃ h, o = .error h) := by
    rintro h hr rfl
    obtain ⟨hyes, hno⟩ := hx.stopped hr m
    refine ⟨fun hfits => hyes hfits.1, fun _ => ?_⟩
    by_cases hfits : fits
    · exact .inr ⟨hyes hfits, h, rfl⟩
    · exact (hno hfits).imp_right fun he => ⟨he, h, rfl⟩
  match r with
  | .ok (.ok a) =>
    obtain ⟨hyes, hno⟩ := hx m _ rfl
    obtain ⟨hyes', hno'⟩ := hf a rfl m o ho
    rw [Run.run_bind]
    by_cases hfits : fits
    · rw [hyes hfits]
      exact ⟨fun h => hyes' h.2, fun h => hno' fun h' => h ⟨hfits, h'⟩⟩
    · rcases hno hfits with he | ⟨-, h, he⟩
      · rw [he]
        exact ⟨fun h => absurd h.1 hfits, fun _ => .inl rfl⟩
      · cases he
  | .ok (.error (.refused e)) =>
    cases ho
    exact herror _ rfl rfl
  | .ok (.error .shape) => cases ho
  | .error e =>
    cases ho
    exact herror _ rfl rfl

theorem each {f : Expr → Run Value} {fits : Expr → Prop}
    (hf : ∀ e, Settles (fits e) (f e) e.constant) (es : List Expr) :
    Settles (∀ e ∈ es, fits e) (Run.each f es) (constantItems es) := by
  induction es with
  | nil => exact (pure []).congr (by simp)
  | cons e rest ih =>
    refine (bind (hf e) fun v _ => bind ih fun vs _ => pure (v :: vs)).congr ?_
    rw [and_true, List.forall_mem_cons]

/-- On values without references an operator does in every program what it does in none. -/
theorem operate {a b : Value} (op : BinaryOp) (line : Nat) (ha : a.Within NoTable)
    (hb : b.Within NoTable) :
    Settles True (Run.operate op a b line) (settle (applyBinary {} op a b (some line))) := by
  intro m o ho
  rw [Run.operate, Run.run_bind_ok (Run.run_get m),
    Locality.applyBinary_eq (Store.agree_noTable m.store {}) ha hb]
  exact ofExcept _ m o ho

end Run.Settles

theorem eval_binary {op : BinaryOp} (h : op.isLogical = false) (d : Nat) (c : Context)
    (left right : Expr) (line : Nat) :
    eval (d + 1) c (.binary op left right line) = (do
      let a ← eval d c left
      let b ← eval d c right
      Run.operate op a b line) := by
  cases op with
  | and => cases h
  | or => cases h
  | _ => rfl

/-- A constant expression is in every program what it is without one, if it fits. -/
theorem eval_constant (d : Nat) (c : Context) (e : Expr) :
    Run.Settles (e.height ≤ d) (eval d c e) e.constant := by
  induction d generalizing e with
  | zero =>
    refine (Run.Settles.tooDeep _).congr ?_
    cases e <;> simp [Expr.height]
  | succ d ih =>
    cases e with
    | literal s line => exact (Run.Settles.pure _).congr (by simp [Expr.height])
    | array items line =>
      refine (Run.Settles.bind (.each ih items) fun vs _ => .pure _).congr ?_
      rw [and_true, Expr.height, Nat.succ_le_succ_iff, heightOfItems_le_iff]
    | unary op operand line =>
      refine (Run.Settles.bind (ih operand) fun v _ => .ofExcept _).congr ?_
      rw [and_true, Expr.height, Nat.succ_le_succ_iff]
    | binary op left right line =>
      cases hop : op.isLogical with
      | true =>
        rw [Expr.constant, hop]
        exact .shape _
      | false =>
        rw [Expr.constant, hop, eval_binary hop]
        refine (Run.Settles.bind (ih left) fun a ha => .bind (ih right) fun b hb =>
          .operate op line (within_constant ha) (within_constant hb)).congr ?_
        rw [and_true, Expr.height, Nat.succ_le_succ_iff, Nat.max_le]
    | ident name line => exact .shape _
    | member obj name line => exact .shape _
    | call callee args line => exact .shape _
    | node kind args props body line => exact .shape _

/-- A constant that was run with success came to its value and left everything as it was. -/
theorem eval_constant_ok {d : Nat} {c : Context} {e : Expr} {m m' : Machine} {v w : Value}
    (hv : e.constant = .ok (.ok v)) (h : eval d c e m = (.ok w, m')) : w = v ∧ m' = m := by
  obtain ⟨hyes, hno⟩ := eval_constant d c e m (.ok v) (by rw [hv]; rfl)
  by_cases hfits : e.height ≤ d
  · rw [hyes hfits] at h
    cases h
    exact ⟨rfl, rfl⟩
  · rcases hno hfits with hr | ⟨-, f, hr⟩
    · rw [hr] at h
      cases h
    · cases hr

/-- **A constant expression comes to its value in every program, and changes nothing.** It does so
exactly if it nests no deeper than it may. An operator that refuses its operands refuses them in every
program, with the same error at the same line, unless the expression nests too deep. -/
theorem Expr.constant_evaluated (d : Nat) (c : Context) (e : Expr) (m : Machine) :
    (∀ v, e.constant = .ok (.ok v) →
      eval d c e m = (if e.height ≤ d then .ok v else .error .tooDeep, m)) ∧
    ∀ f, e.constant = .ok (.error (.refused f)) →
      eval d c e m = (.error (.fault (.source f)), m) ∨
        d < e.height ∧ eval d c e m = (.error .tooDeep, m) := by
  constructor
  · intro v hv
    obtain ⟨hyes, hno⟩ := eval_constant d c e m (.ok v) (by rw [hv]; rfl)
    split
    · next hfits => exact hyes hfits
    · next hfits =>
      rcases hno hfits with hr | ⟨-, f, hr⟩
      · exact hr
      · cases hr
  · intro f hf
    obtain ⟨hyes, hno⟩ := eval_constant d c e m (.error (.fault (.source f))) (by rw [hf]; rfl)
    by_cases hfits : e.height ≤ d
    · exact .inl (hyes hfits)
    · rcases hno hfits with hr | ⟨hr, -⟩
      · exact .inr ⟨Nat.lt_of_not_le hfits, hr⟩
      · exact .inl hr

/-- The operands `7` and `0`, in the third line of a text, under an operator. -/
def sevenAndZero (op : BinaryOp) : Expr := .binary op (.literal (.int 7) 3) (.literal (.int 0) 3) 3

/-- A program without statements. -/
def emptyContext : Context := { code := ⟨[], none⟩ }

/-- Their sum is what it is as a constant, if it may nest so deep. Their quotient is refused. -/
theorem seven_and_zero_evaluated :
    eval 2 emptyContext (sevenAndZero .add) {} = (.ok (.scalar (.int 7)), {}) ∧
      eval 1 emptyContext (sevenAndZero .add) {} = (.error .tooDeep, {}) ∧
      eval 2 emptyContext (sevenAndZero .div) {}
        = (.error (.fault (.source (.evaluation .divisionByZero (some 3)))), {}) := by
  have hsum : (sevenAndZero .add).constant = .ok (.ok (.scalar (.int 7))) := rfl
  have hquotient : (sevenAndZero .div).constant
      = .ok (.error (.refused (.evaluation .divisionByZero (some 3)))) := rfl
  have hheight (op : BinaryOp) : (sevenAndZero op).height = 2 := rfl
  refine ⟨?_, ?_, ?_⟩
  · rw [(Expr.constant_evaluated 2 _ _ _).1 _ hsum, hheight, if_pos (Nat.le_refl 2)]
  · rw [(Expr.constant_evaluated 1 _ _ _).1 _ hsum, hheight, if_neg (by decide)]
  · rcases (Expr.constant_evaluated 2 emptyContext _ {}).2 _ hquotient with h | ⟨hdeep, -⟩
    · exact h
    · exact absurd hdeep (by rw [hheight]; decide)

end Widgetry
