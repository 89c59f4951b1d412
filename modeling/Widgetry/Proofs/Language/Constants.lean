import Widgetry.Proofs.Language.Memory

/-!
# Variables that may not be assigned to

A variable of the program that `let` declares keeps its value, whatever methods are run and however
they end: an assignment to it is refused before its value is even worked out, and a declaration
inside a function makes a variable of that function.

> `call_constant`: a call leaves such variables as they were.

This goes along with the `Footprint` of a run, by which the same variables stay immutable.
-/

namespace Widgetry

/-- Whether the immutable variables of the program have the values that they had. -/
def Machine.Constant (m m' : Machine) : Prop :=
  ∀ name ∈ m.globals.consts, m'.globals.get? name = m.globals.get? name

/-- The same of the memory alone; the same variables are immutable. -/
def ConstantIn (a b : Scope × Store) : Prop :=
  b.1.consts = a.1.consts ∧ ∀ name ∈ a.1.consts, b.1.get? name = a.1.get? name

instance : IsPreorder (Scope × Store) ConstantIn where
  refl _ := ⟨rfl, fun _ _ => rfl⟩
  trans _ _ _ h h' := by
    refine ⟨h'.1.trans h.1, fun name hn => ?_⟩
    rw [h'.2 name (h.1 ▸ hn), h.2 name hn]

/-- A write to another place than an immutable variable. -/
theorem constantIn_save {m : Machine} {name : String} {slot : Slot}
    (h : slot = .global → name ∉ m.globals.consts) (v : Value) :
    ConstantIn m.memory (m.save name v slot).memory := by
  cases slot with
  | inner i => exact refl_of ConstantIn m.memory
  | field t => exact ⟨rfl, fun _ _ => rfl⟩
  | global =>
    refine ⟨rfl, fun other ho => ?_⟩
    have hne : ¬ name = other := by
      rintro rfl
      exact h rfl ho
    show (m.globals.values.put name v).get? other = _
    rw [Fields.get?_put, if_neg hne]
    rfl

namespace Footprint

variable {c : Context}

/-- A variable of the program that was found as a target is not immutable. -/
theorem not_const_of_targetSlot {m m' : Machine} {target : Target} {line : Nat} {slot : Slot}
    (h : Run.targetSlot c target line m = (.ok slot, m')) (hslot : slot = .global) :
    target.label ∉ m.globals.consts := by
  subst hslot
  cases target with
  | member obj name l =>
    obtain ⟨-, _, he, -⟩ := targetSlot_member h
    cases he
  | name name l =>
    intro hmem
    have hmem : name ∈ m.globals.consts := hmem
    have hk := (targetSlot_name h).2
    rw [Machine.isConst, List.contains_iff_mem.mpr hmem] at hk
    cases hk

/-- Every assignment leaves immutable variables alone: meanwhile nothing becomes immutable. -/
theorem allows_constant (t : TableId) : Allows t ConstantIn fun _ _ => True where
  part _ _ := trivial
  callee _ _ _ := trivial
  write v _ _ hs ht := constantIn_save (fun he => ht.consts ▸ not_const_of_targetSlot hs he) v

end Footprint

/-- **A call leaves the immutable variables of the program as they are**, however it ends. -/
theorem call_constant {t : TableId} {c : Context} (hc : Footprint.Ok t c) (d : Nat) (fn : FnDecl)
    (args : List Value) (m : Machine) : m.Constant (call d c fn args m).2 :=
  (call_follows (Footprint.allows_constant t) hc d (fun _ _ => trivial) args m).2

end Widgetry
