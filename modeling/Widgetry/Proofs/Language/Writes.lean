import Widgetry.Proofs.Language.Memory

/-!
# Which names a call can write

An assignment names what it writes to. So a field, or a variable of the program, can get another
value in a call only if an assignment to its name stands somewhere in what the call may run: in the
function, or in one that is called on the way.

> `call_spares`: every other field and every other variable has the value that it had, however the
> call ends.

In a method a name stands for a field before it stands for a variable, and in a function, which sees
no fields, it never stands for a field. A name of a scope may hide both.
-/

namespace Widgetry

/-- The field that an assignment in a method may write to. -/
def Target.field? : Target → Option String
  | .name n _ => some n
  | .member obj n _ => if obj.isSelf then some n else none

/-- The variable of the program that an assignment may write to. -/
def Target.variable? : Target → Option String
  | .name n _ => some n
  | .member .. => none

namespace Target

variable {target : Target} {n : String}

theorem label_of_field? (h : target.field? = some n) : target.label = n := by
  cases target with
  | name m l => exact Option.some.inj h
  | member obj m l =>
    rw [field?] at h
    split at h
    · exact Option.some.inj h
    · cases h

theorem label_of_variable? (h : target.variable? = some n) : target.label = n := by
  cases target with
  | name m l => exact Option.some.inj h
  | member obj m l => cases h

end Target

namespace Context

/-- Whether a field may be written to while a function is run in a context. -/
def MayWriteField (c₀ : Context) (fn₀ : FnDecl) (field : String) : Prop :=
  ∃ c target op e line, c₀.MayRun fn₀ c (.stmt (.assign target op e line)) ∧
    c.fields ≠ none ∧ target.field? = some field

/-- Whether a variable of the program may be written to while a function is run in a context that
has fields of some names. -/
def MayWriteVariable (c₀ : Context) (fn₀ : FnDecl) (fields : List String) (name : String) : Prop :=
  ∃ c target op e line, c₀.MayRun fn₀ c (.stmt (.assign target op e line)) ∧
    target.variable? = some name ∧ (c.fields ≠ none → name ∉ fields)

end Context

/-- Whether all fields and variables that a function may not write to have the values that they
had. -/
structure Spares (t : TableId) (c₀ : Context) (fn₀ : FnDecl) (a b : Scope × Store) : Prop where
  names : (b.2.get t).names = (a.2.get t).names
  fields : ∀ field, ¬ c₀.MayWriteField fn₀ field →
    (b.2.get t).get? field = (a.2.get t).get? field
  vars : ∀ name, ¬ c₀.MayWriteVariable fn₀ (a.2.get t).names name →
    b.1.get? name = a.1.get? name

namespace Spares

variable {t : TableId} {c c₀ : Context} {fn₀ : FnDecl}

instance : IsPreorder (Scope × Store) (Spares t c₀ fn₀) where
  refl _ := ⟨rfl, fun _ _ => rfl, fun _ _ => rfl⟩
  trans _ _ _ h h' := by
    refine ⟨h'.names.trans h.names, fun field hf => ?_, fun name hn => ?_⟩
    · rw [h'.fields field hf, h.fields field hf]
    · rw [h'.vars name (h.names ▸ hn), h.vars name hn]

/-- An assignment that finds a field names it. -/
theorem field_of_targetSlot {m m' : Machine} {target : Target} {line : Nat} {u : TableId}
    (h : Run.targetSlot c target line m = (.ok (.field u), m')) :
    c.fields = some u ∧ target.field? = some target.label := by
  have hfields : c.fields = some u := by
    rcases Footprint.targetSlot_cases h with ⟨_, he, hu, -⟩ | hslot
    · cases he
      exact hu
    · rcases Footprint.slot?_cases hslot with ⟨_, he, -⟩ | ⟨_, he, hu, -⟩ | ⟨he, -⟩
      · cases he
      · cases he
        exact hu
      · cases he
  refine ⟨hfields, ?_⟩
  cases target with
  | name name l => rfl
  | member obj name l => exact if_pos (Footprint.targetSlot_member h).1

/-- An assignment that finds a variable of the program names it, and no field has the name. -/
theorem variable_of_targetSlot {m m' : Machine} {target : Target} {line : Nat}
    (h : Run.targetSlot c target line m = (.ok .global, m')) :
    target.variable? = some target.label ∧
      ∀ u, c.fields = some u → target.label ∉ (m.store.get u).names := by
  rcases Footprint.targetSlot_cases h with ⟨_, he, -⟩ | hslot
  · cases he
  · refine ⟨?_, fun u hu hmem => ?_⟩
    · cases target with
      | name name l => rfl
      | member obj name l =>
        obtain ⟨-, _, he, -⟩ := Footprint.targetSlot_member h
        cases he
    · have hhas := Fields.has_iff_mem_names.mpr hmem
      unfold Machine.slot? at hslot
      rw [hu] at hslot
      dsimp only at hslot
      rw [if_pos hhas] at hslot
      split at hslot <;> cases hslot

/-- **An assignment that may be run writes to no name that may not be written to.** -/
theorem allows (t : TableId) (c₀ : Context) (fn₀ : FnDecl) :
    Footprint.Allows t (Spares t c₀ fn₀) (c₀.MayRun fn₀) where
  part := .part
  callee := .call
  write {c target op e line m m₁ slot} v hrun hc hs ht := by
    have hfits := (Footprint.fits_of_targetSlot hc hs).mono ht
    obtain ⟨htouch, -⟩ := Footprint.touches_save hfits v
    refine ⟨htouch.fields, fun field hf => ?_, fun name hn => ?_⟩
    · cases slot with
      | inner i => rfl
      | global => rfl
      | field u =>
        obtain ⟨rfl, hhas⟩ := hfits
        obtain ⟨hu, hfield⟩ := field_of_targetSlot hs
        have hne : ¬ target.label = field := by
          rintro rfl
          exact hf ⟨c, target, op, e, line, hrun, by rw [hu]; exact Option.some_ne_none u, hfield⟩
        have hin : m₁.store.Has u := by
          by_contra hno
          rw [Store.get_of_not_has hno] at hhas
          cases hhas
        show ((m₁.store.set u _).get u).get? field = _
        rw [Store.get_set_self hin, Fields.get?_put, if_neg hne]
        rfl
    · cases slot with
      | inner i => rfl
      | field u => rfl
      | global =>
        obtain ⟨hvariable, hfree⟩ := variable_of_targetSlot hs
        have hne : ¬ target.label = name := by
          rintro rfl
          refine hn ⟨c, target, op, e, line, hrun, hvariable, fun hsome => ?_⟩
          obtain ⟨u, hu⟩ := Option.ne_none_iff_exists'.mp hsome
          obtain rfl := hc u hu
          show _ ∉ (m₁.store.get u).names
          rw [ht.fields]
          exact hfree u hu
        show (m₁.globals.values.put target.label v).get? name = _
        rw [Fields.get?_put, if_neg hne]
        rfl

end Spares

/-- **A call leaves every field and every variable as it was to which nothing is assigned in what
the call may run**, however it ends. -/
theorem call_spares {t : TableId} {c : Context} (hc : Footprint.Ok t c) (d : Nat) (fn : FnDecl)
    (args : List Value) (m : Machine) :
    Spares t c fn m.memory (call d c fn args m).2.memory :=
  call_follows (Spares.allows t c fn) hc d (fun _ hs => .body hs) args m

end Widgetry
