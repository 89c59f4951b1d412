import Widgetry.Proofs.Host.Messages
import Widgetry.Proofs.Host.Reload

/-!
# Widgets and the program that declares them

The widgets of a host are made for a program, and from then on requests write to their fields, copy
their tables and carry values over. None of that adds or drops a widget or a field.

> `reachable_fits`: in every host that requests lead to from one without a program, the widgets are
> those that the loaded program declares and each has the fields that its declaration names; without
> a program there are no widgets.

Whatever a request does that is not loading keeps the field names of every widget and the code of
the program (`outcome_fieldNames`); loading makes both anew, and together.
-/

namespace Widgetry

namespace Host.Core

/-- The names of the fields that a widget has. -/
def fieldNames? (c : Host.Core) (widget : String) : Option (List String) :=
  (c.widgets.get? widget).map fun s => (c.store.get s.table).names

/-- Whether the widgets are those of a program, each with the fields that it declares. -/
structure Fits (c : Host.Core) (p : Program) : Prop where
  widgets : ∀ widget, (c.fieldNames? widget).isSome ↔ p.HasWidget widget
  fields : ∀ widget names, c.fieldNames? widget = some names →
    names.Nodup ∧ ∀ field, field ∈ names ↔ field ∈ p.code.fieldNames widget

/-- Whether the widgets are those of the program that is loaded, if there is one. -/
def Declared (c : Host.Core) : Prop :=
  match c.engine.program with
  | none => ∀ widget, c.fieldNames? widget = none
  | some p => c.Fits p

variable {c c' : Host.Core} {p : Program}

/-- What a program declares depends on its code only. -/
theorem Fits.congr {p' : Program} (h : c.Fits p) (hcode : p'.code = p.code)
    (hnames : ∀ widget, c'.fieldNames? widget = c.fieldNames? widget) : c'.Fits p' where
  widgets widget := by
    rw [hnames, h.widgets, Program.HasWidget, Program.HasWidget, hcode]
  fields widget names hn := by
    rw [hnames] at hn
    rw [hcode]
    exact h.fields widget names hn

/-- Changes that keep the program, but for its variables, and the names of all fields. -/
theorem Declared.congr (h : c.Declared) (hp : c.engine.SameProgram c'.engine)
    (hnames : ∀ widget, c'.fieldNames? widget = c.fieldNames? widget) : c'.Declared := by
  unfold Declared at h ⊢
  unfold Interpreter.SameProgram at hp
  generalize c.engine.program = old at h hp
  generalize c'.engine.program = new at hp ⊢
  cases hp with
  | none => exact fun widget => (hnames widget).trans (h widget)
  | some hbut => exact h.congr hbut.code hnames

end Host.Core

/-! ## Requests that load nothing -/

/-- Running a method changes no names, whichever widgets have the tables. -/
theorem names_footprint {σ σ' : Store} {t : TableId} (hf : σ.Footprint t σ') (u : TableId) :
    (σ'.get u).names = (σ.get u).names := by
  by_cases hu : u = t
  · rw [hu, hf.names]
  · rw [hf.others u hu]

variable {c c' : Host.Core}

/-- Widgets keep the names of their fields as long as their tables do. -/
theorem fieldNames?_of_names (hw : c'.widgets = c.widgets)
    (h : ∀ n s, c.widgets.get? n = some s →
      (c'.store.get s.table).names = (c.store.get s.table).names) (widget : String) :
    c'.fieldNames? widget = c.fieldNames? widget := by
  rw [Host.Core.fieldNames?, hw, Host.Core.fieldNames?]
  cases hg : c.widgets.get? widget with
  | none => rfl
  | some s => exact congrArg some (h widget s hg)

/-- The same if one of them gets another table. -/
theorem fieldNames?_modify {name : String} {f : WidgetState → WidgetState}
    (hw : c'.widgets = c.widgets.modify name f)
    (hself : ∀ s, c.widgets.get? name = some s →
      (c'.store.get (f s).table).names = (c.store.get s.table).names)
    (hothers : ∀ n s, n ≠ name → c.widgets.get? n = some s →
      (c'.store.get s.table).names = (c.store.get s.table).names) (widget : String) :
    c'.fieldNames? widget = c.fieldNames? widget := by
  rw [Host.Core.fieldNames?, hw, Widgets.get?_modify, Host.Core.fieldNames?]
  by_cases hn : widget = name
  · subst hn
    rw [if_pos rfl]
    cases hg : c.widgets.get? widget with
    | none => rfl
    | some s => exact congrArg some (hself s hg)
  · rw [if_neg hn]
    cases hg : c.widgets.get? widget with
    | none => rfl
    | some s => exact congrArg some (hothers widget s hn hg)

/-! ## Programs that are loaded -/

/-- New widgets are those of their program. -/
theorem loaded_fits (h : Host Interpreter) (v : Value) {i : Interpreter} {p : Program}
    (hp : i.program = some p) (hw : p.WellFormed) : (h.loaded v i).core.Fits p := by
  have hd : i.defaults = p.defaults := by
    rw [Interpreter.defaults, hp]
    rfl
  have hlookup : ∀ widget, (h.loaded v i).core.fieldNames? widget
      = (p.defaults.lookup widget).map Fields.names := by
    intro widget
    rw [← hd, (loaded_made h v i).lookup, Option.map_map]
    rfl
  refine ⟨fun widget => ?_, fun widget names hn => ?_⟩
  · rw [hlookup, Option.isSome_map, hw.widgets]
  · rw [hlookup] at hn
    obtain ⟨fs, hl, rfl⟩ := Option.map_eq_some_iff.mp hn
    exact hw.fields widget fs hl

/-- So are those that have got old values. -/
theorem Host.Reloaded.fits {h h' : Host Interpreter} {p : Program} (hr : h.Reloaded p h') :
    h'.core.Fits p where
  widgets widget := by
    rw [Host.Core.fieldNames?, Option.isSome_map]
    exact hr.widgets widget
  fields widget names hn := by
    obtain ⟨s, hg, rfl⟩ := Option.map_eq_some_iff.mp hn
    exact hr.fields widget s hg

section

variable {h h' : Host Interpreter}

/-! ## All requests -/

/-- A request loads a program together with its widgets, or it keeps the program and the names of
all fields. -/
theorem outcome_fieldNames (hs : h.core.Sound) {c : Host.Core} (ho : h.Outcome c) :
    (∃ p, c.engine.program = some p ∧ c.Fits p) ∨
    h.engine.SameProgram c.engine ∧ ∀ widget, c.fieldNames? widget = h.core.fieldNames? widget := by
  have hw : Widgets.Sound h.store h.widgets := hs.widgets
  cases ho with
  | kept hp => exact Or.inr ⟨.of_eq hp, fun _ => rfl⟩
  | loaded hi =>
    obtain ⟨_, p, _, -, -, hp, -, hwf⟩ := interpret_wellFormed hi
    exact Or.inl ⟨p, hp, loaded_fits h _ hp hwf⟩
  | reloaded hi =>
    obtain ⟨_, p, _, -, -, hp, -, hwf⟩ := interpret_wellFormed hi
    exact Or.inl ⟨p, hp, (reloaded_spec hs hp hwf).fits⟩
  | viewFailed hg _ hi =>
    obtain ⟨hp, hf⟩ := invoke_footprint hi
    exact Or.inr ⟨hp, fieldNames?_of_names rfl fun _ s _ => names_footprint hf s.table⟩
  | @viewed name _ _ n i σ hg _ hi hv =>
    obtain ⟨hp, hf⟩ := invoke_footprint hi
    refine Or.inr ⟨hp, fieldNames?_modify (Host.widgets_viewed h i σ name n) ?_ ?_⟩
    · exact fun s _ => names_footprint hf s.table
    · exact fun _ s _ _ => names_footprint hf s.table
  | handlerFailed hg hi =>
    obtain ⟨hp, hf⟩ := invoke_footprint hi
    refine Or.inr ⟨hp, fieldNames?_of_names rfl fun _ s hs' => ?_⟩
    rw [(copy_kept hf).get _ (hw.has hs')]
    rfl
  | @handled name s args v i σ hg hi =>
    obtain ⟨hp, hf⟩ := invoke_footprint hi
    refine Or.inr ⟨hp, fieldNames?_modify (Host.widgets_handled h i σ name _) ?_ ?_⟩
    · -- the new table is a copy of the one that the widget had
      intro s' hs'
      cases hg.symm.trans hs'
      show (σ.get (h.store.copyTable s.table).1).names = (h.store.get s.table).names
      rw [names_footprint hf, Store.names_copyTable]
    · intro _ s' _ hs'
      show (σ.get s'.table).names = (h.store.get s'.table).names
      rw [(copy_kept hf).get _ (hw.has hs')]
  | @written name field s v hg hf =>
    refine Or.inr ⟨.of_eq rfl, fieldNames?_modify (Host.widgets_written h name s field v) ?_ ?_⟩
    · intro s' hs'
      cases hg.symm.trans hs'
      show ((h.store.set s.table _).get s.table).names = (h.store.get s.table).names
      rw [Store.get_set_self (hw.has hg), Fields.names_put_of_has hf]
    · intro n s' hne hs'
      show ((h.store.set s.table _).get s'.table).names = (h.store.get s'.table).names
      rw [Store.get_set_of_ne fun he => hne (hw.apart hs' hg he)]

theorem step_declared (hs : h.Sound) (hd : h.core.Declared) (hstep : h.Step h') :
    h'.core.Declared := by
  obtain ⟨disk, r, rfl⟩ := hstep
  have ho := (Act.respond_settled disk hs.free r).outcome
  rcases outcome_fieldNames hs.core ho with ⟨p, hp, hfits⟩ | ⟨hp, hnames⟩
  · rw [Host.Core.Declared, hp]
    exact hfits
  · exact hd.congr hp hnames

theorem steps_declared (hs : h.Sound) (hd : h.core.Declared) (hsteps : h.Steps h') :
    h'.core.Declared := by
  induction hsteps with
  | refl => exact hd
  | tail hbefore hstep ih => exact step_declared (steps_sound hs hbefore) ih hstep

/-- A host with the widgets of its program has each of them. -/
theorem get?_of_declared (hd : h.core.Declared) {p : Program} (hp : h.engine.program = some p)
    {widget : String} (hw : p.HasWidget widget) : ∃ s, h.widgets.get? widget = some s := by
  unfold Host.Core.Declared at hd
  rw [show h.core.engine.program = some p from hp] at hd
  have hsome := (hd.widgets widget).mpr hw
  rw [Host.Core.fieldNames?, Option.isSome_map] at hsome
  exact Option.isSome_iff_exists.mp hsome

end

/-- Whether requests lead to a host from one whose interpreter is new too. -/
def Host.ReachableAnew (h : Host Interpreter) : Prop :=
  ∃ settings policy, Host.Steps (Host.new {} settings policy) h

theorem Host.ReachableAnew.reachable {h : Host Interpreter} (hr : h.ReachableAnew) :
    h.Reachable := by
  obtain ⟨settings, policy, hsteps⟩ := hr
  exact ⟨{}, settings, policy, hsteps⟩

theorem reachable_declared {h : Host Interpreter} (hr : h.ReachableAnew) : h.core.Declared := by
  obtain ⟨settings, policy, hsteps⟩ := hr
  exact steps_declared (new_sound {} settings policy) (fun _ => rfl) hsteps

namespace Act

/-- The counter after it was edited, and after an edit that cannot be parsed. -/
def edited : Host Interpreter :=
  (respondWith {} (.reload "type") (respondWith {} (.reload editedSource) counted).2).2

end Act

end Widgetry
