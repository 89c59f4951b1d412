import Mathlib.Logic.Relation
import Widgetry.Host.Basic
import Widgetry.Proofs.Host.Widgets

/-!
# An engine at work

While an engine works for a host it may ask the same host for something, and the host is busy then.
What the engine has left to do, together with the host meanwhile, is a `Work`; a `Work.Step` is one
thing that the engine does.

> `runCallback_steps`: the work that a host has done is a run of such steps;
> `respond_of_busy`: a busy host changes nothing, but for a field that is written and for whether
> hot reloading is on;
> `steps_meanwhile`: so no widget comes, goes or changes its table while the engine works.

An engine may write tables as it likes. `Work.Tidy` says that it writes them the way that programs
do: no table is taken away, and no field stands twice in one.
-/

namespace Widgetry

variable {ρ : Type}

/-- What an engine has left to do, and the host meanwhile. -/
structure Work (ρ : Type) where
  todo : Callback ρ
  host : Host ρ

/-- One thing that an engine does. -/
inductive Work.Step (E : Engine ρ) (disk : Disk) : Work ρ → Work ρ → Prop where
  | get {next : ρ → Store → Callback ρ} {h : Host ρ} :
      Step E disk ⟨.get next, h⟩ ⟨next h.engine h.store, h⟩
  | put {state : ρ} {σ : Store} {next : Callback ρ} {h : Host ρ} :
      Step E disk ⟨.put state σ next, h⟩ ⟨next, { h with engine := state, store := σ }⟩
  | ask {r : Request} {next : Except Failure Answer → Callback ρ} {h h' : Host ρ}
      {a : Except Failure Answer} : Act.respond E Act.idle disk r h = (a, h') →
      Step E disk ⟨.ask r next, h⟩ ⟨next a, h'⟩

/-- Several things that an engine does, one after the other. -/
abbrev Work.Steps (E : Engine ρ) (disk : Disk) : Work ρ → Work ρ → Prop :=
  Relation.ReflTransGen (Work.Step E disk)

/-- **The work that a host has done is a run of steps.** -/
theorem runCallback_steps {E : Engine ρ} {disk : Disk} (x : Callback ρ) :
    ∀ {h h' : Host ρ} {r : Except Failure Value}, Act.runCallback E disk x h = (r, h') →
      Work.Steps E disk ⟨x, h⟩ ⟨.done r, h'⟩ := by
  induction x with
  | done r =>
    intro h h' r' hrun
    cases r <;>
    · cases hrun
      exact .refl
  | get next ih =>
    intro h h' r hrun
    exact .head .get (ih h.engine h.store hrun)
  | put state σ next ih =>
    intro h h' r hrun
    exact .head .put (ih hrun)
  | ask r next ih =>
    intro h h' r' hrun
    exact .head (.ask rfl) (ih _ hrun)

/-- Work that is done goes no further. -/
theorem Work.Steps.done_eq {E : Engine ρ} {disk : Disk} {r : Except Failure Value} {h : Host ρ}
    {w : Work ρ} (hs : Work.Steps E disk ⟨.done r, h⟩ w) : w = ⟨.done r, h⟩ := by
  rcases Relation.ReflTransGen.cases_head hs with he | ⟨w', hstep, -⟩
  · exact he.symm
  · cases hstep

/-- An engine has one thing to do at a time. -/
theorem Work.Step.unique {E : Engine ρ} {disk : Disk} {w w₁ w₂ : Work ρ}
    (h₁ : Work.Step E disk w w₁) (h₂ : Work.Step E disk w w₂) : w₁ = w₂ := by
  cases h₁ with
  | get => cases h₂; rfl
  | put => cases h₂; rfl
  | ask ha =>
    cases h₂ with
    | ask hb =>
      rw [ha] at hb
      cases hb
      rfl

/-- So work has one end. -/
theorem Work.Steps.end_unique {E : Engine ρ} {disk : Disk} {w : Work ρ}
    {r r' : Except Failure Value} {h h' : Host ρ} (h₁ : Work.Steps E disk w ⟨.done r, h⟩)
    (h₂ : Work.Steps E disk w ⟨.done r', h'⟩) : r = r' ∧ h = h' := by
  have hunique : Relator.RightUnique (Work.Step E disk) := fun _ _ _ => Work.Step.unique
  rcases Relation.ReflTransGen.total_of_right_unique hunique h₁ h₂ with hs | hs
  · cases Work.Steps.done_eq hs
    exact ⟨rfl, rfl⟩
  · cases Work.Steps.done_eq hs
    exact ⟨rfl, rfl⟩

/-! ## Fields -/

/-- A host after the table of one of its widgets was written to. -/
def Host.putField (h : Host ρ) (name : String) (t : TableId) (field : String) (v : Value) :
    Host ρ :=
  { h with
    store := h.store.set t ((h.store.get t).put field v)
    widgets := h.widgets.modify name fun s => { s with dirty := true } }

namespace Act

variable {α : Type} {h h' : Host ρ} {name field : String} {v : Value}

/-- What is answered for a field depends on the widgets and their tables only. -/
theorem getField_ok : (getField name field h).1 = .ok v ↔
    ∃ s, h.widgets.get? name = some s ∧ (h.store.get s.table).get? field = some v := by
  rw [getField, run_bind, widget, run_bind_ok (run_get h)]
  cases hg : h.widgets.get? name with
  | none => simp [refuse]
  | some s =>
    have hrun : ((Act.get : Act ρ (Host ρ)) h) = (.ok h, h) := rfl
    simp only [run_pure, run_bind, hrun]
    cases hv : (h.store.get s.table).get? field with
    | none => simp [refuse, hv]
    | some w => simp [hv]

theorem getField_same (name field : String) (h : Host ρ) : (getField name field h).2 = h := by
  rw [getField, run_bind, widget, run_bind_ok (run_get h)]
  cases hg : h.widgets.get? name with
  | none => rfl
  | some s =>
    simp only [run_pure, run_bind, run_get]
    cases (h.store.get s.table).get? field <;> rfl

/-- A field is written only where it is there already. -/
theorem setField_cases (name field : String) (v : Value) (h : Host ρ) :
    (∃ e, setField name field v h = (.error (.refused e), h)) ∨
    ∃ s, h.widgets.get? name = some s ∧ (h.store.get s.table).has field = true ∧
      setField name field v h = (.ok (), h.putField name s.table field v) := by
  cases hg : h.widgets.get? name with
  | none =>
    refine Or.inl ⟨.noWidget name, ?_⟩
    have hw : widget name h = (.error (.refused (.noWidget name)), h) := by
      rw [widget, run_bind_ok (run_get h), hg]
      rfl
    rw [setField, run_bind_error hw]
  | some s =>
    have hw : widget name h = (.ok s, h) := by
      rw [widget, run_bind_ok (run_get h), hg]
      rfl
    rw [setField, run_bind_ok hw]
    cases hv : (h.store.get s.table).get? field with
    | none =>
      refine Or.inl ⟨.noField name field, ?_⟩
      have hf : getField name field h = (.error (.refused (.noField name field)), h) := by
        rw [getField, run_bind_ok hw, run_bind_ok (run_get h), hv]
        rfl
      rw [run_bind_error hf]
    | some current =>
      have hf : getField name field h = (.ok current, h) := by
        rw [getField, run_bind_ok hw, run_bind_ok (run_get h), hv]
        rfl
      rw [run_bind_ok hf]
      -- the check of the type lets the value pass or refuses it, and changes nothing
      have hcheck : checkType current v h = (.ok (), h) ∨
          ∃ e, checkType current v h = (.error (.refused e), h) := by
        unfold checkType
        split
        · exact Or.inl rfl
        · exact Or.inl rfl
        · split
          · exact Or.inl rfl
          · exact Or.inr ⟨_, rfl⟩
      rcases hcheck with hc | ⟨e, hc⟩
      · refine Or.inr ⟨s, rfl, ?_, ?_⟩
        · rw [Fields.has, hv]
          rfl
        · rw [run_bind_ok hc]
          rfl
      · exact Or.inl ⟨e, by rw [run_bind_error hc]⟩

/-! ## A busy host -/

variable {E : Engine ρ} {run : Callback ρ → Act ρ Value} {disk : Disk}

theorem exclusive_of_busy (hb : h.busy = true) (task : Task) (x : Act ρ α) :
    exclusive task x h = (.error (.refused (.busy task)), h) := by
  rw [exclusive, hb]
  rfl

theorem reload_of_busy (hb : h.busy = true) (source : String) :
    ∃ e, reload E run source h = (.error e, h) := by
  rw [reload, run_bind_ok (run_get h)]
  split
  · exact ⟨_, exclusive_of_busy hb _ _⟩
  · exact ⟨_, exclusive_of_busy hb _ _⟩

theorem loadFile_of_busy (hb : h.busy = true) (path : Path) :
    ∃ e, loadFile E run disk path h = (.error e, h) := by
  rw [loadFile, run_bind_ok (run_get h)]
  cases disk.readSource path h.settings.maxSourceSize with
  | error e => exact ⟨_, rfl⟩
  | ok source =>
    have hi : interpret E run source h = (.error (.refused (.busy .interpret)), h) :=
      exclusive_of_busy hb _ _
    exact ⟨_, run_bind_error hi⟩

/-- **A busy host does no task, and changes no more than a field or whether hot reloading is on.** -/
theorem respond_of_busy (E : Engine ρ) (run : Callback ρ → Act ρ Value) (disk : Disk)
    (hb : h.busy = true) (r : Request) :
    (∃ a, respond E run disk r h = (a, h) ∧ ∀ name field v, r = .setField name field v →
      ∃ e, setField name field v h = (.error (.refused e), h)) ∨
    (∃ on, r = .setHot on ∧ respond E run disk r h = (.ok .done, { h with hot := on })) ∨
    ∃ name field v s, r = .setField name field v ∧ h.widgets.get? name = some s ∧
      (h.store.get s.table).has field = true ∧
      setField name field v h = (.ok (), h.putField name s.table field v) ∧
      respond E run disk r h = (.ok .done, h.putField name s.table field v) := by
  have hview : mainView E run h = (.error (.refused (.busy .mainView)), h) :=
    exclusive_of_busy hb _ _
  have hnone : ∀ {r : Request}, (∀ name field v, r ≠ .setField name field v) →
      ∀ name field v, r = .setField name field v →
        ∃ e, setField name field v h = (.error (.refused e), h) :=
    fun hne name field v he => absurd he (hne name field v)
  cases r with
  | interpret source =>
    exact Or.inl ⟨_, run_bind_error (exclusive_of_busy hb _ _), hnone fun _ _ _ => nofun⟩
  | reload source =>
    obtain ⟨e, he⟩ : ∃ e, reload E run source h = (.error e, h) := reload_of_busy hb source
    exact Or.inl ⟨_, run_bind_error he, hnone fun _ _ _ => nofun⟩
  | loadFile path =>
    obtain ⟨e, he⟩ : ∃ e, loadFile E run disk path h = (.error e, h) := loadFile_of_busy hb path
    exact Or.inl ⟨_, run_bind_error he, hnone fun _ _ _ => nofun⟩
  | mainView => exact Or.inl ⟨_, run_bind_error hview, hnone fun _ _ _ => nofun⟩
  | sameView =>
    exact Or.inl ⟨_, run_bind_error (run_bind_error hview), hnone fun _ _ _ => nofun⟩
  | render =>
    exact Or.inl ⟨_, run_bind_error (run_bind_error hview), hnone fun _ _ _ => nofun⟩
  | send m =>
    exact Or.inl ⟨_, run_bind_error (exclusive_of_busy hb _ _), hnone fun _ _ _ => nofun⟩
  | getField name field =>
    refine Or.inl ⟨(respond E run disk (.getField name field) h).1, ?_, hnone fun _ _ _ => nofun⟩
    have hsame := getField_same name field h
    rw [respond, run_bind]
    rcases hr : getField name field h with ⟨r, h'⟩
    rw [hr] at hsame
    cases hsame
    cases r <;> rfl
  | setField name field v =>
    rcases setField_cases name field v h with ⟨e, he⟩ | ⟨s, hs, hf, hset⟩
    · refine Or.inl ⟨_, run_bind_error he, ?_⟩
      intro _ _ _ heq
      cases heq
      exact ⟨e, he⟩
    · exact Or.inr (Or.inr ⟨name, field, v, s, rfl, hs, hf, hset, run_bind_ok hset⟩)
  | widget name =>
    refine Or.inl ⟨(respond E run disk (.widget name) h).1, ?_, hnone fun _ _ _ => nofun⟩
    rw [respond, run_bind, widget, run_bind_ok (run_get h)]
    cases h.widgets.get? name <;> rfl
  | setHot on => exact Or.inr (Or.inl ⟨on, rfl, rfl⟩)

end Act

/-! ## Meanwhile -/

/-- Whether widgets have names and tables of their own, and fields names of their own. -/
structure Host.Tables (h : Host ρ) : Prop where
  widgets : Widgets.Sound h.store h.widgets
  fields : ∀ t, (h.store.get t).names.Nodup

/-- Whether an engine writes tables the way that programs do, as long as its work takes. -/
def Work.Tidy (E : Engine ρ) (disk : Disk) (w : Work ρ) : Prop :=
  ∀ w' state σ next, Work.Steps E disk w w' → w'.todo = .put state σ next →
    w'.host.store.tables.size ≤ σ.tables.size ∧ ∀ t, (σ.get t).names.Nodup

theorem Work.Tidy.step {E : Engine ρ} {disk : Disk} {w w' : Work ρ} (ht : w.Tidy E disk)
    (hs : Work.Step E disk w w') : w'.Tidy E disk :=
  fun w'' state σ next hs' => ht w'' state σ next (.head hs hs')

/-- How a host differs from what it was before some work: it is as busy, and widgets and their
tables are the same ones. -/
structure Host.Meanwhile (h h' : Host ρ) : Prop where
  tables : h'.Tables
  busy : h'.busy = h.busy
  size : h.store.tables.size ≤ h'.store.tables.size
  same : ∀ name, (h'.widgets.get? name).map (·.table) = (h.widgets.get? name).map (·.table)

namespace Host.Meanwhile

variable {h h₁ h₂ : Host ρ}

theorem refl (ht : h.Tables) : h.Meanwhile h := ⟨ht, rfl, Nat.le_refl _, fun _ => rfl⟩

theorem trans (m₁ : h.Meanwhile h₁) (m₂ : h₁.Meanwhile h₂) : h.Meanwhile h₂ :=
  ⟨m₂.tables, m₂.busy.trans m₁.busy, Nat.le_trans m₁.size m₂.size,
    fun name => (m₂.same name).trans (m₁.same name)⟩

end Host.Meanwhile

/-- A field that is written keeps its place. -/
theorem meanwhile_putField {h : Host ρ} (ht : h.Tables) {name field : String} {s : WidgetState}
    (hs : h.widgets.get? name = some s) (hf : (h.store.get s.table).has field = true)
    (v : Value) : h.Meanwhile (h.putField name s.table field v) := by
  have hsize : (h.putField name s.table field v).store.tables.size = h.store.tables.size :=
    Store.size_set _
  have hsound : Widgets.Sound h.store (h.putField name s.table field v).widgets :=
    ht.widgets.restate (f := fun s => { s with dirty := true }) fun _ => rfl
  refine ⟨⟨hsound.mono (Nat.le_of_eq hsize.symm), fun t => ?_⟩, rfl, Nat.le_of_eq hsize.symm,
    fun n => ?_⟩
  · show ((h.store.set s.table _).get t).names.Nodup
    by_cases he : t = s.table
    · rw [he, Store.get_set_self (ht.widgets.has hs), Fields.names_put_of_has hf]
      exact ht.fields s.table
    · rw [Store.get_set_of_ne he]
      exact ht.fields t
  · rw [Host.putField, Widgets.get?_modify]
    split
    · rw [Option.map_map]
      rfl
    · rfl

/-- One thing that an engine does leaves the widgets with their tables. -/
theorem step_meanwhile {E : Engine ρ} {disk : Disk} {w w' : Work ρ} (ht : w.Tidy E disk)
    (hw : w.host.Tables) (hb : w.host.busy = true) (hs : Work.Step E disk w w') :
    w.host.Meanwhile w'.host := by
  cases hs with
  | get => exact .refl hw
  | @put state σ next h =>
    -- the widgets know their tables by number, so it is enough that none is taken away
    obtain ⟨hsize, hnodup⟩ := ht _ state σ next .refl rfl
    exact ⟨⟨hw.widgets.mono hsize, hnodup⟩, rfl, hsize, fun _ => rfl⟩
  | @ask r next h h' a ha =>
    rcases Act.respond_of_busy E Act.idle disk hb r with
      ⟨a', he, -⟩ | ⟨on, rfl, he⟩ | ⟨name, field, v, s, rfl, hg, hf, hset, he⟩
    · rw [ha] at he
      cases he
      exact .refl hw
    · rw [ha] at he
      cases he
      exact ⟨⟨hw.widgets, hw.fields⟩, rfl, Nat.le_refl _, fun _ => rfl⟩
    · rw [ha] at he
      cases he
      exact meanwhile_putField hw hg hf v

/-- **No widget comes, goes or changes its table while an engine works.** -/
theorem steps_meanwhile {E : Engine ρ} {disk : Disk} {w w' : Work ρ} (ht : w.Tidy E disk)
    (hw : w.host.Tables) (hb : w.host.busy = true) (hs : Work.Steps E disk w w') :
    w.host.Meanwhile w'.host ∧ w'.Tidy E disk := by
  induction hs with
  | refl => exact ⟨.refl hw, ht⟩
  | tail _ hstep ih =>
    obtain ⟨hm, htidy⟩ := ih
    exact ⟨hm.trans (step_meanwhile htidy hm.tables (hm.busy.trans hb) hstep), htidy.step hstep⟩

end Widgetry
