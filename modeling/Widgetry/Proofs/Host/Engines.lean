import Widgetry.Proofs.Host.Requests
import Widgetry.Proofs.Host.Work

/-!
# Hosts with any engine

An engine is `Tidy` if it makes defaults and writes tables the way that programs do. Whatever such an
engine does and asks for while it works, widgets keep names and tables of their own.

> `respond_tables`: every request to a host that is free leaves its tables in order and the host
> free;
> `reachable_tables`: so do all requests that a host is ever asked.

While an engine works, the widgets and their tables stay the same ones (`Host.Meanwhile`). They
change when the work is done: loading makes new ones, and a handler that succeeded puts the copy that
it ran on in the place of a table.
-/

namespace Widgetry

variable {ρ : Type} {E : Engine ρ} {disk : Disk}

/-- Whether an engine makes defaults and writes tables the way that programs do. -/
structure Engine.Tidy (E : Engine ρ) (disk : Disk) : Prop where
  names : ∀ state, ((E.defaults state).map (·.1)).Nodup
  fields : ∀ state name fs, (E.defaults state).lookup name = some fs → fs.names.Nodup
  interpret : ∀ (source : String) (h : Host ρ), h.Tables →
    Work.Tidy E disk ⟨E.interpret source, h⟩
  invoke : ∀ (widget method : String) (args : List Value) (t : TableId) (h : Host ρ), h.Tables →
    Work.Tidy E disk ⟨E.invoke widget method args t, h⟩

/-- A copy of a table is a table of its own. -/
theorem tables_copy {h : Host ρ} (ht : h.Tables) (t : TableId) :
    Host.Tables { h with store := (h.store.copyTable t).2 } := by
  refine ⟨ht.widgets.mono Store.keeps_copyTable.size, fun u => ?_⟩
  obtain ⟨w, hw⟩ := Store.names_get_copyTable (σ := h.store) (t := t) u
  rw [hw]
  exact ht.fields w

namespace Act

variable {α β : Type} {h h' : Host ρ} {run : Callback ρ → Act ρ Value}

/-! ## What requests make of the work that is done for them -/

theorem exclusive_ok {task : Task} {x : Act ρ α} {a : α} (hrun : exclusive task x h = (.ok a, h')) :
    ∃ h₁, x { h with busy := true } = (.ok a, h₁) ∧ h' = { h₁ with busy := false } := by
  rw [exclusive] at hrun
  split at hrun
  · cases hrun
  · rcases hx : x { h with busy := true } with ⟨r, h₁⟩
    rw [hx] at hrun
    cases hrun
    exact ⟨h₁, rfl, rfl⟩

theorem attempt_eq {x : Act ρ α} {r : Except Failure α} (hrun : attempt x h = (.ok r, h')) :
    x h = (r, h') := by
  rw [attempt] at hrun
  rcases hx : x h with ⟨r', h₁⟩
  rw [hx] at hrun
  cases hrun
  rfl

/-- A method leaves the host as its work does. -/
theorem invoke_cases (E : Engine ρ) (run : Callback ρ → Act ρ Value) (widget method : String)
    (args : List Value) (t : TableId) (h : Host ρ) :
    ∃ r h₁, run (E.invoke widget method args t) h = (r, h₁) ∧
      ((∃ v, r = .ok v ∧ invoke E run widget method args t h = (.ok v, h₁)) ∨
        ∃ e, invoke E run widget method args t h = (.error e, h₁)) := by
  rcases hr : run (E.invoke widget method args t) h with ⟨r, h₁⟩
  refine ⟨r, h₁, rfl, ?_⟩
  rw [invoke, run_bind_ok (run_attempt hr)]
  cases r with
  | ok v => exact Or.inl ⟨v, rfl, rfl⟩
  | error e => cases e <;> exact Or.inr ⟨_, rfl⟩

/-- A method that came to a value. -/
theorem invoke_done {widget method : String} {args : List Value} {t : TableId} {v : Value}
    (hrun : invoke E run widget method args t h = (.ok v, h')) :
    run (E.invoke widget method args t) h = (.ok v, h') := by
  obtain ⟨r, h₁, hr, ⟨w, rfl, he⟩ | ⟨e, he⟩⟩ := invoke_cases E run widget method args t h
  · rw [hrun] at he
    cases he
    exact hr
  · rw [hrun] at he
    cases he

/-- A host after its engine ran a program that it is to hold. -/
def withProgram (E : Engine ρ) (h : Host ρ) (v : Value) : Host ρ :=
  { h with
    result := v, lifecycle := .loaded
    widgets := (Widgets.ofDefaults h.store (E.defaults h.engine)).1
    store := (Widgets.ofDefaults h.store (E.defaults h.engine)).2 }

/-- A program that fails leaves the host as its work does, and one that succeeds makes new
widgets. -/
theorem load_cases (E : Engine ρ) (run : Callback ρ → Act ρ Value) (source : String) (h : Host ρ) :
    ∃ r h₁, run (E.interpret source) h = (r, h₁) ∧
      ((∃ v, r = .ok v ∧ load E run source h = (.ok (), withProgram E h₁ v)) ∨
        ∃ e, load E run source h = (.error e, h₁)) := by
  rcases hr : run (E.interpret source) h with ⟨r, h₁⟩
  refine ⟨r, h₁, rfl, ?_⟩
  rw [load, run_bind_ok (run_attempt hr)]
  cases r with
  | ok v => exact Or.inl ⟨v, rfl, rfl⟩
  | error e => cases e <;> exact Or.inr ⟨_, rfl⟩

/-- A program that was loaded. -/
theorem load_done {source : String} (hrun : load E run source h = (.ok (), h')) :
    ∃ v h₁, run (E.interpret source) h = (.ok v, h₁) ∧ h' = withProgram E h₁ v := by
  obtain ⟨r, h₁, hr, ⟨v, rfl, he⟩ | ⟨e, he⟩⟩ := load_cases E run source h
  · rw [hrun] at he
    cases he
    exact ⟨v, h₁, hr, rfl⟩
  · rw [hrun] at he
    cases he

/-- Whom a message is for does not depend on whether the host is busy, and asking changes
nothing. -/
theorem address_busy (main : Option String) (m : Message) (h : Host ρ) (b : Bool) :
    (address main m { h with busy := b }).1 = (address main m h).1 ∧
      (address main m h).2 = h := by
  cases m with
  | event text =>
    simp only [address]
    rcases Message.split text with ⟨who, event⟩
    cases who <;> exact ⟨rfl, rfl⟩
  | typed name event args => exact ⟨rfl, rfl⟩
  | other v =>
    simp only [address, run_bind, run_get]
    cases (h.store.read v).inspect <;> exact ⟨rfl, rfl⟩

theorem widget_same (name : String) (h : Host ρ) : (widget name h).2 = h := by
  rw [widget, run_bind_ok (run_get h)]
  cases h.widgets.get? name <;> rfl

theorem ofExcept_same (x : Except Failure α) (h : Host ρ) : (ofExcept x h).2 = h := by
  cases x <;> rfl

theorem asNode_same (v : Value) (h : Host ρ) : (asNode v h).2 = h := by
  unfold asNode
  split
  · rfl
  · rw [run_bind_ok (run_get h)]
    cases h.policy <;> rfl

/-! ## While a task is done -/

/-- Whether something leaves the widgets of a busy host with their tables. -/
def Stays (x : Act ρ α) : Prop := ∀ h : Host ρ, h.Tables → h.busy = true → h.Meanwhile (x h).2

theorem stays_of_same {x : Act ρ α} (hx : ∀ h, (x h).2 = h) : Stays x := by
  intro h ht _
  rw [hx h]
  exact .refl ht

theorem stays_bind {x : Act ρ α} {f : α → Act ρ β} (hx : Stays x) (hf : ∀ a, Stays (f a)) :
    Stays (x >>= f) := by
  intro h ht hb
  have hm := hx h ht hb
  rw [run_bind]
  rcases hr : x h with ⟨r, h₁⟩
  rw [hr] at hm
  cases r with
  | error e => exact hm
  | ok a => exact hm.trans (hf a h₁ hm.tables (hm.busy.trans hb))

theorem stays_modify {f : Host ρ → Host ρ} (hf : ∀ h : Host ρ, h.Tables → h.Meanwhile (f h)) :
    Stays (modify f) := fun h ht _ => hf h ht

/-- The work of a tidy engine. -/
theorem stays_run {x : Callback ρ} (hx : ∀ h : Host ρ, h.Tables → Work.Tidy E disk ⟨x, h⟩) :
    Stays (runCallback E disk x) := by
  intro h ht hb
  rcases hr : runCallback E disk x h with ⟨r, h'⟩
  exact (steps_meanwhile (hx h ht) ht hb (runCallback_steps x hr)).1

variable (hE : E.Tidy disk)

include hE in
theorem stays_invoke (widget method : String) (args : List Value) (t : TableId) :
    Stays (invoke E (runCallback E disk) widget method args t) := by
  intro h ht hb
  have hrun := stays_run (hE.invoke widget method args t) h ht hb
  obtain ⟨r, h₁, hr, ⟨v, -, he⟩ | ⟨e, he⟩⟩ := invoke_cases E (runCallback E disk) widget method
    args t h
  · rw [hr] at hrun
    rw [he]
    exact hrun
  · rw [hr] at hrun
    rw [he]
    exact hrun

/-- What is kept of a view is no table. -/
theorem meanwhile_restate {h : Host ρ} (ht : h.Tables) (name : String)
    {f : WidgetState → WidgetState} (hf : ∀ s, (f s).table = s.table) :
    h.Meanwhile { h with widgets := h.widgets.modify name f } := by
  refine ⟨⟨ht.widgets.restate hf, ht.fields⟩, rfl, Nat.le_refl _, fun n => ?_⟩
  show ((h.widgets.modify name f).get? n).map _ = _
  rw [Widgets.get?_modify]
  split
  · rw [Option.map_map]
    exact congrArg (fun g => Option.map g (h.widgets.get? n)) (funext hf)
  · rfl

include hE in
theorem stays_showMain : Stays (showMain E (runCallback E disk)) := by
  have hview : ∀ name s, Stays (widgetView E (runCallback E disk) name s) := by
    intro name s
    unfold widgetView
    split
    · exact stays_of_same fun _ => rfl
    · refine stays_bind (stays_invoke hE _ _ _ _) fun v => ?_
      refine stays_bind (stays_of_same (asNode_same v)) fun n => ?_
      refine stays_bind (stays_modify fun h ht => ?_) fun _ => stays_of_same fun _ => rfl
      exact meanwhile_restate ht name fun _ => rfl
  refine stays_bind (stays_of_same fun _ => rfl) fun h₀ => ?_
  have hend : ∀ n : Node, Stays (do
      modify fun h : Host ρ => if h.lifecycle = .loaded then { h with lifecycle := .rendered } else h
      return n) := by
    intro n
    refine stays_bind (stays_modify fun h ht => ?_) fun _ => stays_of_same fun _ => rfl
    split
    · exact ⟨⟨ht.widgets, ht.fields⟩, rfl, Nat.le_refl _, fun _ => rfl⟩
    · exact .refl ht
  split
  · exact stays_bind (hview _ _) hend
  · exact stays_bind (stays_of_same (asNode_same _)) hend

/-! ## Tasks -/

/-- Whether something leaves the tables of a host in order that is as busy as is said. -/
def Orderly (b : Bool) (x : Act ρ α) : Prop :=
  ∀ h : Host ρ, h.Tables → h.busy = b → (x h).2.Tables ∧ (x h).2.busy = b

theorem Stays.orderly {x : Act ρ α} (hx : Stays x) : Orderly true x :=
  fun h ht hb => ⟨(hx h ht hb).tables, (hx h ht hb).busy.trans hb⟩

theorem orderly_of_same {b : Bool} {x : Act ρ α} (hx : ∀ h, (x h).2 = h) : Orderly b x := by
  intro h ht hb
  rw [hx h]
  exact ⟨ht, hb⟩

theorem orderly_bind {b : Bool} {x : Act ρ α} {f : α → Act ρ β} (hx : Orderly b x)
    (hf : ∀ a, Orderly b (f a)) : Orderly b (x >>= f) := by
  intro h ht hb
  obtain ⟨ht₁, hb₁⟩ := hx h ht hb
  rw [run_bind]
  rcases hr : x h with ⟨r, h₁⟩
  rw [hr] at ht₁ hb₁
  cases r with
  | error e => exact ⟨ht₁, hb₁⟩
  | ok a => exact hf a h₁ ht₁ hb₁

theorem orderly_exclusive {task : Task} {x : Act ρ α} (hx : Orderly true x) :
    Orderly false (exclusive task x) := by
  intro h ht hb
  obtain ⟨ht₁, -⟩ := hx { h with busy := true } ⟨ht.widgets, ht.fields⟩ rfl
  rw [exclusive, hb]
  exact ⟨⟨ht₁.widgets, ht₁.fields⟩, rfl⟩

/-- What was made for the defaults of a program. -/
theorem withProgram_made (h : Host ρ) (v : Value) :
    Widgets.Made h.store (E.defaults h.engine) (withProgram E h v).widgets
      (withProgram E h v).store := Widgets.ofDefaults_made _ _

include hE in
theorem withProgram_tables (ht : h.Tables) (v : Value) : (withProgram E h v).Tables :=
  ⟨(withProgram_made h v).sound (hE.names _),
    (withProgram_made h v).fields_nodup (hE.names _) (hE.fields _) ht.fields⟩

include hE in
theorem orderly_load (source : String) : Orderly true (load E (runCallback E disk) source) := by
  intro h ht hb
  have hm := stays_run (hE.interpret source) h ht hb
  obtain ⟨r, h₁, hr, ⟨v, -, he⟩ | ⟨e, he⟩⟩ := load_cases E (runCallback E disk) source h
  · rw [hr] at hm
    rw [he]
    exact ⟨withProgram_tables hE hm.tables v, hm.busy.trans hb⟩
  · rw [hr] at hm
    rw [he]
    exact ⟨hm.tables, hm.busy.trans hb⟩

/-- What carrying fields over makes of new widgets; the old ones had other tables. -/
theorem migrated_withProgram (old : Widgets) (v : Value)
    (hold : ∀ {n s}, old.get? n = some s → h.store.Has s.table) :
    Widgets.Migrated old (withProgram E h v).widgets (withProgram E h v).store
      (Widgets.migrate (withProgram E h v).store old (withProgram E h v).widgets).1
      (Widgets.migrate (withProgram E h v).store old (withProgram E h v).widgets).2 := by
  have hmade := withProgram_made (E := E) h v
  exact Widgets.migrate_migrated _ _ _ hmade.tables (fun w hw => (hmade.fresh w hw).2) hmade.state
    fun hg w hw he => (hmade.fresh w hw).1 (he ▸ hold hg)

include hE in
theorem orderly_reload (source : String) :
    Orderly false (reload E (runCallback E disk) source) := by
  refine orderly_bind (orderly_of_same fun _ => rfl) fun h₀ => ?_
  split
  · exact orderly_exclusive (orderly_load hE source)
  · refine orderly_exclusive fun h ht hb => ?_
    rw [run_bind_ok (run_get h), run_bind_ok (run_modify _ h)]
    -- the old widgets are those that there were before the engine began its work
    let h₁ : Host ρ := { h with lifecycle := .reloading }
    have ht₁ : h₁.Tables := ⟨ht.widgets, ht.fields⟩
    have hm := stays_run (hE.interpret source) h₁ ht₁ hb
    obtain ⟨r, h₂, hr, ⟨v, -, he⟩ | ⟨e, he⟩⟩ := load_cases E (runCallback E disk) source h₁
    · rw [hr] at hm
      rw [run_bind_ok (run_attempt he)]
      have hmig := migrated_withProgram (E := E) h.widgets v
        fun hg => Nat.lt_of_lt_of_le (ht.widgets.has hg) hm.size
      have htab := withProgram_tables hE hm.tables v
      exact ⟨⟨hmig.sound htab.widgets, hmig.fields_nodup htab.fields⟩, hm.busy.trans hb⟩
    · rw [hr] at hm
      rw [run_bind_ok (run_attempt he)]
      exact ⟨⟨hm.tables.widgets, hm.tables.fields⟩, hm.busy.trans hb⟩

include hE in
/-- The copy that a handler ran on is the table of no other widget. -/
theorem orderly_deliver (m : Message) : Orderly true (deliver E (runCallback E disk) m) := by
  intro h ht hb
  rw [deliver, run_bind_ok (run_get h)]
  rcases ha : address (E.main? h.engine) m h with ⟨r, h₀⟩
  have hsame : h₀ = h := by
    have haddr := (address_busy (E.main? h.engine) m h true).2
    rw [ha] at haddr
    exact haddr
  subst h₀
  cases r with
  | error e =>
    rw [run_bind_error ha]
    exact ⟨ht, hb⟩
  | ok whom =>
    obtain ⟨who, event, args⟩ := whom
    rw [run_bind_ok ha]
    dsimp only
    cases hn : h.named? who with
    | none => exact ⟨ht, hb⟩
    | some w =>
      obtain ⟨name, s⟩ := w
      dsimp only
      rw [run_bind_ok (run_modify _ h)]
      have ht₁ := tables_copy ht s.table
      have hm := stays_invoke hE name "on" (.str event :: args) (h.store.copyTable s.table).1
        _ ht₁ hb
      obtain ⟨r, h₂, hr, ⟨v, -, he⟩ | ⟨e, he⟩⟩ := invoke_cases E
        (runCallback E disk) name "on" (.str event :: args) (h.store.copyTable s.table).1
        { h with store := (h.store.copyTable s.table).2 }
      · rw [he] at hm
        rw [run_bind_ok he]
        have hsound : Widgets.Sound h₂.store h₂.widgets := hm.tables.widgets
        refine ⟨⟨hsound.modify (f := fun s' =>
          { s' with table := (h.store.copyTable s.table).1, dirty := true })
          fun s₀ _ => ⟨?_, fun n' s' _ hg he => ?_⟩, hm.tables.fields⟩, hm.busy.trans hb⟩
        · exact Nat.lt_of_lt_of_le Store.has_copyTable hm.size
        · -- any other widget had its table before the copy was made
          have hold := hm.same n'
          rw [hg] at hold
          obtain ⟨s₁, hs₁, htable⟩ := Option.map_eq_some_iff.mp hold.symm
          have hhas : h.store.Has s₁.table := ht.widgets.has hs₁
          rw [show s₁.table = (h.store.copyTable s.table).1 from htable.trans he] at hhas
          exact Store.not_has_copyTable hhas
      · rw [he] at hm
        rw [run_bind_error he]
        exact ⟨hm.tables, hm.busy.trans hb⟩

/-! ## Requests -/

include hE in
/-- **A request to a free host leaves its tables in order, and the host free.** -/
theorem respond_tables (r : Request) : Orderly false (E.respond disk r) := by
  have hview : Orderly false (mainView E (runCallback E disk)) :=
    orderly_exclusive (stays_showMain hE).orderly
  have hinterpret : ∀ source, Orderly false (interpret E (runCallback E disk) source) :=
    fun source => orderly_exclusive (orderly_load hE source)
  cases r with
  | interpret source => exact orderly_bind (hinterpret source) fun _ => orderly_of_same fun _ => rfl
  | reload source =>
    exact orderly_bind (orderly_reload hE source) fun _ => orderly_of_same fun _ => rfl
  | loadFile path =>
    refine orderly_bind (orderly_bind (orderly_of_same fun _ => rfl) fun h₀ => ?_)
      fun _ => orderly_of_same fun _ => rfl
    split
    · exact orderly_of_same fun _ => rfl
    · refine orderly_bind (hinterpret _) fun _ h ht hb => ?_
      exact ⟨⟨ht.widgets, ht.fields⟩, hb⟩
  | mainView => exact orderly_bind hview fun _ => orderly_of_same fun _ => rfl
  | sameView =>
    refine orderly_bind (orderly_bind hview fun _ => orderly_bind hview fun _ => ?_)
      fun _ => orderly_of_same fun _ => rfl
    refine orderly_bind (orderly_of_same fun _ => rfl) fun h₀ => ?_
    split <;> exact orderly_of_same fun _ => rfl
  | render =>
    refine orderly_bind (orderly_bind hview fun n => ?_) fun _ => orderly_of_same fun _ => rfl
    refine orderly_bind (orderly_of_same fun _ => rfl) fun h₀ => orderly_of_same fun h => ?_
    exact ofExcept_same _ h
  | send m =>
    exact orderly_bind (orderly_exclusive (orderly_deliver hE m)) fun _ =>
      orderly_of_same fun _ => rfl
  | getField name field =>
    exact orderly_bind (orderly_of_same (getField_same name field)) fun _ =>
      orderly_of_same fun _ => rfl
  | setField name field v =>
    refine orderly_bind (fun h ht hb => ?_) fun _ => orderly_of_same fun _ => rfl
    rcases setField_cases name field v h with ⟨e, he⟩ | ⟨s, hs, hf, he⟩
    · rw [he]
      exact ⟨ht, hb⟩
    · rw [he]
      exact ⟨(meanwhile_putField ht hs hf v).tables, hb⟩
  | widget name =>
    exact orderly_bind (orderly_of_same (widget_same name)) fun _ => orderly_of_same fun _ => rfl
  | setHot on => exact fun h ht hb => ⟨⟨ht.widgets, ht.fields⟩, hb⟩

end Act

/-- The hosts that requests can lead to. -/
inductive Engine.Reachable (E : Engine ρ) (disk : Disk) : Host ρ → Prop where
  | new (state : ρ) (settings : Settings) (policy : Option Policy) :
      Reachable E disk (Host.new state settings policy)
  | respond {h : Host ρ} (r : Request) : Reachable E disk h →
      Reachable E disk (E.respond disk r h).2

/-- **In every host that a tidy engine has been working for, widgets have names and tables of their
own, and fields names of their own**; and between requests the host is free. -/
theorem reachable_tables (hE : E.Tidy disk) {h : Host ρ} (hr : E.Reachable disk h) :
    h.Tables ∧ h.busy = false := by
  induction hr with
  | new state settings policy =>
    refine ⟨⟨⟨List.nodup_nil, (fun hg => nomatch hg), fun hg => nomatch hg⟩, fun t => ?_⟩, rfl⟩
    rw [show (Host.new state settings policy).store.get t = [] from rfl]
    exact List.nodup_nil
  | respond r _ ih => exact Act.respond_tables hE r _ ih.1 ih.2

end Widgetry
