import Widgetry.Proofs.Host.Engines

/-!
# Fields that are written while an engine works

Every task that an engine asks for while it works is refused, but a write to a field is not. Whether
such a write lasts depends on what the host does with the widget once the work is done.

> `nested_write_answer`: a view keeps it; a reload keeps it if it keeps fields at all and the new
> program has the field; a handler keeps it for every widget but the one that it runs for.

The widget that a message is for gets the fields that the handler ran on, and these are a copy that
was made before: `ask_loses_write` shows the write gone.
-/

namespace Widgetry

variable {ρ : Type} {E : Engine ρ} {disk : Disk}

/-! ## Work that requests begin -/

/-- The work that a request to a free host begins with. -/
inductive Engine.Begins (E : Engine ρ) (h : Host ρ) : Request → Work ρ → Prop where
  | view {name : String} {s : WidgetState} : h.named? (E.main? h.engine) = some (name, s) →
      s.Stale → Begins E h .mainView ⟨E.invoke name "view" [] s.table, { h with busy := true }⟩
  | handler {m : Message} {who : Option String} {event name : String} {args : List Value}
      {s : WidgetState} : (Act.address (E.main? h.engine) m h).1 = .ok (who, event, args) →
      h.named? who = some (name, s) →
      Begins E h (.send m)
        ⟨E.invoke name "on" (.str event :: args) (h.store.copyTable s.table).1,
          { h with busy := true, store := (h.store.copyTable s.table).2 }⟩
  | hotReload {source : String} : h.hot = true →
      Begins E h (.reload source)
        ⟨E.interpret source, { h with busy := true, lifecycle := .reloading }⟩
  | plainReload {source : String} : h.hot = false →
      Begins E h (.reload source) ⟨E.interpret source, { h with busy := true }⟩

/-- What is left of the host when its engine's work for a request is done with success. -/
inductive Engine.Finishes (E : Engine ρ) (h h₁ : Host ρ) : Request → Widgets → Store → Prop where
  | view {name : String} {n : Node} :
      Finishes E h h₁ .mainView
        (h₁.widgets.modify name fun s => { s with cached := some n, dirty := false }) h₁.store
  | handler {m : Message} {who : Option String} {event name : String} {args : List Value}
      {s : WidgetState} : (Act.address (E.main? h.engine) m h).1 = .ok (who, event, args) →
      h.named? who = some (name, s) →
      Finishes E h h₁ (.send m)
        (h₁.widgets.modify name fun s' =>
          { s' with table := (h.store.copyTable s.table).1, dirty := true }) h₁.store
  | hotReload {source : String} {ws : Widgets} {σ : Store} : h.hot = true →
      Widgets.ofDefaults h₁.store (E.defaults h₁.engine) = (ws, σ) →
      Finishes E h h₁ (.reload source) (Widgets.migrate σ h.widgets ws).1
        (Widgets.migrate σ h.widgets ws).2
  | plainReload {source : String} {ws : Widgets} {σ : Store} : h.hot = false →
      Widgets.ofDefaults h₁.store (E.defaults h₁.engine) = (ws, σ) →
      Finishes E h h₁ (.reload source) ws σ

/-- A view that is out of date is run and kept. -/
theorem widgetView_done {h h' : Host ρ} {name : String} {s : WidgetState} {n : Node} (hs : s.Stale)
    (hview : Act.widgetView E (Act.runCallback E disk) name s h = (.ok n, h')) :
    ∃ v h₁, Act.runCallback E disk (E.invoke name "view" [] s.table) h = (.ok v, h₁) ∧
      h' = { h₁ with
        widgets := h₁.widgets.modify name fun s => { s with cached := some n, dirty := false } } := by
  rw [Act.run_widgetView E _ hs] at hview
  obtain ⟨v, h₁, hinvoke, hrest⟩ := Act.run_bind_eq_ok.mp hview
  obtain ⟨n', h₂, hnode, hkept⟩ := Act.run_bind_eq_ok.mp hrest
  obtain rfl : h₂ = h₁ := by
    have hsame := Act.asNode_same v h₁
    rwa [hnode] at hsame
  cases hkept
  exact ⟨v, h₂, Act.invoke_done hinvoke, rfl⟩

theorem mainView_finishes {h h' : Host ρ} {n : Node} {name : String} {s : WidgetState}
    (hn : h.named? (E.main? h.engine) = some (name, s)) (hs : s.Stale)
    (hview : Act.mainView E (Act.runCallback E disk) h = (.ok n, h')) :
    ∃ v h₁, Act.runCallback E disk (E.invoke name "view" [] s.table) { h with busy := true }
        = (.ok v, h₁) ∧ E.Finishes h h₁ .mainView h'.widgets h'.store := by
  obtain ⟨h₃, hshow, rfl⟩ := Act.exclusive_ok hview
  rw [Act.showMain, Act.run_bind_ok (Act.run_get _),
    show Host.named? { h with busy := true } (E.main? h.engine) = some (name, s) from hn] at hshow
  obtain ⟨n', h₄, hwidget, hshow⟩ := Act.run_bind_eq_ok.mp hshow
  obtain ⟨v, h₁, hrun, rfl⟩ := widgetView_done hs hwidget
  refine ⟨v, h₁, hrun, ?_⟩
  obtain ⟨_, h₅, hlife, hshow⟩ := Act.run_bind_eq_ok.mp hshow
  cases hshow
  -- that the view was shown is noted, and makes no difference to the widgets
  rw [Act.run_modify] at hlife
  split at hlife
  · cases hlife
    exact .view
  · cases hlife
    exact .view

theorem send_finishes {h h' : Host ρ} {m : Message} {who : Option String} {event name : String}
    {args : List Value} {s : WidgetState}
    (ha : (Act.address (E.main? h.engine) m h).1 = .ok (who, event, args))
    (hn : h.named? who = some (name, s))
    (hsend : Act.send E (Act.runCallback E disk) m h = (.ok (), h')) :
    ∃ v h₁, Act.runCallback E disk
        (E.invoke name "on" (.str event :: args) (h.store.copyTable s.table).1)
        { h with busy := true, store := (h.store.copyTable s.table).2 } = (.ok v, h₁) ∧
      E.Finishes h h₁ (.send m) h'.widgets h'.store := by
  obtain ⟨h₃, hdeliver, rfl⟩ := Act.exclusive_ok hsend
  -- the message is for the same widget, though the host is busy now
  have haddr : Act.address (E.main? h.engine) m { h with busy := true }
      = (.ok (who, event, args), { h with busy := true }) := by
    have h₁ := (Act.address_busy (E.main? h.engine) m h true).1
    have h₂ := (Act.address_busy (E.main? h.engine) m { h with busy := true } true).2
    rw [ha] at h₁
    exact Prod.ext h₁ h₂
  rw [Act.deliver, Act.run_bind_ok (Act.run_get _), Act.run_bind_ok haddr] at hdeliver
  dsimp only at hdeliver
  rw [show Host.named? { h with busy := true } who = some (name, s) from hn] at hdeliver
  dsimp only at hdeliver
  rw [Act.run_bind_ok (Act.run_modify _ _)] at hdeliver
  obtain ⟨v, h₁, hinvoke, hdeliver⟩ := Act.run_bind_eq_ok.mp hdeliver
  cases hdeliver
  exact ⟨v, h₁, Act.invoke_done hinvoke, .handler ha hn⟩

theorem hotReload_finishes {h h' : Host ρ} {source : String} (hh : h.hot = true)
    (hreload : Act.reload E (Act.runCallback E disk) source h = (.ok (), h')) :
    ∃ v h₁, Act.runCallback E disk (E.interpret source)
        { h with busy := true, lifecycle := .reloading } = (.ok v, h₁) ∧
      E.Finishes h h₁ (.reload source) h'.widgets h'.store := by
  rw [Act.reload, Act.run_bind_ok (Act.run_get h), if_neg (by rw [hh]; decide)] at hreload
  obtain ⟨h₃, hrun, rfl⟩ := Act.exclusive_ok hreload
  rw [Act.run_bind_ok (Act.run_get _), Act.run_bind_ok (Act.run_modify _ _)] at hrun
  obtain ⟨r, h₄, hatt, hrun⟩ := Act.run_bind_eq_ok.mp hrun
  cases r with
  | error e => cases hrun
  | ok u =>
    obtain ⟨v, h₁, hinterpret, rfl⟩ := Act.load_done (Act.attempt_eq hatt)
    cases hrun
    exact ⟨v, h₁, hinterpret, .hotReload hh rfl⟩

theorem plainReload_finishes {h h' : Host ρ} {source : String} (hh : h.hot = false)
    (hreload : Act.reload E (Act.runCallback E disk) source h = (.ok (), h')) :
    ∃ v h₁, Act.runCallback E disk (E.interpret source) { h with busy := true } = (.ok v, h₁) ∧
      E.Finishes h h₁ (.reload source) h'.widgets h'.store := by
  rw [Act.reload, Act.run_bind_ok (Act.run_get h), if_pos (by rw [hh]; decide)] at hreload
  obtain ⟨h₃, hload, rfl⟩ := Act.exclusive_ok hreload
  obtain ⟨v, h₁, hinterpret, rfl⟩ := Act.load_done hload
  exact ⟨v, h₁, hinterpret, .plainReload hh rfl⟩

/-- **A request that succeeds had its work done, and finishes.** -/
theorem begins_finishes {h h' : Host ρ} {r : Request} {a : Answer} {w : Work ρ}
    (hw : E.Begins h r w) (hok : E.respond disk r h = (.ok a, h')) :
    ∃ v h₁, Work.Steps E disk w ⟨.done (.ok v), h₁⟩ ∧
      E.Finishes h h₁ r h'.widgets h'.store := by
  have hwork : ∃ v h₁, Act.runCallback E disk w.todo w.host = (.ok v, h₁) ∧
      E.Finishes h h₁ r h'.widgets h'.store := by
    cases hw with
    | view hn hs =>
      obtain ⟨n, h₂, hview, hend⟩ := Act.run_bind_eq_ok.mp hok
      cases hend
      exact mainView_finishes hn hs hview
    | handler ha hn =>
      obtain ⟨_, h₂, hsend, hend⟩ := Act.run_bind_eq_ok.mp hok
      cases hend
      exact send_finishes ha hn hsend
    | hotReload hh =>
      obtain ⟨_, h₂, hreload, hend⟩ := Act.run_bind_eq_ok.mp hok
      cases hend
      exact hotReload_finishes hh hreload
    | plainReload hh =>
      obtain ⟨_, h₂, hreload, hend⟩ := Act.run_bind_eq_ok.mp hok
      cases hend
      exact plainReload_finishes hh hreload
  obtain ⟨v, h₁, hrun, hfinish⟩ := hwork
  exact ⟨v, h₁, runCallback_steps _ hrun, hfinish⟩

/-! ## A field while an engine works -/

/-- Whether the next step writes a field: the engine puts another value into its table, or asks for
a write that is accepted. -/
def Work.Writes (w : Work ρ) (name field : String) : Prop :=
  match w.todo with
  | .put state σ _ =>
    (Act.getField name field { w.host with engine := state, store := σ }).1
      ≠ (Act.getField name field w.host).1
  | .ask (.setField name' field' v) _ =>
    name' = name ∧ field' = field ∧ (Act.setField name field v w.host).1 = .ok ()
  | _ => False

/-- Steps of which none writes a field. -/
abbrev Work.StepsWithout (E : Engine ρ) (disk : Disk) (name field : String) :
    Work ρ → Work ρ → Prop :=
  Relation.ReflTransGen fun w w' => Work.Step E disk w w' ∧ ¬ w.Writes name field

theorem Work.StepsWithout.steps {name field : String} {w w' : Work ρ}
    (hs : Work.StepsWithout E disk name field w w') : Work.Steps E disk w w' :=
  Relation.ReflTransGen.mono (fun _ _ h => h.1) _ _ hs

/-- What was written is answered. -/
theorem getField_putField {h : Host ρ} {name field : String} {s : WidgetState} (ht : h.Tables)
    (hs : h.widgets.get? name = some s) (v : Value) :
    (Act.getField name field (h.putField name s.table field v)).1 = .ok v := by
  refine Act.getField_ok.mpr ⟨{ s with dirty := true }, ?_, ?_⟩
  · rw [Host.putField, Widgets.get?_modify, if_pos rfl, hs]
    rfl
  · show ((h.store.set s.table _).get s.table).get? field = some v
    rw [Store.get_set_self (ht.widgets.has hs), Fields.get?_put, if_pos rfl]

/-- A write to another field, or to another widget. -/
theorem getField_putField_of_ne {h : Host ρ} {name field name' field' : String} {s : WidgetState}
    {v w : Value} (ht : h.Tables) (hs : h.widgets.get? name' = some s)
    (hne : ¬ (name' = name ∧ field' = field)) (hv : (Act.getField name field h).1 = .ok v) :
    (Act.getField name field (h.putField name' s.table field' w)).1 = .ok v := by
  obtain ⟨s₀, hs₀, hv⟩ := Act.getField_ok.mp hv
  refine Act.getField_ok.mpr ⟨if name = name' then { s₀ with dirty := true } else s₀, ?_, ?_⟩
  · rw [Host.putField, Widgets.get?_modify, hs₀]
    split <;> rfl
  · have htable : (if name = name' then { s₀ with dirty := true } else s₀).table = s₀.table := by
      split <;> rfl
    rw [htable]
    show ((h.store.set s.table _).get s₀.table).get? field = some v
    by_cases he : s₀.table = s.table
    · -- one table has one widget, so it is another field
      have hname : name' = name := ht.widgets.apart hs hs₀ he.symm
      have hfield : field' ≠ field := fun hf => hne ⟨hname, hf⟩
      rw [he, Store.get_set_self (ht.widgets.has hs), Fields.get?_put, if_neg hfield, ← he, hv]
    · rw [Store.get_set_of_ne he, hv]

/-- A step that does not write a field leaves its value. -/
theorem step_keeps_field {w w' : Work ρ} {name field : String} {v : Value}
    (ht : w.host.Tables) (hb : w.host.busy = true) (hs : Work.Step E disk w w')
    (hn : ¬ w.Writes name field) (hv : (Act.getField name field w.host).1 = .ok v) :
    (Act.getField name field w'.host).1 = .ok v := by
  cases hs with
  | get => exact hv
  | put => exact (not_not.mp hn).trans hv
  | @ask r next h h' a ha =>
    rcases Act.respond_of_busy E Act.idle disk hb r with
      ⟨a', he, -⟩ | ⟨on, rfl, he⟩ | ⟨name', field', v', s, rfl, hg, -, hset, he⟩
    · rw [ha] at he
      cases he
      exact hv
    · rw [ha] at he
      cases he
      obtain ⟨s, hs, hv⟩ := Act.getField_ok.mp hv
      exact Act.getField_ok.mpr ⟨s, hs, hv⟩
    · rw [ha] at he
      cases he
      refine getField_putField_of_ne ht hg ?_ hv
      rintro ⟨rfl, rfl⟩
      exact hn ⟨rfl, rfl, by rw [hset]⟩

/-- **An accepted write is answered until the field is written again**, as long as the engine
works. -/
theorem steps_keep_field {w w' : Work ρ} {name field : String} {v : Value}
    (htidy : w.Tidy E disk) (ht : w.host.Tables) (hb : w.host.busy = true)
    (hv : (Act.getField name field w.host).1 = .ok v)
    (hs : Work.StepsWithout E disk name field w w') :
    (Act.getField name field w'.host).1 = .ok v := by
  induction hs with
  | refl => exact hv
  | tail hsteps hstep ih =>
    obtain ⟨hm, -⟩ := steps_meanwhile htidy ht hb (Work.StepsWithout.steps hsteps)
    exact step_keeps_field hm.tables (hm.busy.trans hb) hstep.1 hstep.2 ih

/-! ## Afterwards -/

/-- The host that some work begins with is busy, its tables are in order, and it has the widgets that
were there. -/
theorem begins_tables {h : Host ρ} {r : Request} {w : Work ρ} (hE : E.Tidy disk) (ht : h.Tables)
    (hw : E.Begins h r w) : w.host.Tables ∧ w.host.busy = true ∧ w.Tidy E disk ∧
      ∀ n, w.host.widgets.get? n = h.widgets.get? n := by
  cases hw with
  | view _ _ =>
    have ht' : Host.Tables { h with busy := true } := ⟨ht.widgets, ht.fields⟩
    exact ⟨ht', rfl, hE.invoke _ _ _ _ _ ht', fun _ => rfl⟩
  | @handler m who event name args s _ _ =>
    have ht' : Host.Tables
        { h with busy := true, store := (h.store.copyTable s.table).2 } :=
      ⟨(tables_copy ht s.table).widgets, (tables_copy ht s.table).fields⟩
    exact ⟨ht', rfl, hE.invoke _ _ _ _ _ ht', fun _ => rfl⟩
  | hotReload _ =>
    have ht' : Host.Tables { h with busy := true, lifecycle := .reloading } :=
      ⟨ht.widgets, ht.fields⟩
    exact ⟨ht', rfl, hE.interpret _ _ ht', fun _ => rfl⟩
  | plainReload _ =>
    have ht' : Host.Tables { h with busy := true } := ⟨ht.widgets, ht.fields⟩
    exact ⟨ht', rfl, hE.interpret _ _ ht', fun _ => rfl⟩

/-- What is answered for a field after a request, if it was `v` when the engine's work was done: the
request began with the host `h`, and the work left `h₁`. -/
def Engine.answer? (E : Engine ρ) (h h₁ : Host ρ) (name field : String) (v : Value) :
    Request → Option Value
  | .send m =>
    match (Act.address (E.main? h.engine) m h).1 with
    | .ok (who, _, _) =>
      match h.named? who with
      -- the widget that the handler ran for has the copy that it ran on
      | some (name', s) =>
        if name = name' then (h₁.store.get (h.store.copyTable s.table).1).get? field else some v
      | none => some v
    | .error _ => some v
  | .reload _ =>
    match (E.defaults h₁.engine).lookup name with
    | none => none
    | some fs => if h.hot then (if fs.has field then some v else none) else fs.get? field
  | _ => some v

section Afterwards

variable {h h₁ : Host ρ} {name field : String} {v : Value}

/-- What is answered for a field, from the widget's table. -/
theorem getField_ok_table {ws : Widgets} {σ : Store} {h' : Host ρ} (hw : h'.widgets = ws)
    (hs : h'.store = σ) {u : Value} : (Act.getField name field h').1 = .ok u ↔
      ((ws.get? name).map (·.table)).bind (fun t => (σ.get t).get? field) = some u := by
  subst hw
  subst hs
  rw [Act.getField_ok]
  cases h'.widgets.get? name with
  | none => simp
  | some s => simp

/-- A reload keeps a field that the new program has, if it keeps fields. -/
theorem migrate_field (ht₁ : h₁.Tables)
    (hsame : ∀ n, (h₁.widgets.get? n).map (·.table) = (h.widgets.get? n).map (·.table))
    (hv : (Act.getField name field h₁).1 = .ok v) {ws : Widgets} {σ : Store}
    (hmade : Widgets.Made h₁.store (E.defaults h₁.engine) ws σ) :
    (((Widgets.migrate σ h.widgets ws).1.get? name).map (·.table)).bind
        (fun t => ((Widgets.migrate σ h.widgets ws).2.get t).get? field)
      = match (E.defaults h₁.engine).lookup name with
        | none => none
        | some fs => if fs.has field then some v else none := by
  obtain ⟨s₁, hs₁, hv⟩ := Act.getField_ok.mp hv
  have hsame₁ := hsame name
  rw [hs₁] at hsame₁
  obtain ⟨s, hs, htable⟩ := Option.map_eq_some_iff.mp hsame₁.symm
  have hold : ∀ {n : String} {s : WidgetState}, h.widgets.get? n = some s →
      h₁.store.Has s.table := by
    intro n s hg
    have hsn := hsame n
    rw [hg] at hsn
    obtain ⟨s', hs', he⟩ := Option.map_eq_some_iff.mp hsn
    rw [show s.table = s'.table from he.symm]
    exact ht₁.widgets.has hs'
  -- the tables of the new widgets are new, so they are none of the old ones
  have hm := Widgets.migrate_migrated h.widgets ws σ hmade.tables
    (fun w hw => (hmade.fresh w hw).2) hmade.state
    fun hg w hw he => (hmade.fresh w hw).1 (he ▸ hold hg)
  rw [hm.widgets, hmade.lookup]
  cases hg : ws.get? name with
  | none => rfl
  | some s' =>
    have hcontents := hm.contents (name, s') (Widgets.mem_of_get? hg)
    rw [hs] at hcontents
    have hprevious : σ.get s.table = h₁.store.get s₁.table := by
      rw [hmade.keeps.get s.table (hold hs), htable]
    have hcarry := Widgets.get?_carry (ht₁.fields s₁.table) field (σ.get s'.table)
    dsimp only at hcontents
    rw [hprevious] at hcontents
    show ((Widgets.migrate σ h.widgets ws).2.get s'.table).get? field = _
    rw [hcontents, hcarry, hv]
    rfl

/-- What a finished request makes of a field. -/
theorem finishes_field (ht₁ : h₁.Tables)
    (hsame : ∀ n, (h₁.widgets.get? n).map (·.table) = (h.widgets.get? n).map (·.table))
    (hv : (Act.getField name field h₁).1 = .ok v) {r : Request} {ws : Widgets} {σ : Store}
    (hf : E.Finishes h h₁ r ws σ) :
    ((ws.get? name).map (·.table)).bind (fun t => (σ.get t).get? field)
      = E.answer? h h₁ name field v r := by
  have hv' := (getField_ok_table rfl rfl).mp hv
  cases hf with
  | view =>
    rw [Widgets.get?_modify]
    split
    · rw [Option.map_map]
      exact hv'
    · exact hv'
  | @handler m who event name' args s ha hn =>
    obtain ⟨-, hs⟩ := Act.mem_named? hn
    rw [Engine.answer?, ha]
    dsimp only
    rw [hn, Widgets.get?_modify]
    by_cases he : name = name'
    · -- the widget is still there when the work is done
      subst he
      have hs₁ := hsame name
      rw [hs] at hs₁
      obtain ⟨s₁, hs₁, -⟩ := Option.map_eq_some_iff.mp hs₁
      rw [if_pos rfl, hs₁]
      simp
    · rw [if_neg he]
      simpa [he] using hv'
  | @hotReload source ws σ hh hd =>
    have hmade := Widgets.ofDefaults_made (E.defaults h₁.engine) h₁.store
    rw [hd] at hmade
    rw [migrate_field ht₁ hsame hv hmade, Engine.answer?]
    cases (E.defaults h₁.engine).lookup name with
    | none => rfl
    | some fs => simp [hh]
  | plainReload hh hd =>
    have hmade := Widgets.ofDefaults_made (E.defaults h₁.engine) h₁.store
    rw [hd] at hmade
    rw [Engine.answer?, hmade.lookup]
    cases ws.get? name with
    | none => rfl
    | some s => simp [hh]

end Afterwards

/-- **What is answered for a field that an engine had written while it worked for a request**, if the
write was accepted and the field was not written again until the work was done. -/
theorem nested_write_answer {h h' h₁ h₂ h₃ : Host ρ} {r : Request} {a b : Answer} {w : Work ρ}
    {name field : String} {v : Value} {next : Except Failure Answer → Callback ρ}
    {x : Except Failure Value} (hE : E.Tidy disk) (hr : E.Reachable disk h) (hw : E.Begins h r w)
    (hbefore : Work.Steps E disk w ⟨.ask (.setField name field v) next, h₁⟩)
    (haccepted : Act.respond E Act.idle disk (.setField name field v) h₁ = (.ok b, h₂))
    (hafter : Work.StepsWithout E disk name field ⟨next (.ok b), h₂⟩ ⟨.done x, h₃⟩)
    (hok : E.respond disk r h = (.ok a, h')) (u : Value) :
    (Act.getField name field h').1 = .ok u ↔ E.answer? h h₃ name field v r = some u := by
  obtain ⟨ht₀, hb₀, htidy, hsame₀⟩ := begins_tables hE (reachable_tables hE hr).1 hw
  obtain ⟨hm₁, htidy₁⟩ := steps_meanwhile htidy ht₀ hb₀ hbefore
  have hask : Work.Step E disk ⟨.ask (.setField name field v) next, h₁⟩ ⟨next (.ok b), h₂⟩ :=
    .ask haccepted
  have hb₁ : h₁.busy = true := hm₁.busy.trans hb₀
  have hm₂ := hm₁.trans (step_meanwhile htidy₁ hm₁.tables hb₁ hask)
  have hb₂ : h₂.busy = true := hm₂.busy.trans hb₀
  -- the write is answered at once, and until the work is done
  have hv₂ : (Act.getField name field h₂).1 = .ok v := by
    rcases Act.setField_cases name field v h₁ with ⟨e, he⟩ | ⟨s, hs, hf, hset⟩
    · have hfail : Act.respond E Act.idle disk (.setField name field v) h₁ = _ :=
        Act.run_bind_error he
      rw [haccepted] at hfail
      cases hfail
    · have hdone : Act.respond E Act.idle disk (.setField name field v) h₁ = _ :=
        Act.run_bind_ok hset
      rw [haccepted] at hdone
      cases hdone
      exact getField_putField hm₁.tables hs v
  have hv₃ := steps_keep_field (htidy₁.step hask) hm₂.tables hb₂ hv₂ hafter
  obtain ⟨hm₃, -⟩ := steps_meanwhile (htidy₁.step hask) hm₂.tables hb₂
    (Work.StepsWithout.steps hafter)
  -- it is the same work that the request has done
  obtain ⟨v', h₃', hsteps, hfinish⟩ := begins_finishes hw hok
  obtain ⟨-, rfl⟩ := Work.Steps.end_unique
    (hbefore.trans (.head hask (Work.StepsWithout.steps hafter))) hsteps
  have hsame : ∀ n, (h₃.widgets.get? n).map (·.table) = (h.widgets.get? n).map (·.table) := by
    intro n
    rw [(hm₂.trans hm₃).same n, hsame₀ n]
  rw [getField_ok_table rfl rfl, finishes_field hm₃.tables hsame hv₃ hfinish]

/-! ## An engine that has a field written -/

/-- Whatever method it is to run, it asks for one write. -/
def askingEngine : Engine Unit where
  interpret _ := .done (.ok .nil)
  invoke _ _ _ _ := .ask (.setField "W" "n" (.int 5)) fun _ => .done (.ok .nil)
  defaults _ := [("W", [("n", .int 0)]), ("V", [])]
  main? _ := some "W"

theorem askingEngine_tidy (disk : Disk) : askingEngine.Tidy disk where
  names _ := by
    show ["W", "V"].Nodup
    decide
  fields _ name fs h := by
    have hmem := mem_of_lookup h
    rcases List.mem_cons.mp hmem with he | hmem
    · cases he
      decide
    · cases List.mem_singleton.mp hmem
      decide
  interpret source h _ w' state σ next hs hw := by
    rw [Work.Steps.done_eq hs] at hw
    cases hw
  invoke widget method args t h _ w' state σ next hs hw := by
    rcases Relation.ReflTransGen.cases_head hs with rfl | ⟨w₁, hstep, hs⟩
    · cases hw
    · cases hstep with
      | ask _ =>
        rw [Work.Steps.done_eq hs] at hw
        cases hw

/-- A host with the widgets of that engine. -/
def askingHost : Host Unit :=
  (askingEngine.respond {} (.interpret "") (Host.new () {} none)).2

/-- The host after a message for a widget. -/
def askedBy (widget : String) : Except Failure Answer × Host Unit :=
  askingEngine.respond {} (.send (.typed widget "A" [])) askingHost

/-- A handler of another widget: the write is answered afterwards. -/
theorem ask_keeps_write : (askedBy "V").1 = .ok .done ∧
    (Act.getField "W" "n" (askedBy "V").2).1 = .ok (.int 5) := by
  have hr : askingEngine.Reachable {} askingHost := .respond (.interpret "") (.new () {} none)
  refine ⟨rfl, ?_⟩
  refine (nested_write_answer (a := .done) (b := .done) (askingEngine_tidy {}) hr
    (.handler (m := .typed "V" "A" []) (s := { table := ⟨1⟩ }) rfl rfl) .refl rfl .refl rfl
    (.int 5)).mpr ?_
  rfl

/-- **A handler of the widget itself: the write was accepted and nothing has written the field
since, but it has its old value again.** -/
theorem ask_loses_write : ∃ (w : Work Unit) (next : Except Failure Answer → Callback Unit)
    (h₁ h₂ : Host Unit), askingEngine.Begins askingHost (.send (.typed "W" "A" [])) w ∧
    Work.Steps askingEngine {} w ⟨.ask (.setField "W" "n" (.int 5)) next, h₁⟩ ∧
    Act.respond askingEngine Act.idle {} (.setField "W" "n" (.int 5)) h₁ = (.ok .done, h₂) ∧
    Work.StepsWithout askingEngine {} "W" "n" ⟨next (.ok .done), h₂⟩ ⟨.done (.ok .nil), h₂⟩ ∧
    (askedBy "W").1 = .ok .done ∧
    (Act.getField "W" "n" (askedBy "W").2).1 = .ok (.int 0) :=
  ⟨_, fun _ => .done (.ok .nil), _, _, .handler (s := { table := ⟨0⟩ }) rfl rfl, .refl, rfl, .refl,
    rfl, rfl⟩

end Widgetry
