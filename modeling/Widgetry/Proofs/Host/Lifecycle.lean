import Widgetry.Proofs.Host.Engines
import Widgetry.Proofs.Host.Replacement

/-!
# One task at a time

A host is busy from the beginning of a task until its end, and what an engine asks for meanwhile is
refused if it is a task again. The lifecycle says how far the host has come between its tasks. Both
have to be right however a task ends, and whatever the engine did in it.

> `one_task_at_a_time`: in every history of a host, with whatever engine, all work is done for a busy
> host, each task that the engine asks for is refused and changes nothing, the host is free again
> afterwards, and the lifecycle tells what has succeeded so far.

`Engine.Works` lists the work that is done for a request, and `respond_congr` says that the list is
complete. A step of such work keeps busyness and lifecycle (`step_lifecycle`), and therefore so does
all of it.
-/

namespace Widgetry

variable {ρ : Type} {E : Engine ρ} {disk : Disk}

/-! ## Requests -/

/-- Whether a request asks for the main view. -/
inductive Request.Shows : Request → Prop where
  | mainView : Shows .mainView
  | sameView : Shows .sameView
  | render : Shows .render

/-- The task that a request asks for. A file that cannot be read asks for none. -/
def Request.task? (disk : Disk) (h : Host ρ) : Request → Option Task
  | .interpret _ => some .interpret
  | .reload _ => some (if h.hot then .reload else .interpret)
  | .loadFile path =>
    match disk.readSource path h.settings.maxSourceSize with
    | .ok _ => some .interpret
    | .error _ => none
  | .mainView | .sameView | .render => some .mainView
  | .send _ => some .handleMessage
  | _ => none

/-- The work that an engine does for a request to a free host. -/
inductive Engine.Works (E : Engine ρ) (disk : Disk) : Host ρ → Request → Work ρ → Prop where
  | interpret {h : Host ρ} {source : String} :
      Works E disk h (.interpret source) ⟨E.interpret source, { h with busy := true }⟩
  | loadFile {h : Host ρ} {path : Path} {source : String} :
      disk.readSource path h.settings.maxSourceSize = .ok source →
      Works E disk h (.loadFile path) ⟨E.interpret source, { h with busy := true }⟩
  | plainReload {h : Host ρ} {source : String} : h.hot = false →
      Works E disk h (.reload source) ⟨E.interpret source, { h with busy := true }⟩
  | hotReload {h : Host ρ} {source : String} : h.hot = true →
      Works E disk h (.reload source)
        ⟨E.interpret source, { h with busy := true, lifecycle := .reloading }⟩
  | view {h : Host ρ} {r : Request} {name : String} {s : WidgetState} : r.Shows →
      h.named? (E.main? h.engine) = some (name, s) → s.Stale →
      Works E disk h r ⟨E.invoke name "view" [] s.table, { h with busy := true }⟩
  /-- the second of two views -/
  | again {h h₁ : Host ρ} {n : Node} {w : Work ρ} :
      Act.mainView E (Act.runCallback E disk) h = (.ok n, h₁) →
      Works E disk h₁ .mainView w → Works E disk h .sameView w
  | handler {h : Host ρ} {m : Message} {who : Option String} {event name : String}
      {args : List Value} {s : WidgetState} :
      (Act.address (E.main? h.engine) m h).1 = .ok (who, event, args) →
      h.named? who = some (name, s) →
      Works E disk h (.send m)
        ⟨E.invoke name "on" (.str event :: args) (h.store.copyTable s.table).1,
          { h with busy := true, store := (h.store.copyTable s.table).2 }⟩

namespace Act

variable {α β : Type} {h h' : Host ρ} {run run' : Callback ρ → Act ρ Value}

/-- **A busy host refuses every task**, whoever works for it. -/
theorem respond_task_of_busy (hb : h.busy = true) {r : Request} {t : Task}
    (ht : r.task? disk h = some t) :
    respond E run disk r h = (.error (.refused (.busy t)), h) := by
  have hview : mainView E run h = (.error (.refused (.busy .mainView)), h) :=
    exclusive_of_busy hb _ _
  cases r with
  | interpret source =>
    cases ht
    exact run_bind_error (exclusive_of_busy hb _ _)
  | reload source =>
    have hreload : reload E run source h = (.error (.refused (.busy t)), h) := by
      rw [reload, run_bind_ok (run_get h)]
      cases hh : h.hot with
      | true =>
        rw [Request.task?, hh, if_pos rfl] at ht
        cases ht
        rw [if_neg (by decide)]
        exact exclusive_of_busy hb _ _
      | false =>
        rw [Request.task?, hh, if_neg (by decide)] at ht
        cases ht
        rw [if_pos (by decide)]
        exact exclusive_of_busy hb _ _
    exact run_bind_error hreload
  | loadFile path =>
    rw [Request.task?] at ht
    cases hd : disk.readSource path h.settings.maxSourceSize with
    | error e =>
      rw [hd] at ht
      cases ht
    | ok source =>
      rw [hd] at ht
      cases ht
      have hload : loadFile E run disk path h = (.error (.refused (.busy .interpret)), h) := by
        rw [loadFile, run_bind_ok (run_get h), hd]
        exact run_bind_error (exclusive_of_busy hb _ _)
      exact run_bind_error hload
  | mainView =>
    cases ht
    exact run_bind_error hview
  | sameView =>
    cases ht
    exact run_bind_error (run_bind_error hview)
  | render =>
    cases ht
    exact run_bind_error (run_bind_error hview)
  | send m =>
    cases ht
    exact run_bind_error (exclusive_of_busy hb _ _)
  | getField | setField | widget | setHot => cases ht

/-! ## Which work is done -/

theorem bind_congr {x y : Act ρ α} {f g : α → Act ρ β} (hx : x h = y h)
    (hf : ∀ a h', x h = (.ok a, h') → f a h' = g a h') : (x >>= f) h = (y >>= g) h := by
  rw [run_bind, run_bind, ← hx]
  rcases hr : x h with ⟨r, h'⟩
  cases r with
  | error e => rfl
  | ok a => exact hf a h' hr

theorem attempt_congr {x y : Act ρ α} (hx : x h = y h) : attempt x h = attempt y h := by
  rw [attempt, attempt, hx]

theorem exclusive_congr {task : Task} {x y : Act ρ α}
    (hx : x { h with busy := true } = y { h with busy := true }) :
    exclusive task x h = exclusive task y h := by
  rw [exclusive, exclusive, hx]

theorem load_congr {source : String}
    (hrun : run (E.interpret source) h = run' (E.interpret source) h) :
    load E run source h = load E run' source h :=
  bind_congr (attempt_congr hrun) fun _ _ _ => rfl

theorem invoke_congr {name method : String} {args : List Value} {t : TableId}
    (hrun : run (E.invoke name method args t) h = run' (E.invoke name method args t) h) :
    invoke E run name method args t h = invoke E run' name method args t h :=
  bind_congr (attempt_congr hrun) fun _ _ _ => rfl

/-- A view that is up to date is not run. -/
theorem run_widgetView_fresh (E : Engine ρ) (name : String) {s : WidgetState} (hs : ¬ s.Stale) :
    ∃ n, ∀ (run : Callback ρ → Act ρ Value) (h : Host ρ),
      widgetView E run name s h = (.ok n, h) := by
  obtain ⟨t, cached, dirty⟩ := s
  cases cached with
  | none => exact absurd (Or.inl rfl) hs
  | some n =>
    cases dirty with
    | true => exact absurd (Or.inr rfl) hs
    | false => exact ⟨n, fun _ _ => rfl⟩

theorem widgetView_congr {name : String} {s : WidgetState}
    (hrun : s.Stale →
      run (E.invoke name "view" [] s.table) h = run' (E.invoke name "view" [] s.table) h) :
    widgetView E run name s h = widgetView E run' name s h := by
  by_cases hs : s.Stale
  · rw [run_widgetView E run hs, run_widgetView E run' hs]
    exact bind_congr (invoke_congr (hrun hs)) fun _ _ _ => rfl
  · obtain ⟨n, hfresh⟩ := run_widgetView_fresh E name hs
    rw [hfresh, hfresh]

theorem mainView_congr
    (hrun : ∀ w, E.Works disk h .mainView w → run w.todo w.host = runCallback E disk w.todo w.host) :
    mainView E run h = mainView E (runCallback E disk) h := by
  refine exclusive_congr ?_
  rw [showMain, showMain, run_bind_ok (run_get _), run_bind_ok (run_get _)]
  rw [show Host.named? { h with busy := true } = h.named? from rfl]
  dsimp only
  cases hn : h.named? (E.main? h.engine) with
  | none => rfl
  | some w =>
    exact bind_congr (widgetView_congr fun hs => hrun _ (.view .mainView hn hs)) fun _ _ _ => rfl

theorem send_congr {m : Message}
    (hrun : ∀ w, E.Works disk h (.send m) w → run w.todo w.host = runCallback E disk w.todo w.host) :
    send E run m h = send E (runCallback E disk) m h := by
  refine exclusive_congr ?_
  rw [deliver, deliver, run_bind_ok (run_get _), run_bind_ok (run_get _)]
  refine bind_congr rfl fun whom g hwhom => ?_
  obtain ⟨who, event, args⟩ := whom
  -- whom the message is for does not depend on whether the host is busy
  obtain ⟨hfree, -⟩ := address_busy (E.main? h.engine) m h true
  obtain ⟨-, hsame⟩ := address_busy (E.main? h.engine) m { h with busy := true } true
  rw [show address (E.main? h.engine) m { h with busy := true } = (.ok (who, event, args), g)
    from hwhom] at hfree hsame
  obtain rfl : g = { h with busy := true } := hsame
  dsimp only
  rw [show Host.named? { h with busy := true } = h.named? from rfl]
  cases hn : h.named? who with
  | none => rfl
  | some w =>
    refine bind_congr rfl fun _ g hg => ?_
    cases hg
    exact bind_congr (invoke_congr (hrun _ (.handler hfree.symm hn))) fun _ _ _ => rfl

/-- **The answer to a request depends on the listed work only.** -/
theorem respond_congr {r : Request}
    (hrun : ∀ w, E.Works disk h r w → run w.todo w.host = runCallback E disk w.todo w.host) :
    respond E run disk r h = E.respond disk r h := by
  cases r with
  | interpret source =>
    exact bind_congr (exclusive_congr (load_congr (hrun _ .interpret))) fun _ _ _ => rfl
  | reload source =>
    refine bind_congr (bind_congr rfl fun _ g hg => ?_) fun _ _ _ => rfl
    cases hg
    cases hh : h.hot with
    | true =>
      rw [if_neg (by decide), if_neg (by decide)]
      refine exclusive_congr (bind_congr rfl fun _ g hg => bind_congr rfl fun _ g' hg' => ?_)
      cases hg
      cases hg'
      exact bind_congr (attempt_congr (load_congr (hrun _ (.hotReload hh)))) fun _ _ _ => rfl
    | false =>
      rw [if_pos (by decide), if_pos (by decide)]
      exact exclusive_congr (load_congr (hrun _ (.plainReload hh)))
  | loadFile path =>
    refine bind_congr (bind_congr rfl fun _ g hg => ?_) fun _ _ _ => rfl
    cases hg
    cases hd : disk.readSource path h.settings.maxSourceSize with
    | error e => rfl
    | ok source =>
      exact bind_congr (exclusive_congr (load_congr (hrun _ (.loadFile hd)))) fun _ _ _ => rfl
  | mainView => exact bind_congr (mainView_congr hrun) fun _ _ _ => rfl
  | sameView =>
    have hfirst : mainView E run h = mainView E (runCallback E disk) h := by
      refine mainView_congr fun w hw => hrun w ?_
      cases hw with
      | view _ hn hs => exact .view .sameView hn hs
    refine bind_congr (bind_congr hfirst fun n h₁ hn => ?_) fun _ _ _ => rfl
    rw [hfirst] at hn
    exact bind_congr (mainView_congr fun w hw => hrun w (.again hn hw)) fun _ _ _ => rfl
  | render =>
    refine bind_congr (bind_congr (mainView_congr fun w hw => hrun w ?_) fun _ _ _ => rfl)
      fun _ _ _ => rfl
    cases hw with
    | view _ hn hs => exact .view .render hn hs
  | send m => exact bind_congr (send_congr hrun) fun _ _ _ => rfl
  | getField | setField | widget | setHot => rfl

end Act

/-! ## Busyness and lifecycle while an engine works -/

/-- One thing that an engine does for a busy host keeps the host busy, and its lifecycle. -/
theorem step_lifecycle {w w' : Work ρ} (hb : w.host.busy = true) (hs : Work.Step E disk w w') :
    w'.host.busy = true ∧ w'.host.lifecycle = w.host.lifecycle := by
  cases hs with
  | get => exact ⟨hb, rfl⟩
  | put => exact ⟨hb, rfl⟩
  | @ask r next h h' a ha =>
    rcases Act.respond_of_busy E Act.idle disk hb r with
      ⟨a', he, -⟩ | ⟨on, -, he⟩ | ⟨name, field, v, s, -, -, -, -, he⟩ <;>
    · rw [ha] at he
      cases he
      exact ⟨hb, rfl⟩

theorem steps_lifecycle {w w' : Work ρ} (hb : w.host.busy = true) (hs : Work.Steps E disk w w') :
    w'.host.busy = true ∧ w'.host.lifecycle = w.host.lifecycle := by
  induction hs with
  | refl => exact ⟨hb, rfl⟩
  | tail _ hstep ih =>
    obtain ⟨hb', hl⟩ := step_lifecycle ih.1 hstep
    exact ⟨hb', hl.trans ih.2⟩

/-! ## The lifecycle after a request -/

/-- The lifecycle after something was shown. -/
def Lifecycle.shown : Lifecycle → Lifecycle
  | loaded => rendered
  | l => l

/-- The lifecycle of a free host after it answered a request. -/
def Engine.lifecycleAfter (E : Engine ρ) (disk : Disk) (h : Host ρ) (r : Request) : Lifecycle :=
  match r with
  | .interpret _ | .loadFile _ =>
    if (E.respond disk r h).1.isOk then .loaded else h.lifecycle
  | .reload _ =>
    if (E.respond disk r h).1.isOk then
      if h.hot = true ∧ h.lifecycle = .rendered then .rendered else .loaded
    else h.lifecycle
  | .mainView | .sameView | .render =>
    if (E.respond disk .mainView h).1.isOk then h.lifecycle.shown else h.lifecycle
  | _ => h.lifecycle

namespace Act

variable {α β : Type} {h h' : Host ρ}

/-- Whether something that is done for a busy host keeps the host busy, and its lifecycle. -/
def Lasting (x : Act ρ α) : Prop :=
  ∀ h : Host ρ, h.busy = true → (x h).2.busy = true ∧ (x h).2.lifecycle = h.lifecycle

theorem lasting_of_same {x : Act ρ α} (hx : ∀ h, (x h).2 = h) : Lasting x := by
  intro h hb
  rw [hx h]
  exact ⟨hb, rfl⟩

theorem lasting_modify {f : Host ρ → Host ρ}
    (hf : ∀ h, (f h).busy = h.busy ∧ (f h).lifecycle = h.lifecycle) : Lasting (modify f) :=
  fun h hb => ⟨(hf h).1.trans hb, (hf h).2⟩

theorem lasting_bind {x : Act ρ α} {f : α → Act ρ β} (hx : Lasting x) (hf : ∀ a, Lasting (f a)) :
    Lasting (x >>= f) := by
  intro h hb
  obtain ⟨hb₁, hl₁⟩ := hx h hb
  rw [run_bind]
  rcases hr : x h with ⟨r, h₁⟩
  rw [hr] at hb₁ hl₁
  cases r with
  | error e => exact ⟨hb₁, hl₁⟩
  | ok a =>
    obtain ⟨hb₂, hl₂⟩ := hf a h₁ hb₁
    exact ⟨hb₂, hl₂.trans hl₁⟩

theorem lasting_run (x : Callback ρ) : Lasting (runCallback E disk x) :=
  fun _ hb => steps_lifecycle hb (runCallback_steps x rfl)

theorem lasting_invoke (name method : String) (args : List Value) (t : TableId) :
    Lasting (invoke E (runCallback E disk) name method args t) := by
  intro h hb
  have hlasting : Lasting (runCallback E disk (E.invoke name method args t)) := lasting_run _
  have hrun := hlasting h hb
  obtain ⟨r, h₁, hr, ⟨v, -, he⟩ | ⟨e, he⟩⟩ := invoke_cases E (runCallback E disk) name method args t h
  · rw [hr] at hrun
    rw [he]
    exact hrun
  · rw [hr] at hrun
    rw [he]
    exact hrun

theorem lasting_widgetView (name : String) (s : WidgetState) :
    Lasting (widgetView E (runCallback E disk) name s) := by
  unfold widgetView
  split
  · exact lasting_of_same fun _ => rfl
  · refine lasting_bind (lasting_invoke _ _ _ _) fun v => ?_
    refine lasting_bind (lasting_of_same (asNode_same v)) fun n => ?_
    exact lasting_bind (lasting_modify fun _ => ⟨rfl, rfl⟩) fun _ => lasting_of_same fun _ => rfl

theorem lasting_deliver (m : Message) : Lasting (deliver E (runCallback E disk) m) := by
  refine lasting_bind (lasting_of_same fun _ => rfl) fun h => ?_
  refine lasting_bind (lasting_of_same fun g => (address_busy _ m g true).2) fun whom => ?_
  obtain ⟨who, event, args⟩ := whom
  dsimp only
  split
  · exact lasting_of_same fun _ => rfl
  · refine lasting_bind (lasting_modify fun _ => ⟨rfl, rfl⟩) fun _ => ?_
    exact lasting_bind (lasting_invoke _ _ _ _) fun _ => lasting_modify fun _ => ⟨rfl, rfl⟩

/-! ## How tasks end -/

theorem exclusive_of_free {task : Task} {x : Act ρ α} {r : Except Failure α} (hb : h.busy = false)
    (hrun : exclusive task x h = (r, h')) :
    ∃ h₁, x { h with busy := true } = (r, h₁) ∧ h' = { h₁ with busy := false } := by
  rw [exclusive, hb] at hrun
  cases hrun
  exact ⟨_, rfl, rfl⟩

theorem load_lifecycle {source : String} {r : Except Failure Unit} (hb : h.busy = true)
    (hrun : load E (runCallback E disk) source h = (r, h')) :
    h'.lifecycle = if r.isOk then .loaded else h.lifecycle := by
  have hrunning : Lasting (runCallback E disk (E.interpret source)) := lasting_run _
  have hlast := (hrunning h hb).2
  obtain ⟨r', h₁, hr, ⟨v, -, he⟩ | ⟨e, he⟩⟩ := load_cases E (runCallback E disk) source h
  · rw [hrun] at he
    cases he
    rfl
  · rw [hrun] at he
    cases he
    rw [hr] at hlast
    exact hlast

theorem interpret_lifecycle {source : String} {r : Except Failure Unit} (hb : h.busy = false)
    (hrun : interpret E (runCallback E disk) source h = (r, h')) :
    h'.busy = false ∧ h'.lifecycle = if r.isOk then .loaded else h.lifecycle := by
  obtain ⟨h₁, hload, rfl⟩ := exclusive_of_free hb hrun
  have hl := load_lifecycle rfl hload
  exact ⟨rfl, hl⟩

theorem loadFile_lifecycle {path : Path} {r : Except Failure Unit} (hb : h.busy = false)
    (hrun : loadFile E (runCallback E disk) disk path h = (r, h')) :
    h'.busy = false ∧ h'.lifecycle = if r.isOk then .loaded else h.lifecycle := by
  rw [loadFile, run_bind_ok (run_get h)] at hrun
  cases hd : disk.readSource path h.settings.maxSourceSize with
  | error e =>
    rw [hd] at hrun
    cases hrun
    exact ⟨hb, rfl⟩
  | ok source =>
    rw [hd] at hrun
    dsimp only at hrun
    rcases hi : interpret E (runCallback E disk) source h with ⟨r', h₁⟩
    have hl := interpret_lifecycle hb hi
    cases r' with
    | error e =>
      rw [run_bind_error hi] at hrun
      cases hrun
      exact hl
    | ok u =>
      rw [run_bind_ok hi] at hrun
      cases hrun
      exact hl

theorem reload_lifecycle {source : String} {r : Except Failure Unit} (hb : h.busy = false)
    (hrun : reload E (runCallback E disk) source h = (r, h')) :
    h'.busy = false ∧ h'.lifecycle =
      if r.isOk then if h.hot = true ∧ h.lifecycle = .rendered then .rendered else .loaded
      else h.lifecycle := by
  rw [reload, run_bind_ok (run_get h)] at hrun
  cases hh : h.hot with
  | false =>
    rw [hh, if_pos (by decide)] at hrun
    have hl := interpret_lifecycle hb hrun
    simpa using hl
  | true =>
    rw [hh, if_neg (by decide)] at hrun
    obtain ⟨h₁, hdone, rfl⟩ := exclusive_of_free hb hrun
    rw [run_bind_ok (run_get _), run_bind_ok (run_modify _ _)] at hdone
    refine ⟨rfl, ?_⟩
    rcases hload : load E (runCallback E disk) source
      { h with busy := true, lifecycle := .reloading } with ⟨r', h₂⟩
    have hl := load_lifecycle rfl hload
    rw [run_bind_ok (run_attempt hload)] at hdone
    cases r' with
    | error e =>
      -- the lifecycle goes back to what it was
      cases hdone
      rfl
    | ok u =>
      cases hdone
      show (if h.lifecycle = .rendered then Lifecycle.rendered else h₂.lifecycle) = _
      rw [show h₂.lifecycle = .loaded from hl]
      simp [Except.isOk, Except.toBool]

theorem mainView_lifecycle {r : Except Failure Node} (hb : h.busy = false)
    (hrun : mainView E (runCallback E disk) h = (r, h')) :
    h'.busy = false ∧ h'.lifecycle = if r.isOk then h.lifecycle.shown else h.lifecycle := by
  obtain ⟨h₁, hshow, rfl⟩ := exclusive_of_free hb hrun
  refine ⟨rfl, ?_⟩
  -- finding the node keeps the lifecycle, and then it is noted that the node was shown
  have hnode : ∀ x : Act ρ Node, Lasting x →
      (do
        let n ← x
        modify fun h : Host ρ =>
          if h.lifecycle = Lifecycle.loaded then { h with lifecycle := .rendered } else h
        return n) { h with busy := true } = (r, h₁) →
      h₁.lifecycle = if r.isOk then h.lifecycle.shown else h.lifecycle := by
    intro x hx hdone
    obtain ⟨-, hl⟩ := hx { h with busy := true } rfl
    rcases hn : x { h with busy := true } with ⟨r', g⟩
    rw [hn] at hl
    cases r' with
    | error e =>
      rw [run_bind_error hn] at hdone
      cases hdone
      exact hl
    | ok n =>
      rw [run_bind_ok hn, run_bind_ok (run_modify _ g)] at hdone
      cases hdone
      show (if g.lifecycle = Lifecycle.loaded then { g with lifecycle := .rendered } else g).lifecycle
        = h.lifecycle.shown
      rw [show h.lifecycle = g.lifecycle from hl.symm]
      cases hg : g.lifecycle <;> simp [Lifecycle.shown, hg]
  rw [showMain, run_bind_ok (run_get _)] at hshow
  cases hn : h.named? (E.main? h.engine) with
  | none =>
    rw [show Host.named? { h with busy := true } (E.main? h.engine) = none from hn] at hshow
    exact hnode _ (lasting_of_same (asNode_same _)) hshow
  | some w =>
    rw [show Host.named? { h with busy := true } (E.main? h.engine) = some w from hn] at hshow
    exact hnode _ (lasting_widgetView _ _) hshow

theorem send_lifecycle {m : Message} {r : Except Failure Unit} (hb : h.busy = false)
    (hrun : send E (runCallback E disk) m h = (r, h')) :
    h'.busy = false ∧ h'.lifecycle = h.lifecycle := by
  obtain ⟨h₁, hdeliver, rfl⟩ := exclusive_of_free hb hrun
  have hlast : Lasting (deliver E (runCallback E disk) m) := lasting_deliver m
  have hl := (hlast { h with busy := true } rfl).2
  rw [hdeliver] at hl
  exact ⟨rfl, hl⟩

theorem run_bind_pure (x : Act ρ α) (f : α → β) (h : Host ρ) :
    (x >>= fun a => pure (f a)) h = ((x h).1.map f, (x h).2) := by
  rw [run_bind]
  rcases x h with ⟨r, h'⟩
  cases r <;> rfl

theorem isOk_map {ε : Type} (f : α → β) (r : Except ε α) : (r.map f).isOk = r.isOk := by
  cases r <;> rfl

/-- The first of two views decides: the second shows nothing new. -/
theorem sameView_lifecycle {r : Except Failure Bool} (hb : h.busy = false)
    (hrun : sameView E (runCallback E disk) h = (r, h')) :
    h'.busy = false ∧ h'.lifecycle =
      if (mainView E (runCallback E disk) h).1.isOk then h.lifecycle.shown else h.lifecycle := by
  rw [sameView] at hrun
  rcases h₁ : mainView E (runCallback E disk) h with ⟨r₁, g₁⟩
  obtain ⟨hb₁, hl₁⟩ := mainView_lifecycle hb h₁
  cases r₁ with
  | error e =>
    rw [run_bind_error h₁] at hrun
    cases hrun
    exact ⟨hb₁, hl₁⟩
  | ok n =>
    rw [run_bind_ok h₁] at hrun
    rcases h₂ : mainView E (runCallback E disk) g₁ with ⟨r₂, g₂⟩
    obtain ⟨hb₂, hl₂⟩ := mainView_lifecycle hb₁ h₂
    have hl : g₂.lifecycle = h.lifecycle.shown := by
      rw [hl₂, hl₁]
      cases h.lifecycle <;> cases r₂ <;> rfl
    cases r₂ with
    | error e =>
      rw [run_bind_error h₂] at hrun
      cases hrun
      exact ⟨hb₂, hl⟩
    | ok n =>
      rw [run_bind_ok h₂, run_bind_ok (run_get g₂)] at hrun
      revert hrun
      cases g₂.named? (E.main? g₂.engine) <;> cases g₂.result <;>
      · intro hrun
        cases hrun
        exact ⟨hb₂, hl⟩

/-- What is done with a node that was shown changes nothing. -/
theorem render_same (h : Host ρ) :
    (render E (runCallback E disk) h).2 = (mainView E (runCallback E disk) h).2 := by
  rw [render, run_bind]
  rcases mainView E (runCallback E disk) h with ⟨r, h'⟩
  cases r with
  | error e => rfl
  | ok n => exact ofExcept_same _ h'

/-- **A request to a free host leaves it free, and its lifecycle as `lifecycleAfter` has it.** -/
theorem respond_lifecycle (hb : h.busy = false) (r : Request) :
    (E.respond disk r h).2.busy = false ∧
      (E.respond disk r h).2.lifecycle = E.lifecycleAfter disk h r := by
  cases r with
  | interpret source =>
    simp only [Engine.lifecycleAfter, Engine.respond, respond, run_bind_pure, isOk_map]
    exact interpret_lifecycle hb rfl
  | reload source =>
    simp only [Engine.lifecycleAfter, Engine.respond, respond, run_bind_pure, isOk_map]
    exact reload_lifecycle hb rfl
  | loadFile path =>
    simp only [Engine.lifecycleAfter, Engine.respond, respond, run_bind_pure, isOk_map]
    exact loadFile_lifecycle hb rfl
  | mainView =>
    simp only [Engine.lifecycleAfter, Engine.respond, respond, run_bind_pure, isOk_map]
    exact mainView_lifecycle hb rfl
  | sameView =>
    simp only [Engine.lifecycleAfter, Engine.respond, respond, run_bind_pure, isOk_map]
    exact sameView_lifecycle hb rfl
  | render =>
    simp only [Engine.lifecycleAfter, Engine.respond, respond, run_bind_pure, isOk_map]
    rw [render_same]
    exact mainView_lifecycle hb rfl
  | send m =>
    simp only [Engine.lifecycleAfter, Engine.respond, respond, run_bind_pure]
    exact send_lifecycle hb rfl
  | getField name field =>
    simp only [Engine.lifecycleAfter, Engine.respond, respond, run_bind_pure]
    rw [getField_same]
    exact ⟨hb, rfl⟩
  | setField name field v =>
    simp only [Engine.lifecycleAfter, Engine.respond, respond, run_bind_pure]
    rcases setField_cases name field v h with ⟨e, he⟩ | ⟨s, -, -, he⟩ <;>
    · rw [he]
      exact ⟨hb, rfl⟩
  | widget name =>
    simp only [Engine.lifecycleAfter, Engine.respond, respond, run_bind_pure]
    rw [widget_same]
    exact ⟨hb, rfl⟩
  | setHot on => exact ⟨hb, rfl⟩

end Act

/-! ## Histories -/

/-- The requests that a host has answered, first to last, and the host after them. Between requests
any file may change. -/
inductive Engine.History (E : Engine ρ) :
    List (Request × Except Failure Answer) → Host ρ → Prop where
  | new (state : ρ) (settings : Settings) (policy : Option Policy) :
      History E [] (Host.new state settings policy)
  | request (disk : Disk) {xs : List (Request × Except Failure Answer)} {h h' : Host ρ}
      {r : Request} {a : Except Failure Answer} : History E xs h →
      E.respond disk r h = (a, h') → History E (xs ++ [(r, a)]) h'

/-- Whether a request puts a program in place of another and keeps nothing of it. -/
def Engine.Restarts (E : Engine ρ) (disk : Disk) (h : Host ρ) (r : Request) : Prop :=
  r.Replaces ∧ (E.respond disk r h).1.isOk = true ∧
    ¬ (h.hot = true ∧ ∃ source, r = .reload source)

/-- Whether a request comes to see a main view. -/
def Engine.Sees (E : Engine ρ) (disk : Disk) (h : Host ρ) (r : Request) : Prop :=
  r.Shows ∧ (E.respond disk .mainView h).1.isOk = true

section

variable {h : Host ρ} {r : Request}

theorem Request.replaces_iff : r.Replaces ↔
    (∃ source, r = .interpret source) ∨ (∃ source, r = .reload source) ∨
      ∃ path, r = .loadFile path := by
  constructor
  · rintro (_ | _ | _) <;> simp
  · rintro (⟨_, rfl⟩ | ⟨_, rfl⟩ | ⟨_, rfl⟩) <;> constructor

theorem Request.shows_iff : r.Shows ↔ r = .mainView ∨ r = .sameView ∨ r = .render := by
  constructor
  · rintro (_ | _ | _) <;> simp
  · rintro (rfl | rfl | rfl) <;> constructor

theorem Lifecycle.shown_eq_rendered {l : Lifecycle} :
    l.shown = .rendered ↔ l = .rendered ∨ l = .loaded := by
  cases l <;> simp [Lifecycle.shown]

theorem lifecycleAfter_ne_reloading (hl : h.lifecycle ≠ .reloading) :
    E.lifecycleAfter disk h r ≠ .reloading := by
  have hs : h.lifecycle.shown ≠ .reloading := by
    cases hh : h.lifecycle <;> simp_all [Lifecycle.shown]
  cases r <;> simp only [Engine.lifecycleAfter] <;> repeat' split
  all_goals first | exact hl | exact hs | exact nofun

theorem lifecycleAfter_eq_uninitialized :
    E.lifecycleAfter disk h r = .uninitialized ↔
      h.lifecycle = .uninitialized ∧ ¬ (r.Replaces ∧ (E.respond disk r h).1.isOk = true) := by
  have hs : h.lifecycle.shown = .uninitialized ↔ h.lifecycle = .uninitialized := by
    cases h.lifecycle <;> simp [Lifecycle.shown]
  rw [Request.replaces_iff]
  cases r <;> simp [Engine.lifecycleAfter] <;> grind

/-- A host shows something from the moment that a main view was seen to the next fresh start. -/
theorem lifecycleAfter_eq_rendered :
    E.lifecycleAfter disk h r = .rendered ↔
      (h.lifecycle = .rendered ∧ ¬ E.Restarts disk h r) ∨
      (h.lifecycle = .loaded ∧ E.Sees disk h r) := by
  rw [Engine.Restarts, Engine.Sees, Request.replaces_iff, Request.shows_iff]
  have hs := Lifecycle.shown_eq_rendered (l := h.lifecycle)
  cases r <;> simp [Engine.lifecycleAfter] <;> grind

end

/-- A view is run for a host that has not come further; the second of two only if the first was
seen. -/
theorem works_lifecycle {h : Host ρ} {r : Request} {w : Work ρ} (hb : h.busy = false)
    (hw : E.Works disk h r w) : w.host.busy = true ∧
      (w.host.lifecycle = .rendered →
        h.lifecycle = .rendered ∨ (h.lifecycle = .loaded ∧ E.Sees disk h r)) := by
  cases hw with
  | interpret | loadFile | plainReload | view | handler => exact ⟨rfl, fun hl => Or.inl hl⟩
  | hotReload => exact ⟨rfl, nofun⟩
  | @again h h₁ n w hfirst hw =>
    cases hw with
    | view _ _ _ =>
      refine ⟨rfl, fun hl => ?_⟩
      obtain ⟨-, hshown⟩ := Act.mainView_lifecycle hb hfirst
      have hsees : E.Sees disk h .sameView := by
        refine ⟨.sameView, ?_⟩
        rw [Engine.respond, Act.respond, Act.run_bind_pure, hfirst]
        rfl
      rw [show h₁.lifecycle = h.lifecycle.shown from hshown] at hl
      exact (Lifecycle.shown_eq_rendered.mp hl).imp_right fun hl => ⟨hl, hsees⟩

/-- Between requests a host is free, and its lifecycle says whether it was ever given a program. -/
theorem history_lifecycle {xs : List (Request × Except Failure Answer)} {h : Host ρ}
    (hh : E.History xs h) : h.busy = false ∧ h.lifecycle ≠ .reloading ∧
      (h.lifecycle = .uninitialized ↔ ∀ r a, (r, .ok a) ∈ xs → ¬ r.Replaces) := by
  induction hh with
  | new state settings policy => exact ⟨rfl, nofun, by simp [Host.new]⟩
  | @request disk xs h h' r a hh hr ih =>
    obtain ⟨hb, hl, hu⟩ := ih
    have hafter : (E.respond disk r h).2.busy = false ∧
        (E.respond disk r h).2.lifecycle = E.lifecycleAfter disk h r := Act.respond_lifecycle hb r
    rw [hr] at hafter
    obtain ⟨hb', hl'⟩ := hafter
    refine ⟨hb', ?_, ?_⟩
    · rw [show h'.lifecycle = _ from hl']
      exact lifecycleAfter_ne_reloading hl
    · rw [show h'.lifecycle = _ from hl', lifecycleAfter_eq_uninitialized, hu, hr]
      constructor
      · rintro ⟨hbefore, hnow⟩ r' a' hmem
        rcases List.mem_append.mp hmem with hmem | hmem
        · exact hbefore r' a' hmem
        · cases List.mem_singleton.mp hmem
          exact fun hrep => hnow ⟨hrep, rfl⟩
      · intro hall
        refine ⟨fun r' a' hmem => hall r' a' (List.mem_append_left _ hmem), ?_⟩
        rintro ⟨hrep, hok⟩
        cases a with
        | error e => cases hok
        | ok a => exact hall r a (List.mem_append_right _ (List.mem_singleton.mpr rfl)) hrep

/-- **A host does one task at a time, and its lifecycle tells how far it has come**, whatever its
engine does and asks for, and however its requests end. -/
theorem one_task_at_a_time {xs : List (Request × Except Failure Answer)} {h : Host ρ}
    (hh : E.History xs h) :
    -- between requests
    h.busy = false ∧ h.lifecycle ≠ .reloading ∧
    (h.lifecycle = .uninitialized ↔ ∀ r a, (r, .ok a) ∈ xs → ¬ r.Replaces) ∧
    ∀ (disk : Disk) (r : Request),
      -- the work that is done for the next one is listed,
      (∀ run, (∀ w, E.Works disk h r w → run w.todo w.host = Act.runCallback E disk w.todo w.host) →
        Act.respond E run disk r h = E.respond disk r h) ∧
      -- and every task that the engine asks for at any time of it is refused and changes nothing
      (∀ w w', E.Works disk h r w → Work.Steps E disk w w' →
        w'.host.busy = true ∧
        (w'.host.lifecycle = .rendered →
          h.lifecycle = .rendered ∨ (h.lifecycle = .loaded ∧ E.Sees disk h r)) ∧
        ∀ q next t, w'.todo = .ask q next → q.task? disk w'.host = some t →
          ∀ w'', Work.Step E disk w' w'' ↔
            w'' = ⟨next (.error (.refused (.busy t))), w'.host⟩) ∧
      -- after the request
      ((E.respond disk r h).2.lifecycle = .rendered ↔
        (h.lifecycle = .rendered ∧ ¬ E.Restarts disk h r) ∨
        (h.lifecycle = .loaded ∧ E.Sees disk h r)) := by
  obtain ⟨hb, hl, hu⟩ := history_lifecycle hh
  refine ⟨hb, hl, hu, fun disk r => ⟨fun run hrun => Act.respond_congr hrun, ?_, ?_⟩⟩
  · intro w w' hw hs
    obtain ⟨hbw, hlw⟩ := works_lifecycle hb hw
    obtain ⟨hbusy, hsame⟩ := steps_lifecycle hbw hs
    refine ⟨hbusy, fun hr => hlw (hsame ▸ hr), fun q next t hask ht w'' => ?_⟩
    obtain ⟨todo, g⟩ := w'
    obtain rfl : todo = .ask q next := hask
    have hstep : Work.Step E disk ⟨.ask q next, g⟩ ⟨next (.error (.refused (.busy t))), g⟩ :=
      .ask (Act.respond_task_of_busy hbusy ht)
    constructor
    · exact fun hstep' => Work.Step.unique hstep' hstep
    · rintro rfl
      exact hstep
  · rw [(Act.respond_lifecycle hb r).2]
    exact lifecycleAfter_eq_rendered

/-- Whenever it is to run a program, it first asks for another one and for the main view. -/
def pushyEngine : Engine Unit where
  interpret _ := .ask (.interpret "") fun _ => .ask .mainView fun _ => .done (.ok .nil)
  invoke _ _ _ _ := .done (.ok .nil)
  defaults _ := [("W", [])]
  main? _ := some "W"

/-- A host after that engine ran a program for it. -/
def pushedHost : Host Unit :=
  (pushyEngine.respond {} (.interpret "") (Host.new () {} none)).2

/-- During a reload the main view is refused too, after a program was. -/
theorem pushy_refused : pushyEngine.History [(.interpret "", .ok .done)] pushedHost ∧
    pushedHost.busy = false ∧ pushedHost.lifecycle ≠ .uninitialized ∧
    ∃ w, Work.Steps pushyEngine {}
        ⟨pushyEngine.interpret "", { pushedHost with busy := true, lifecycle := .reloading }⟩ w ∧
      w.todo = .ask .mainView (fun _ => .done (.ok .nil)) ∧
      ∀ w', Work.Step pushyEngine {} w w' ↔ w' = ⟨.done (.ok .nil), w.host⟩ := by
  have hh : pushyEngine.History [(.interpret "", .ok .done)] pushedHost :=
    .request {} (.new () {} none) rfl
  obtain ⟨hb, -, hu, hnext⟩ := one_task_at_a_time hh
  obtain ⟨-, hwork, -⟩ := hnext {} (.reload "")
  have hsteps : Work.Steps pushyEngine {}
      ⟨pushyEngine.interpret "", { pushedHost with busy := true, lifecycle := .reloading }⟩
      ⟨.ask .mainView fun _ => .done (.ok .nil),
        { pushedHost with busy := true, lifecycle := .reloading }⟩ :=
    .single (.ask rfl)
  obtain ⟨-, -, hask⟩ := hwork _ _ (.hotReload rfl) hsteps
  have hgiven : pushedHost.lifecycle ≠ .uninitialized := fun he =>
    hu.mp he _ _ (List.mem_singleton.mpr rfl) (.interpret "")
  exact ⟨hh, hb, hgiven, _, hsteps, rfl, hask _ _ _ rfl rfl⟩

end Widgetry
