import Mathlib.Logic.Relation
import Widgetry.Proofs.Host.Requests
import Widgetry.Proofs.Host.Widgets
import Widgetry.Proofs.Language.Loading

/-!
# What can become of a host

Whatever is requested of a host, its engine, its tables and its widgets change in one of a few ways.

> `respond_settled`: each request has one of the results that `Outcome` lists, and a host that was
> free is free afterwards;
> `reachable_sound`: in every host that requests can lead to, widgets have names and tables of their
> own, and no field stands twice in a table.

Invariants of hosts are shown outcome by outcome, and then hold after every run of requests.
-/

namespace Widgetry

/-- What a host needs to show its widgets and to run their methods. -/
structure Host.Core where
  engine : Interpreter
  store : Store
  widgets : Widgets

def Host.core (h : Host Interpreter) : Host.Core := ⟨h.engine, h.store, h.widgets⟩

/-- What a request can make of a host. -/
inductive Host.Outcome (h : Host Interpreter) : Host.Core → Prop where
  /-- nothing was run, or a program that failed -/
  | kept {i : Interpreter} : i.program = h.engine.program → Outcome h ⟨i, h.store, h.widgets⟩
  | loaded {source : String} {v : Value} {i : Interpreter} :
      h.engine.interpret source none = (.ok v, i) → Outcome h (h.loaded v i).core
  | reloaded {source : String} {v : Value} {i : Interpreter} :
      h.engine.interpret source none = (.ok v, i) → Outcome h (h.reloaded v i).core
  /-- a view failed, or did not give a node -/
  | viewFailed {name : String} {s : WidgetState} {r : Except Fault Value} {i : Interpreter}
      {σ : Store} : h.widgets.get? name = some s → s.Stale →
      h.engine.invoke h.store name "view" [] s.table = (r, i, σ) → Outcome h ⟨i, σ, h.widgets⟩
  | viewed {name : String} {s : WidgetState} {v : Value} {n : Node} {i : Interpreter} {σ : Store} :
      h.widgets.get? name = some s → s.Stale →
      h.engine.invoke h.store name "view" [] s.table = (.ok v, i, σ) →
      h.policy.nodeOf? v = some n → Outcome h (h.viewed i σ name n).core
  | handlerFailed {name : String} {s : WidgetState} {args : List Value} {f : Fault}
      {i : Interpreter} {σ : Store} : h.widgets.get? name = some s →
      h.engine.invoke (h.store.copyTable s.table).2 name "on" args (h.store.copyTable s.table).1
        = (.error f, i, σ) → Outcome h ⟨i, σ, h.widgets⟩
  | handled {name : String} {s : WidgetState} {args : List Value} {v : Value} {i : Interpreter}
      {σ : Store} : h.widgets.get? name = some s →
      h.engine.invoke (h.store.copyTable s.table).2 name "on" args (h.store.copyTable s.table).1
        = (.ok v, i, σ) → Outcome h (h.handled i σ name (h.store.copyTable s.table).1).core
  | written {name field : String} {s : WidgetState} {v : Value} : h.widgets.get? name = some s →
      (h.store.get s.table).has field = true → Outcome h (h.written name s field v).core

namespace Act

variable {α β : Type} (disk : Disk) {h h' : Host Interpreter}

/-- Whether something had an outcome, left the host free and did not change its policy. -/
structure Settled (h h' : Host Interpreter) : Prop where
  outcome : h.Outcome h'.core
  free : h'.busy = false
  policy : h'.policy = h.policy

theorem settled_self (hb : h.busy = false) : Settled h h := ⟨.kept rfl, hb, rfl⟩

theorem core_shown (h : Host Interpreter) : h.shown.core = h.core := by
  unfold Host.shown
  split <;> rfl

theorem policy_shown (h : Host Interpreter) : h.shown.policy = h.policy := by
  unfold Host.shown
  split <;> rfl

theorem Settled.shown (hs : Settled h h') : Settled h h'.shown :=
  ⟨(core_shown h').symm ▸ hs.outcome, (busy_shown h').trans hs.free,
    (policy_shown h').trans hs.policy⟩

theorem settled_viewed {r : Except Failure Node} (hb : h.busy = false) (hv : Viewed h r h') :
    Settled h h' := by
  cases hv with
  | noNode _ _ => exact settled_self hb
  | result _ _ => exact (settled_self hb).shown
  | cached _ _ _ => exact (settled_self hb).shown
  | failed hn hc hi => exact ⟨.viewFailed (mem_named? hn).2 hc hi, hb, rfl⟩
  | refused e hn hc hi => exact ⟨.viewFailed (mem_named? hn).2 hc hi, hb, rfl⟩
  | run hn hc hi hv => exact Settled.shown ⟨.viewed (mem_named? hn).2 hc hi hv, hb, rfl⟩

theorem settled_sent {m : Message} {r : Except Failure Unit} (hb : h.busy = false)
    (hs : Sent h m r h') : Settled h h' := by
  cases hs with
  | refused e => exact settled_self hb
  | failed _ hg hi => exact ⟨.handlerFailed hg hi, hb, rfl⟩
  | handled _ hg hi => exact ⟨.handled hg hi, hb, rfl⟩

theorem settled_interpret (hb : h.busy = false) (source : String) :
    Settled h (interpret Interpreter.engine (runCallback Interpreter.engine disk) source h).2 := by
  rcases hi : h.engine.interpret source none with ⟨r, i⟩
  cases r with
  | error f =>
    rw [interpret_error disk hb hi]
    exact ⟨.kept (interpret_error_program hi), hb, rfl⟩
  | ok v =>
    rw [interpret_ok disk hb hi]
    exact ⟨.loaded hi, hb, rfl⟩

/-- Something that is followed by what changes nothing. -/
theorem settled_bind {h₁ : Host Interpreter} {x : Act Interpreter α} {f : α → Act Interpreter β}
    (hx : Settled h (x h₁).2) (hf : ∀ a, Reads (f a)) : Settled h ((x >>= f) h₁).2 := by
  rw [run_bind]
  rcases hr : x h₁ with ⟨r, h'⟩
  rw [hr] at hx
  cases r with
  | error e => exact hx
  | ok a => exact (hf a h').symm ▸ hx

theorem settled_reload (hb : h.busy = false) (source : String) :
    Settled h (respondWith disk (.reload source) h).2 := by
  cases hh : h.hot with
  | false =>
    rw [reload_cold disk hh]
    exact settled_bind (settled_interpret disk hb source) fun _ => .pure _
  | true =>
    rcases hi : h.engine.interpret source none with ⟨r, i⟩
    cases r with
    | error f =>
      rw [reload_error disk hb hh hi]
      exact ⟨.kept (interpret_error_program hi), hb, rfl⟩
    | ok v =>
      rw [reload_ok disk hb hh hi]
      exact ⟨.reloaded hi, hb, rfl⟩

theorem settled_mainView (hb : h.busy = false) :
    Settled h (mainView Interpreter.engine (runCallback Interpreter.engine disk) h).2 := by
  obtain ⟨r, h', hrun, hv⟩ := mainView_viewed disk hb
  rw [hrun]
  exact settled_viewed hb hv

theorem engine_shown (h : Host Interpreter) : h.shown.engine = h.engine :=
  congrArg Host.Core.engine (core_shown h)

theorem store_shown (h : Host Interpreter) : h.shown.store = h.store :=
  congrArg Host.Core.store (core_shown h)

theorem widgets_shown (h : Host Interpreter) : h.shown.widgets = h.widgets :=
  congrArg Host.Core.widgets (core_shown h)

theorem named?_shown (h : Host Interpreter) (name : Option String) :
    h.shown.named? name = h.named? name := by
  cases name with
  | none => rfl
  | some name => rw [Host.named?, widgets_shown, Host.named?]

/-- A main view that was shown is clean. -/
theorem clean_of_viewed {n : Node} (hv : Viewed h (.ok n) h') {name : String} {s : WidgetState}
    (hn : h'.named? h'.engine.mainWidget? = some (name, s)) : ¬ s.Stale := by
  cases hv with
  | result hnone _ =>
    rw [named?_shown, engine_shown] at hn
    cases hnone.symm.trans hn
  | cached hsome hc hd =>
    rw [named?_shown, engine_shown] at hn
    cases hsome.symm.trans hn
    simp [WidgetState.Stale, hc, hd]
  | @run name' s' v n i σ hsome _ hi _ =>
    rw [named?_shown, engine_shown] at hn
    -- the view may have changed variables, but not which widget is the main one
    have hmain := mainWidget?_eq (invoke_footprint hi).1
    obtain ⟨hto, hs'⟩ := mem_named? hsome
    obtain ⟨hto', hs⟩ := mem_named? hn
    have hname : name' = name := by
      rw [show (h.viewed i σ name' n).engine = i from rfl, hmain, hto] at hto'
      exact Option.some.inj hto'
    rw [← hname, Host.widgets_viewed, Widgets.get?_modify, if_pos rfl, hs'] at hs
    cases hs
    simp [WidgetState.Stale]

/-- A main view that was shown is shown again without anything being run. -/
theorem mainView_again {n : Node} (hv : Viewed h (.ok n) h') (hb : h'.busy = false) :
    (mainView Interpreter.engine (runCallback Interpreter.engine disk) h').2 = h' := by
  have hshown : h'.shown = h' := by
    cases hv <;> exact shown_shown _
  obtain ⟨r, h'', hrun, hv'⟩ := mainView_viewed disk hb
  rw [hrun]
  cases hv' with
  | noNode _ _ => rfl
  | result _ _ => exact hshown
  | cached _ _ _ => exact hshown
  | failed hn hc _ => exact absurd hc (clean_of_viewed hv hn)
  | refused e hn hc _ => exact absurd hc (clean_of_viewed hv hn)
  | run hn hc _ _ => exact absurd hc (clean_of_viewed hv hn)

theorem settled_sameView (hb : h.busy = false) :
    Settled h (sameView Interpreter.engine (runCallback Interpreter.engine disk) h).2 := by
  obtain ⟨r, h', hrun, hv⟩ := mainView_viewed disk hb
  have hs := settled_viewed hb hv
  rw [sameView, run_bind, hrun]
  cases r with
  | error e => exact hs
  | ok n =>
    have hagain := mainView_again disk hv hs.free
    have hs' : Settled h
        (mainView Interpreter.engine (runCallback Interpreter.engine disk) h').2 := by
      rw [hagain]
      exact hs
    refine settled_bind hs' fun _ => .bind .get fun _ => ?_
    split <;> exact .pure _

theorem settled_render (hb : h.busy = false) :
    Settled h (render Interpreter.engine (runCallback Interpreter.engine disk) h).2 :=
  settled_bind (settled_mainView disk hb) fun _ => .bind .get fun _ => .ofExcept _

theorem settled_loadFile (hb : h.busy = false) (path : Path) :
    Settled h
      (loadFile Interpreter.engine (runCallback Interpreter.engine disk) disk path h).2 := by
  rw [loadFile, run_bind_ok (run_get h)]
  cases disk.readSource path h.settings.maxSourceSize with
  | error e => exact settled_self hb
  | ok source =>
    have hs := settled_interpret disk hb source
    show Settled h ((interpret _ _ source >>= _) h).2
    rw [run_bind]
    rcases hr : interpret Interpreter.engine (runCallback Interpreter.engine disk) source h with
      ⟨r, h'⟩
    rw [hr] at hs
    cases r with
    | error e => exact hs
    | ok _ => exact ⟨hs.outcome, hs.free, hs.policy⟩

theorem settled_setField (hb : h.busy = false) (name field : String) (v : Value) :
    Settled h (setField name field v h).2 := by
  cases hs : h.widgets.get? name with
  | none =>
    have hw : widget name h = (.error (.refused (.noWidget name)), h) := by
      rw [widget, run_bind_ok (run_get h), hs]
      rfl
    rw [setField, run_bind_error hw]
    exact settled_self hb
  | some s =>
    rw [setField, run_bind_ok (run_widget hs)]
    have hfield := Host.field?_of_get? hs field
    cases hf : (h.store.get s.table).get? field with
    | none =>
      have hg : getField name field h = (.error (.refused (.noField name field)), h) := by
        rw [run_getField, hfield, hf, hs]
      rw [run_bind_error hg]
      exact settled_self hb
    | some current =>
      have hg : getField name field h = (.ok current, h) := by
        rw [run_getField, hfield, hf]
      rw [run_bind_ok hg, run_bind]
      rcases hc : checkType current v h with ⟨r, h'⟩
      obtain rfl := (Reads.checkType current v).eq hc
      cases r with
      | error e => exact settled_self hb
      | ok _ => exact ⟨.written hs (by simp [Fields.has, hf]), hb, rfl⟩

/-- **Every request has one of the outcomes**, and leaves a host that was free free. -/
theorem respond_settled (hb : h.busy = false) (r : Request) :
    Settled h (respondWith disk r h).2 := by
  cases r with
  | interpret source => exact settled_bind (settled_interpret disk hb source) fun _ => .pure _
  | reload source => exact settled_reload disk hb source
  | loadFile path => exact settled_bind (settled_loadFile disk hb path) fun _ => .pure _
  | mainView => exact settled_bind (settled_mainView disk hb) fun _ => .pure _
  | sameView => exact settled_bind (settled_sameView disk hb) fun _ => .pure _
  | render => exact settled_bind (settled_render disk hb) fun _ => .pure _
  | send m =>
    obtain ⟨r, h', hrun, hs⟩ := send_sent disk hb m
    refine settled_bind ?_ fun _ => .pure _
    rw [hrun]
    exact settled_sent hb hs
  | getField name field =>
    refine settled_bind ?_ fun _ => .pure _
    rw [Reads.getField name field h]
    exact settled_self hb
  | setField name field v => exact settled_bind (settled_setField hb name field v) fun _ => .pure _
  | widget name =>
    refine settled_bind ?_ fun _ => .pure _
    rw [Reads.widget name h]
    exact settled_self hb
  | setHot on => exact ⟨.kept rfl, hb, rfl⟩

end Act

/-! ## What every host keeps -/

/-- Whether widgets have names and tables of their own, and fields names of their own. -/
structure Host.Core.Sound (c : Host.Core) : Prop where
  widgets : Widgets.Sound c.store c.widgets
  fields : ∀ t, (c.store.get t).names.Nodup

section Soundness

variable {h : Host Interpreter} {source : String} {v : Value} {i : Interpreter}

/-- The defaults of a program that was taken. -/
theorem defaults_nodup (hi : h.engine.interpret source none = (.ok v, i)) :
    (i.defaults.map (·.1)).Nodup ∧
      ∀ widget fs, i.defaults.lookup widget = some fs → fs.names.Nodup := by
  obtain ⟨code, p, m, -, -, hp, -, hw⟩ := interpret_wellFormed hi
  have hd : i.defaults = p.defaults := by
    rw [Interpreter.defaults, hp]
    rfl
  rw [hd]
  exact ⟨hw.nodup, fun widget fs hl => (hw.fields widget fs hl).1⟩

theorem loaded_made (h : Host Interpreter) (v : Value) (i : Interpreter) :
    Widgets.Made h.store i.defaults (h.loaded v i).widgets (h.loaded v i).store :=
  Widgets.ofDefaults_made i.defaults h.store

theorem loaded_sound (hs : h.core.Sound) (hi : h.engine.interpret source none = (.ok v, i)) :
    (h.loaded v i).core.Sound := by
  obtain ⟨hd, hf⟩ := defaults_nodup hi
  have hmade := loaded_made h v i
  exact ⟨hmade.sound hd, hmade.fields_nodup hd hf hs.fields⟩

/-- What a hot reload makes of the tables of the new widgets. -/
theorem reloaded_migrated (hs : h.core.Sound) (v : Value) (i : Interpreter) :
    Widgets.Migrated h.widgets (h.loaded v i).widgets (h.loaded v i).store
      (h.reloaded v i).widgets (h.reloaded v i).store := by
  have hmade := loaded_made h v i
  refine Widgets.migrate_migrated _ _ _ hmade.tables (fun w hw => (hmade.fresh w hw).2)
    hmade.state ?_
  -- the tables of the new widgets are new, and those of the old ones are not
  intro n s hg w hw he
  exact (hmade.fresh w hw).1 (he ▸ hs.widgets.has hg)

theorem reloaded_sound (hs : h.core.Sound) (hi : h.engine.interpret source none = (.ok v, i)) :
    (h.reloaded v i).core.Sound := by
  have hl := loaded_sound hs hi
  have hm := reloaded_migrated hs v i
  exact ⟨hm.sound hl.widgets, hm.fields_nodup hl.fields⟩

/-- Running a method keeps tables as good as they are. -/
theorem footprint_sound {σ σ' : Store} {t : TableId} (hf : σ.Footprint t σ') {ws : Widgets}
    (hw : Widgets.Sound σ ws) (hn : ∀ t, (σ.get t).names.Nodup) :
    Widgets.Sound σ' ws ∧ ∀ t, (σ'.get t).names.Nodup := by
  refine ⟨hw.mono (Nat.le_of_eq hf.size.symm), fun u => ?_⟩
  by_cases hu : u = t
  · rw [hu, hf.names]
    exact hn t
  · rw [hf.others u hu]
    exact hn u

theorem copy_sound {σ : Store} (t : TableId) {ws : Widgets} (hw : Widgets.Sound σ ws)
    (hn : ∀ t, (σ.get t).names.Nodup) : Widgets.Sound (σ.copyTable t).2 ws ∧
      ∀ u, ((σ.copyTable t).2.get u).names.Nodup := by
  refine ⟨hw.mono Store.keeps_copyTable.size, fun u => ?_⟩
  obtain ⟨w, he⟩ := Store.names_get_copyTable (σ := σ) (t := t) u
  rw [he]
  exact hn w

/-- **Every outcome of a sound host is sound.** -/
theorem outcome_sound (hs : h.core.Sound) {c : Host.Core} (ho : h.Outcome c) : c.Sound := by
  have hw : Widgets.Sound h.store h.widgets := hs.widgets
  have hn : ∀ t, (h.store.get t).names.Nodup := hs.fields
  cases ho with
  | kept _ => exact ⟨hw, hn⟩
  | loaded hi => exact loaded_sound hs hi
  | reloaded hi => exact reloaded_sound hs hi
  | viewFailed hg _ hi =>
    obtain ⟨hw', hn'⟩ := footprint_sound (invoke_footprint hi).2 hw hn
    exact ⟨hw', hn'⟩
  | @viewed name _ _ n i σ hg _ hi hv =>
    obtain ⟨hw', hn'⟩ := footprint_sound (invoke_footprint hi).2 hw hn
    have hmod : Widgets.Sound σ (h.viewed i σ name n).widgets := by
      rw [Host.widgets_viewed]
      exact hw'.restate fun _ => rfl
    exact ⟨hmod, hn'⟩
  | @handlerFailed _ s _ _ _ _ hg hi =>
    obtain ⟨hwc, hnc⟩ := copy_sound s.table hw hn
    obtain ⟨hw', hn'⟩ := footprint_sound (invoke_footprint hi).2 hwc hnc
    exact ⟨hw', hn'⟩
  | @handled name s _ _ _ σ hg hi =>
    obtain ⟨hwc, hnc⟩ := copy_sound s.table hw hn
    have hf := (invoke_footprint hi).2
    obtain ⟨hw', hn'⟩ := footprint_sound hf hwc hnc
    have hmod : Widgets.Sound σ (h.widgets.modify name fun s₀ =>
        { s₀ with table := (h.store.copyTable s.table).1, dirty := true }) := by
      -- the copy is a new table, which no other widget can have
      refine hw'.modify fun s₀ _ => ⟨?_, fun n' s' _ hg' he => ?_⟩
      · show _ < _
        rw [hf.size]
        exact Store.has_copyTable
      · have hhas := hw.has hg'
        rw [he] at hhas
        exact (Store.not_has_copyTable (t := s.table)) hhas
    exact ⟨hmod, hn'⟩
  | @written name field s v hg hf =>
    have hsize : (h.written name s field v).store.tables.size = h.store.tables.size :=
      Store.size_set _
    have hw' := hw.mono (Nat.le_of_eq hsize.symm)
    have hmod : Widgets.Sound (h.written name s field v).store (h.written name s field v).widgets := by
      rw [Host.widgets_written]
      exact hw'.restate fun _ => rfl
    refine ⟨hmod, fun t => ?_⟩
    · show ((h.store.set s.table _).get t).names.Nodup
      by_cases ht : t = s.table
      · rw [ht, Store.get_set_self (hw.has hg), Fields.names_put_of_has hf]
        exact hn _
      · rw [Store.get_set_of_ne ht]
        exact hn t

end Soundness

/-! ## Runs -/

/-- What one request makes of a host. -/
def Host.Step (h h' : Host Interpreter) : Prop :=
  ∃ disk r, h' = (Act.respondWith disk r h).2

/-- What requests, one after the other, make of a host. -/
abbrev Host.Steps : Host Interpreter → Host Interpreter → Prop :=
  Relation.ReflTransGen Host.Step

/-- Whether requests lead to a host from one without a program. -/
def Host.Reachable (h : Host Interpreter) : Prop :=
  ∃ i settings policy, Host.Steps (Host.new i settings policy) h

/-- What all hosts are that requests lead to. -/
structure Host.Sound (h : Host Interpreter) : Prop where
  free : h.busy = false
  core : h.core.Sound

theorem new_sound (i : Interpreter) (settings : Settings) (policy : Option Policy) :
    (Host.new i settings policy).Sound where
  free := rfl
  core := by
    refine ⟨⟨List.nodup_nil, ?_, ?_⟩, fun t => ?_⟩
    · exact fun h => nomatch h
    · exact fun h => nomatch h
    rw [Store.get_of_not_has (Nat.not_lt_zero _)]
    exact List.nodup_nil

theorem step_sound {h h' : Host Interpreter} (hs : h.Sound) (hstep : h.Step h') : h'.Sound := by
  obtain ⟨disk, r, rfl⟩ := hstep
  have hr := Act.respond_settled disk hs.free r
  exact ⟨hr.free, outcome_sound hs.core hr.outcome⟩

theorem steps_sound {h h' : Host Interpreter} (hs : h.Sound) (hsteps : h.Steps h') : h'.Sound := by
  induction hsteps with
  | refl => exact hs
  | tail _ hstep ih => exact step_sound ih hstep

/-- **Every host that requests lead to is sound.** -/
theorem reachable_sound {h : Host Interpreter} (hr : h.Reachable) : h.Sound := by
  obtain ⟨i, settings, policy, hsteps⟩ := hr
  exact steps_sound (new_sound i settings policy) hsteps

/-- A host that was given the text of a program to load. -/
def Host.ofSource (source : String) : Host Interpreter :=
  (Act.respondWith {} (.interpret source) (Host.new {} {} none)).2

theorem reachable_ofSource (source : String) : (Host.ofSource source).Reachable :=
  ⟨{}, {}, none, .tail .refl ⟨{}, _, rfl⟩⟩

end Widgetry
