import Widgetry.Host.Basic
import Widgetry.Proofs.Language.Footprint

/-!
# What a host does with each request

A host that is not busy and has the interpreter for its engine answers each request in one of a few
ways, and the lemmas here say which: `reload_ok` and `reload_error` for a hot reload, `Sent` for a
message, `Viewed` for the main view. Proofs about hosts use these and never look into the requests
again.
-/

namespace Widgetry

/-- The error that a host makes of what went wrong in a program that it loads. -/
def refusal : Fault → HostError
  | .source e => .program e
  | .number e => .unknown e.message

namespace Host

variable (h : Host Interpreter)

/-- The host after a program was loaded. -/
def loaded (v : Value) (i : Interpreter) : Host Interpreter :=
  { h with
    engine := i, result := v, lifecycle := .loaded
    widgets := (Widgets.ofDefaults h.store i.defaults).1
    store := (Widgets.ofDefaults h.store i.defaults).2 }

/-- The host after its program was replaced while its fields were kept. -/
def reloaded (v : Value) (i : Interpreter) : Host Interpreter :=
  { h.loaded v i with
    widgets := (Widgets.migrate (h.loaded v i).store h.widgets (h.loaded v i).widgets).1
    store := (Widgets.migrate (h.loaded v i).store h.widgets (h.loaded v i).widgets).2
    lifecycle := if h.lifecycle = .rendered then .rendered else .loaded }

/-- The host after something was shown. -/
def shown : Host Interpreter :=
  if h.lifecycle = .loaded then { h with lifecycle := .rendered } else h

/-- The host after the interpreter ran a method, however that ended. -/
def ran (i : Interpreter) (σ : Store) : Host Interpreter := { h with engine := i, store := σ }

/-- The host after a view was run for a widget. -/
def viewed (i : Interpreter) (σ : Store) (name : String) (n : Node) : Host Interpreter :=
  { h.ran i σ with
    widgets := h.widgets.modify name fun s => { s with cached := some n, dirty := false } }

/-- The host after a handler succeeded on new fields of a widget. -/
def handled (i : Interpreter) (σ : Store) (name : String) (t : TableId) : Host Interpreter :=
  { h.ran i σ with
    widgets := h.widgets.modify name fun s => { s with table := t, dirty := true } }

/-- The host after a field was written. -/
def written (name : String) (s : WidgetState) (field : String) (v : Value) : Host Interpreter :=
  { h with
    store := h.store.set s.table ((h.store.get s.table).put field v)
    widgets := h.widgets.modify name fun s => { s with dirty := true } }

theorem widgets_viewed (i : Interpreter) (σ : Store) (name : String) (n : Node) :
    (h.viewed i σ name n).widgets
      = h.widgets.modify name fun s => { s with cached := some n, dirty := false } := rfl

theorem widgets_handled (i : Interpreter) (σ : Store) (name : String) (t : TableId) :
    (h.handled i σ name t).widgets
      = h.widgets.modify name fun s => { s with table := t, dirty := true } := rfl

theorem widgets_written (name : String) (s : WidgetState) (field : String) (v : Value) :
    (h.written name s field v).widgets
      = h.widgets.modify name fun s => { s with dirty := true } := rfl

/-- The value of a field of a widget. -/
def field? (widget field : String) : Option Value :=
  (h.widgets.get? widget).bind fun s => (h.store.get s.table).get? field

variable {h} {widget : String}

theorem field?_of_get? {s : WidgetState} (hg : h.widgets.get? widget = some s) (field : String) :
    h.field? widget field = (h.store.get s.table).get? field := by
  rw [field?, hg]
  rfl

theorem field?_of_none (hg : h.widgets.get? widget = none) (field : String) :
    h.field? widget field = none := by
  rw [field?, hg]
  rfl

end Host

/-- The node that a value counts as, if it counts as one. -/
def Policy.nodeOf? (p : Policy) : Value → Option Node
  | .node n => some n
  | _ => match p with
    | .strict => none
    | .permissive => some .placeholder

/-- Whether the view of a widget must be run to be shown. -/
def WidgetState.Stale (s : WidgetState) : Prop := s.cached = none ∨ s.dirty = true

/-- The widget that a message is for. -/
def Message.recipient? (main : Option String) : Message → Option String
  | .event text => match Message.split text with
    | (none, _) => main
    | (some name, _) => if name = "" then main else some name
  | .typed name _ _ => some name
  | .other _ => none

namespace Act

variable {α : Type} (disk : Disk) {h h' : Host Interpreter} {i : Interpreter} {source : String}

/-- Does what is asked of a host with the interpreter. -/
abbrev respondWith (disk : Disk) (r : Request) : Act Interpreter Answer :=
  Interpreter.engine.respond disk r

/-! ## Tasks -/

theorem run_attempt {ρ : Type} {h h' : Host ρ} {x : Act ρ α} {r : Except Failure α}
    (hx : x h = (r, h')) :
    attempt x h = (.ok r, h') := by
  rw [attempt, hx]

/-- A host that is free does a task, and is free afterwards. -/
theorem run_exclusive (h' : Host Interpreter) {task : Task} {x : Act Interpreter α}
    {r : Except Failure α} (hb : h.busy = false) (hb' : h'.busy = false)
    (hx : x { h with busy := true } = (r, { h' with busy := true })) :
    exclusive task x h = (r, h') := by
  rw [exclusive, hb, hx]
  cases h'
  cases hb'
  rfl

theorem engine_main (i : Interpreter) : Interpreter.engine.main? i = i.mainWidget? := rfl

theorem runCallback_interpret {r : Except Fault Value}
    (hi : h.engine.interpret source none = (r, i)) :
    runCallback Interpreter.engine disk (Interpreter.engine.interpret source) h
      = (r.mapError .ofFault, { h with engine := i }) := by
  simp only [Interpreter.engine, runCallback, hi]
  cases r <;> rfl

theorem runCallback_invoke {widget method : String} {args : List Value} {t : TableId}
    {r : Except Fault Value} {σ : Store}
    (hi : h.engine.invoke h.store widget method args t = (r, i, σ)) :
    runCallback Interpreter.engine disk (Interpreter.engine.invoke widget method args t) h
      = (r.mapError .ofFault, h.ran i σ) := by
  simp only [Interpreter.engine, runCallback, hi]
  cases r <;> rfl

/-! ## Programs -/

theorem load_ok {v : Value} (hi : h.engine.interpret source none = (.ok v, i)) :
    load Interpreter.engine (runCallback Interpreter.engine disk) source h
      = (.ok (), h.loaded v i) := by
  rw [load, run_bind_ok (run_attempt (runCallback_interpret disk hi))]
  rfl

theorem load_error {f : Fault} (hi : h.engine.interpret source none = (.error f, i)) :
    load Interpreter.engine (runCallback Interpreter.engine disk) source h
      = (.error (.refused (refusal f)), { h with engine := i }) := by
  rw [load, run_bind_ok (run_attempt (runCallback_interpret disk hi))]
  cases f <;> rfl

theorem interpret_ok {v : Value} (hb : h.busy = false)
    (hi : h.engine.interpret source none = (.ok v, i)) :
    interpret Interpreter.engine (runCallback Interpreter.engine disk) source h
      = (.ok (), h.loaded v i) :=
  run_exclusive (h.loaded v i) hb hb (load_ok disk (h := { h with busy := true }) hi)

theorem interpret_error {f : Fault} (hb : h.busy = false)
    (hi : h.engine.interpret source none = (.error f, i)) :
    interpret Interpreter.engine (runCallback Interpreter.engine disk) source h
      = (.error (.refused (refusal f)), { h with engine := i }) :=
  run_exclusive { h with engine := i } hb hb (load_error disk (h := { h with busy := true }) hi)

/-- **A hot reload that succeeds.** -/
theorem reload_ok {v : Value} (hb : h.busy = false) (hh : h.hot = true)
    (hi : h.engine.interpret source none = (.ok v, i)) :
    respondWith disk (.reload source) h = (.ok .done, h.reloaded v i) := by
  have hl := load_ok disk (h := { h with busy := true, lifecycle := .reloading }) hi
  have hr : reload Interpreter.engine (runCallback Interpreter.engine disk) source h
      = (.ok (), h.reloaded v i) := by
    rw [reload, run_bind_ok (run_get h), if_neg (by rw [hh]; decide)]
    refine run_exclusive (h.reloaded v i) hb hb ?_
    rw [run_bind_ok (run_get _), run_bind_ok (run_modify _ _), run_bind_ok (run_attempt hl)]
    rfl
  exact run_bind_ok hr

/-- **A hot reload that fails.** -/
theorem reload_error {f : Fault} (hb : h.busy = false) (hh : h.hot = true)
    (hi : h.engine.interpret source none = (.error f, i)) :
    respondWith disk (.reload source) h
      = (.error (.refused (refusal f)), { h with engine := i }) := by
  have hl := load_error disk (h := { h with busy := true, lifecycle := .reloading }) hi
  have hr : reload Interpreter.engine (runCallback Interpreter.engine disk) source h
      = (.error (.refused (refusal f)), { h with engine := i }) := by
    rw [reload, run_bind_ok (run_get h), if_neg (by rw [hh]; decide)]
    refine run_exclusive { h with engine := i } hb hb ?_
    rw [run_bind_ok (run_get _), run_bind_ok (run_modify _ _), run_bind_ok (run_attempt hl)]
    rfl
  exact run_bind_error hr

/-- Without hot reloading a program is just loaded. -/
theorem reload_cold (hh : h.hot = false) (source : String) :
    respondWith disk (.reload source) h = respondWith disk (.interpret source) h := by
  have hr : reload Interpreter.engine (runCallback Interpreter.engine disk) source h
      = interpret Interpreter.engine (runCallback Interpreter.engine disk) source h := by
    rw [reload, run_bind_ok (run_get h), if_pos (by rw [hh]; rfl)]
  show (reload _ _ source >>= _) h = (interpret _ _ source >>= _) h
  rw [run_bind, run_bind, hr]

/-! ## Requests that change nothing -/

/-- Whether something leaves the host as it is. -/
def Reads (x : Act Interpreter α) : Prop := ∀ h, (x h).2 = h

namespace Reads

variable {β : Type}

theorem eq {x : Act Interpreter α} (hx : Reads x) {r : Except Failure α} (hr : x h = (r, h')) :
    h = h' := by
  rw [← hx h, hr]

theorem pure (a : α) : Reads (Pure.pure a) := fun _ => rfl

theorem fail (e : Failure) : Reads (Act.fail e : Act Interpreter α) := fun _ => rfl

theorem get : Reads (Act.get : Act Interpreter _) := fun _ => rfl

theorem bind {x : Act Interpreter α} {f : α → Act Interpreter β} (hx : Reads x)
    (hf : ∀ a, Reads (f a)) : Reads (x >>= f) := by
  intro h
  rw [run_bind]
  rcases hr : x h with ⟨r, h'⟩
  have hh : h' = h := (hx.eq hr).symm
  cases r with
  | error e => exact hh
  | ok a => exact hh ▸ hf a h'

theorem ofExcept (x : Except Failure α) : Reads (Act.ofExcept x) := by
  cases x with
  | ok a => exact pure a
  | error e => exact fail e

theorem widget (name : String) : Reads (Act.widget name) := by
  refine bind get fun h => ?_
  split
  · exact pure _
  · exact fail _

theorem getField (name field : String) : Reads (Act.getField name field) := by
  refine bind (widget name) fun s => bind get fun h => ?_
  split
  · exact pure _
  · exact fail _

theorem checkType (a b : Value) : Reads (Act.checkType a b) := by
  unfold Act.checkType
  split
  · exact pure _
  · exact pure _
  · split
    · exact pure _
    · exact fail _

end Reads

theorem run_widget {name : String} {s : WidgetState} (hs : h.widgets.get? name = some s) :
    widget name h = (.ok s, h) := by
  rw [widget, run_bind_ok (run_get h), hs]
  rfl

theorem run_getField (h : Host Interpreter) (name field : String) :
    getField name field h = match h.field? name field with
      | some v => (.ok v, h)
      | none => match h.widgets.get? name with
        | some _ => (.error (.refused (.noField name field)), h)
        | none => (.error (.refused (.noWidget name)), h) := by
  cases hg : h.widgets.get? name with
  | none =>
    have hw : widget name h = (.error (.refused (.noWidget name)), h) := by
      rw [widget, run_bind_ok (run_get h), hg]
      rfl
    rw [getField, run_bind_error hw, Host.field?_of_none hg]
  | some s =>
    rw [getField, run_bind_ok (run_widget hg), run_bind_ok (run_get h), Host.field?_of_get? hg]
    cases (h.store.get s.table).get? field <;> rfl

theorem getField_ok_iff {name field : String} {v : Value} :
    (getField name field h).1 = .ok v ↔ h.field? name field = some v := by
  rw [run_getField]
  cases h.field? name field with
  | none => cases h.widgets.get? name <;> simp
  | some w => simp

/-- What is answered depends on the widgets and their tables only. -/
theorem getField_congr {name field : String} (hw : h'.widgets = h.widgets)
    (hs : h'.store = h.store) :
    (getField name field h').1 = (getField name field h).1 := by
  have hf : h'.field? name field = h.field? name field := by
    rw [Host.field?, hw, hs, Host.field?]
  rw [run_getField, run_getField, hf, hw]
  cases h.field? name field with
  | none => cases h.widgets.get? name <;> rfl
  | some v => rfl

theorem run_asNode (v : Value) : asNode v h = match h.policy.nodeOf? v with
    | some n => (.ok n, h)
    | none => (.error (.refused (.mismatch "node" v.typeName)), h) := by
  unfold asNode
  split
  · rfl
  · next hv =>
    have hn : h.policy.nodeOf? v = match h.policy with
        | .strict => none
        | .permissive => some .placeholder := by
      unfold Policy.nodeOf?
      split
      · next n => exact absurd rfl (hv n)
      · rfl
    rw [run_bind_ok (run_get h), hn]
    cases h.policy <;> rfl

theorem run_address (main : Option String) (m : Message) :
    (∃ event args, address main m h = (.ok (m.recipient? main, event, args), h)) ∨
      ∃ e, address main m h = (.error e, h) := by
  cases m with
  | event text =>
    refine Or.inl ?_
    rcases hs : Message.split text with ⟨who, event⟩
    cases who <;>
    · simp only [address, Message.recipient?, hs]
      exact ⟨_, _, rfl⟩
  | typed name event args => exact Or.inl ⟨_, _, rfl⟩
  | other v =>
    refine Or.inr ?_
    rw [address, run_bind_ok (run_get h)]
    cases (h.store.read v).inspect <;> exact ⟨_, rfl⟩

theorem mem_named? {ρ : Type} {h : Host ρ} {name : Option String} {n : String} {s : WidgetState}
    (hn : h.named? name = some (n, s)) : name = some n ∧ h.widgets.get? n = some s := by
  cases name with
  | none => cases hn
  | some name =>
    rw [Host.named?] at hn
    split at hn
    · cases hn
    · obtain ⟨s', hs, he⟩ := Option.map_eq_some_iff.mp hn
      cases he
      exact ⟨rfl, hs⟩

theorem named?_of_get? {ρ : Type} {h : Host ρ} {name : String} {s : WidgetState} (hn : name ≠ "")
    (hs : h.widgets.get? name = some s) : h.named? (some name) = some (name, s) := by
  rw [Host.named?, if_neg hn, hs]
  rfl

/-- The error that a host makes of what a method ended with. -/
def methodError : Fault → Failure
  | .source e => .refused (.program e)
  | .number e => .number e

theorem invoke_ok {widget method : String} {args : List Value} {t : TableId} {v : Value}
    {σ : Store} (hi : h.engine.invoke h.store widget method args t = (.ok v, i, σ)) :
    invoke Interpreter.engine (runCallback Interpreter.engine disk) widget method args t h
      = (.ok v, h.ran i σ) := by
  rw [invoke, run_bind_ok (run_attempt (runCallback_invoke disk hi))]
  rfl

theorem invoke_error {widget method : String} {args : List Value} {t : TableId} {f : Fault}
    {σ : Store} (hi : h.engine.invoke h.store widget method args t = (.error f, i, σ)) :
    invoke Interpreter.engine (runCallback Interpreter.engine disk) widget method args t h
      = (.error (methodError f), h.ran i σ) := by
  rw [invoke, run_bind_ok (run_attempt (runCallback_invoke disk hi))]
  cases f <;> rfl

/-! ## Messages -/

/-- How a message can end: refused before a handler ran, or with the handler having failed or
succeeded on a copy of the recipient's fields. -/
inductive Sent (h : Host Interpreter) (m : Message) : Except Failure Unit → Host Interpreter → Prop
    where
  | refused (e : Failure) : Sent h m (.error e) h
  | failed {name event : String} {s : WidgetState} {args : List Value} {f : Fault}
      {i : Interpreter} {σ : Store} :
      m.recipient? h.engine.mainWidget? = some name → h.widgets.get? name = some s →
      h.engine.invoke (h.store.copyTable s.table).2 name "on" (.str event :: args)
        (h.store.copyTable s.table).1 = (.error f, i, σ) →
      Sent h m (.error (methodError f)) (h.ran i σ)
  | handled {name event : String} {s : WidgetState} {args : List Value} {v : Value}
      {i : Interpreter} {σ : Store} :
      m.recipient? h.engine.mainWidget? = some name → h.widgets.get? name = some s →
      h.engine.invoke (h.store.copyTable s.table).2 name "on" (.str event :: args)
        (h.store.copyTable s.table).1 = (.ok v, i, σ) →
      Sent h m (.ok ()) (h.handled i σ name (h.store.copyTable s.table).1)

theorem deliver_sent (h : Host Interpreter) (m : Message) :
    ∃ r h', deliver Interpreter.engine (runCallback Interpreter.engine disk) m h = (r, h') ∧
      Sent h m r h' := by
  rw [deliver, run_bind_ok (run_get h), engine_main]
  rcases run_address (h := h) h.engine.mainWidget? m with ⟨event, args, ha⟩ | ⟨e, ha⟩
  · rw [run_bind_ok ha]
    dsimp only
    cases hn : h.named? (m.recipient? h.engine.mainWidget?) with
    | none => exact ⟨_, _, rfl, .refused _⟩
    | some w =>
      obtain ⟨name, s⟩ := w
      obtain ⟨hto, hs⟩ := mem_named? hn
      dsimp only
      rw [run_bind_ok (run_modify _ h)]
      rcases hi : h.engine.invoke (h.store.copyTable s.table).2 name "on" (.str event :: args)
        (h.store.copyTable s.table).1 with ⟨r, i, σ⟩
      cases r with
      | error f =>
        have hrun := invoke_error disk (h := { h with store := (h.store.copyTable s.table).2 }) hi
        exact ⟨_, _, run_bind_error hrun, .failed hto hs hi⟩
      | ok v =>
        have hrun := invoke_ok disk (h := { h with store := (h.store.copyTable s.table).2 }) hi
        exact ⟨_, _, run_bind_ok hrun, .handled hto hs hi⟩
  · rw [run_bind_error ha]
    exact ⟨_, _, rfl, .refused e⟩

/-! ## Views -/

/-- How showing the main view can end: there is no node to show, or one is there already, or the
view of the main widget was run. -/
inductive Viewed (h : Host Interpreter) : Except Failure Node → Host Interpreter → Prop where
  | noNode (e : Failure) : h.named? h.engine.mainWidget? = none → Viewed h (.error e) h
  | result {n : Node} : h.named? h.engine.mainWidget? = none →
      h.policy.nodeOf? h.result = some n → Viewed h (.ok n) h.shown
  | cached {name : String} {s : WidgetState} {n : Node} :
      h.named? h.engine.mainWidget? = some (name, s) → s.cached = some n → s.dirty = false →
      Viewed h (.ok n) h.shown
  | failed {name : String} {s : WidgetState} {f : Fault} {i : Interpreter} {σ : Store} :
      h.named? h.engine.mainWidget? = some (name, s) → s.Stale →
      h.engine.invoke h.store name "view" [] s.table = (.error f, i, σ) →
      Viewed h (.error (methodError f)) (h.ran i σ)
  | refused {name : String} {s : WidgetState} {v : Value} {i : Interpreter} {σ : Store}
      (e : Failure) : h.named? h.engine.mainWidget? = some (name, s) → s.Stale →
      h.engine.invoke h.store name "view" [] s.table = (.ok v, i, σ) →
      Viewed h (.error e) (h.ran i σ)
  | run {name : String} {s : WidgetState} {v : Value} {n : Node} {i : Interpreter} {σ : Store} :
      h.named? h.engine.mainWidget? = some (name, s) → s.Stale →
      h.engine.invoke h.store name "view" [] s.table = (.ok v, i, σ) →
      h.policy.nodeOf? v = some n → Viewed h (.ok n) (h.viewed i σ name n).shown

theorem run_widgetView_cached {name : String} {s : WidgetState} {n : Node}
    (hc : s.cached = some n) (hd : s.dirty = false) :
    widgetView Interpreter.engine (runCallback Interpreter.engine disk) name s h = (.ok n, h) := by
  rw [widgetView, hc, hd]
  rfl

/-- A view that is out of date is run, for whatever engine. -/
theorem run_widgetView {ρ : Type} (E : Engine ρ) (run : Callback ρ → Act ρ Value) {h : Host ρ}
    {name : String} {s : WidgetState} (hs : s.Stale) :
    widgetView E run name s h
      = (do
          let v ← invoke E run name "view" [] s.table
          let n ← asNode v
          modify fun h => { h with
            widgets := h.widgets.modify name fun s => { s with cached := some n, dirty := false } }
          return n) h := by
  obtain ⟨t, cached, dirty⟩ := s
  cases cached with
  | none => rfl
  | some n =>
    cases dirty with
    | false => exact absurd hs (by simp [WidgetState.Stale])
    | true => rfl

theorem showMain_viewed (h : Host Interpreter) :
    ∃ r h', showMain Interpreter.engine (runCallback Interpreter.engine disk) h = (r, h') ∧
      Viewed h r h' := by
  rw [showMain, run_bind_ok (run_get h), engine_main]
  cases hn : h.named? h.engine.mainWidget? with
  | none =>
    dsimp only
    cases hv : h.policy.nodeOf? h.result with
    | none =>
      have hr : asNode h.result h
          = (.error (.refused (.mismatch "node" h.result.typeName)), h) := by
        rw [run_asNode, hv]
      exact ⟨_, _, run_bind_error hr, .noNode _ hn⟩
    | some n =>
      have hr : asNode h.result h = (.ok n, h) := by rw [run_asNode, hv]
      exact ⟨_, _, run_bind_ok hr, .result hn hv⟩
  | some w =>
    obtain ⟨name, s⟩ := w
    dsimp only
    by_cases hc : s.Stale
    · -- the view is run; its result may still be none that can be shown
      rcases hi : h.engine.invoke h.store name "view" [] s.table with ⟨r, i, σ⟩
      cases r with
      | error f =>
        have hr := (run_widgetView _ _ hc).trans (run_bind_error (invoke_error disk hi))
        exact ⟨_, _, run_bind_error hr, .failed hn hc hi⟩
      | ok v =>
        have hr := (run_widgetView _ _ hc).trans (run_bind_ok (invoke_ok disk hi))
        cases hv : h.policy.nodeOf? v with
        | none =>
          have ha : asNode v (h.ran i σ)
              = (.error (.refused (.mismatch "node" v.typeName)), h.ran i σ) := by
            rw [run_asNode, show (h.ran i σ).policy = h.policy from rfl, hv]
          exact ⟨_, _, run_bind_error (hr.trans (run_bind_error ha)), .refused _ hn hc hi⟩
        | some n =>
          have ha : asNode v (h.ran i σ) = (.ok n, h.ran i σ) := by
            rw [run_asNode, show (h.ran i σ).policy = h.policy from rfl, hv]
          exact ⟨_, _, run_bind_ok (hr.trans (run_bind_ok ha)), .run hn hc hi hv⟩
    · obtain ⟨hc₁, hc₂⟩ := not_or.mp hc
      obtain ⟨n, hn'⟩ := Option.ne_none_iff_exists'.mp hc₁
      have hd : s.dirty = false := by simpa using hc₂
      exact ⟨_, _, run_bind_ok (run_widgetView_cached disk hn' hd), .cached hn hn' hd⟩

/-! ## Tasks that a free host does -/

theorem shown_busy (h : Host Interpreter) (b : Bool) :
    Host.shown { h with busy := b } = { h.shown with busy := b } := by
  unfold Host.shown
  split <;> rfl

theorem busy_shown (h : Host Interpreter) : h.shown.busy = h.busy := by
  unfold Host.shown
  split <;> rfl

theorem shown_shown (h : Host Interpreter) : h.shown.shown = h.shown := by
  unfold Host.shown
  split
  · rfl
  · rfl

theorem send_sent (hb : h.busy = false) (m : Message) :
    ∃ r h', send Interpreter.engine (runCallback Interpreter.engine disk) m h = (r, h') ∧
      Sent h m r h' := by
  -- handlers do not look at whether the host is busy
  obtain ⟨r, h', hrun, hs⟩ := deliver_sent disk { h with busy := true } m
  cases hs with
  | refused e => exact ⟨_, _, run_exclusive h hb hb hrun, .refused e⟩
  | @failed _ _ _ _ _ i σ hto hg hi =>
    exact ⟨_, _, run_exclusive (h.ran i σ) hb hb hrun, .failed hto hg hi⟩
  | @handled name _ s _ _ i σ hto hg hi =>
    exact ⟨_, _, run_exclusive (h.handled i σ name (h.store.copyTable s.table).1) hb hb hrun,
      .handled hto hg hi⟩

theorem mainView_viewed (hb : h.busy = false) :
    ∃ r h', mainView Interpreter.engine (runCallback Interpreter.engine disk) h = (r, h') ∧
      Viewed h r h' := by
  obtain ⟨r, h', hrun, hv⟩ := showMain_viewed disk { h with busy := true }
  have hshown : ∀ h₁ : Host Interpreter, h₁.busy = false → h₁.shown.busy = false :=
    fun h₁ hb₁ => (busy_shown h₁).trans hb₁
  cases hv with
  | noNode e hn => exact ⟨_, _, run_exclusive h hb hb hrun, .noNode e hn⟩
  | result hn hv =>
    rw [shown_busy] at hrun
    exact ⟨_, _, run_exclusive h.shown hb (hshown h hb) hrun, .result hn hv⟩
  | cached hn hc hd =>
    rw [shown_busy] at hrun
    exact ⟨_, _, run_exclusive h.shown hb (hshown h hb) hrun, .cached hn hc hd⟩
  | @failed _ _ _ i σ hn hc hi =>
    exact ⟨_, _, run_exclusive (h.ran i σ) hb hb hrun, .failed hn hc hi⟩
  | @refused _ _ _ i σ e hn hc hi =>
    exact ⟨_, _, run_exclusive (h.ran i σ) hb hb hrun, .refused e hn hc hi⟩
  | @run name _ _ n i σ hn hc hi hv =>
    have hrun' := hrun.trans (congrArg (Prod.mk _) (shown_busy (h.viewed i σ name n) true))
    exact ⟨_, _, run_exclusive (h.viewed i σ name n).shown hb (hshown _ hb) hrun',
      .run hn hc hi hv⟩

/-- Running a method does not change which widget is the main one. -/
theorem mainWidget?_eq {i i' : Interpreter} (h : i.SameProgram i') :
    i'.mainWidget? = i.mainWidget? := by
  unfold Interpreter.mainWidget?
  unfold Interpreter.SameProgram at h
  generalize i.program = p at h ⊢
  generalize i'.program = p' at h ⊢
  cases h with
  | none => rfl
  | some hs =>
    simp only [Option.bind_some, hs.code]

end Act

end Widgetry
