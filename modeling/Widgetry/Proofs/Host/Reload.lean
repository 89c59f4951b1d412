import Widgetry.Proofs.Host.Outcomes

/-!
# Hot reloading

A host that reloads hot replaces its program and keeps what the fields hold. What one reload makes
of a host that requests lead to is said by `Reloaded`: the widgets and the fields are those of the
new program, a field that was there before has the value that it had, and any other its default.

> `reload_keeps_fields`: a reload that succeeds does just that, and through any number of reloads,
> of which some may fail, a field that all loaded programs declare keeps its value.

A field that was not there before gets the default of the first of those programs
(`Reloads.field?_eq`), and later reloads keep that.
-/

namespace Widgetry

instance (p : Program) (widget field : String) : Decidable (p.Declares widget field) :=
  inferInstanceAs (Decidable (widget ∈ Program.widgetNames p.code ∧
    field ∈ p.code.fieldNames widget))

/-- What a hot reload makes of a host when it loads a program. -/
structure Host.Reloaded (h : Host Interpreter) (p : Program) (h' : Host Interpreter) : Prop where
  program : h'.engine.program = some p
  names : (h'.widgets.map (·.1)).Nodup
  widgets : ∀ widget, (h'.widgets.get? widget).isSome ↔ p.HasWidget widget
  fields : ∀ widget s, h'.widgets.get? widget = some s → (h'.store.get s.table).names.Nodup ∧
    ∀ field, field ∈ (h'.store.get s.table).names ↔ field ∈ p.code.fieldNames widget
  values : ∀ widget field, h'.field? widget field
    = if p.Declares widget field then (h.field? widget field).or (p.default? widget field) else none
  stale : ∀ w ∈ h'.widgets, w.2.cached = none ∧ w.2.dirty = true
  lifecycle : h'.lifecycle = if h.lifecycle = .rendered then .rendered else .loaded
  /-- what fields refer to is as it was -/
  kept : h.store.Keeps h'.store

/-! ## One reload -/

section

variable {h : Host Interpreter} {source : String} {v : Value} {i : Interpreter} {p : Program}

theorem reloaded_kept (hs : h.core.Sound) (v : Value) (i : Interpreter) :
    h.store.Keeps (h.reloaded v i).store := by
  have hmade := loaded_made h v i
  have hm := reloaded_migrated hs v i
  refine ⟨hm.size ▸ hmade.keeps.size, fun t ht => ?_⟩
  rw [hm.others t fun w hw he => (hmade.fresh w hw).1 (he ▸ ht)]
  exact hmade.keeps.get t ht

/-- The table of a widget after a reload: the defaults, with the old values carried over. -/
theorem get_reloaded (hs : h.core.Sound) (hp : i.defaults = p.defaults)
    {widget : String} {s : WidgetState} (hg : (h.reloaded v i).widgets.get? widget = some s) :
    ∃ fs, p.defaults.lookup widget = some fs ∧
      (h.reloaded v i).store.get s.table = match h.widgets.get? widget with
        | none => fs
        | some previous => Widgets.carry (h.store.get previous.table) fs := by
  have hmade := loaded_made h v i
  have hm := reloaded_migrated hs v i
  have hnew : (h.loaded v i).widgets.get? widget = some s := hm.widgets ▸ hg
  have hl : i.defaults.lookup widget = _ := hmade.lookup
  rw [hnew, hp] at hl
  refine ⟨_, hl, ?_⟩
  rw [hm.contents (widget, s) (Widgets.mem_of_get? hnew)]
  cases hold : h.widgets.get? widget with
  | none => rfl
  | some previous =>
    show Widgets.carry ((h.loaded v i).store.get previous.table) _ = _
    rw [hmade.keeps.get _ (hs.widgets.has hold)]

/-- **A field that both programs have keeps its value; any other field has its default.** -/
theorem field?_reloaded (hs : h.core.Sound) (hp : i.defaults = p.defaults) (hw : p.WellFormed)
    (widget field : String) : (h.reloaded v i).field? widget field
      = if p.Declares widget field then (h.field? widget field).or (p.default? widget field)
        else none := by
  have hd : (p.default? widget field).isSome ↔ p.Declares widget field := hw.default?_isSome
  cases hg : (h.reloaded v i).widgets.get? widget with
  | none =>
    have hm := reloaded_migrated hs v i
    have hl : i.defaults.lookup widget = _ := (loaded_made h v i).lookup
    rw [← hm.widgets, hg, hp] at hl
    have hnot : ¬ p.Declares widget field := by
      rw [← hd, Program.default?, hl]
      exact Bool.false_ne_true
    rw [if_neg hnot, Host.field?_of_none hg]
  | some s =>
    obtain ⟨fs, hl, hget⟩ := get_reloaded hs hp hg
    have hdefault : p.default? widget field = fs.get? field := by
      rw [Program.default?, hl]
      rfl
    have hhas : fs.has field = true ↔ p.Declares widget field := by
      rw [← hd, hdefault, Fields.has]
    rw [Host.field?_of_get? hg, hget, hdefault]
    cases hold : h.widgets.get? widget with
    | none =>
      rw [Host.field?_of_none hold, Option.none_or]
      by_cases hdecl : p.Declares widget field
      · rw [if_pos hdecl]
      · have hnot : ¬ fs.has field = true := fun hf => hdecl (hhas.mp hf)
        rw [if_neg hdecl]
        simpa [Fields.has] using hnot
    | some previous =>
      -- a table with one field twice could carry over either value
      have hn : (h.store.get previous.table).names.Nodup := hs.fields _
      show (Widgets.carry (h.store.get previous.table) fs).get? field = _
      rw [Host.field?_of_get? hold, Widgets.get?_carry hn]
      by_cases hdecl : p.Declares widget field
      · rw [if_pos hdecl, if_pos (hhas.mpr hdecl)]
      · rw [if_neg hdecl, if_neg fun hf => hdecl (hhas.mp hf)]

theorem reloaded_spec (hs : h.core.Sound) (hp : i.program = some p) (hw : p.WellFormed) :
    h.Reloaded p (h.reloaded v i) := by
  have hd : i.defaults = p.defaults := by
    rw [Interpreter.defaults, hp]
    rfl
  have hmade := loaded_made h v i
  have hm := reloaded_migrated hs v i
  have hwidgets : (h.reloaded v i).widgets = (h.loaded v i).widgets := hm.widgets
  have hlookup : ∀ widget, p.defaults.lookup widget
      = ((h.reloaded v i).widgets.get? widget).map fun s => (h.loaded v i).store.get s.table := by
    intro widget
    rw [hwidgets, ← hd]
    exact hmade.lookup
  refine ⟨hp, ?_, fun widget => ?_, fun widget s hg => ?_, field?_reloaded hs hd hw, ?_, rfl,
    reloaded_kept hs v i⟩
  · rw [hwidgets]
    have hnodup := hw.nodup
    rw [← hd, ← hmade.names] at hnodup
    exact hnodup
  · rw [← hw.widgets widget, hlookup, Option.isSome_map]
  · obtain ⟨fs, hl, hget⟩ := get_reloaded hs hd hg
    have hnames : ((h.reloaded v i).store.get s.table).names = fs.names := by
      rw [hget]
      cases h.widgets.get? widget with
      | none => rfl
      | some previous => exact Widgets.names_carry _ fs
    rw [hnames]
    exact hw.fields widget fs hl
  · rw [hwidgets]
    exact hmade.state

end

/-! ## Many reloads -/

/-- What hot reloads make of a host: some fail, and the others load programs, which are listed. -/
inductive Host.Reloads : Host Interpreter → List Program → Host Interpreter → Prop where
  | nil (h : Host Interpreter) : Reloads h [] h
  | failed {h h' : Host Interpreter} {i : Interpreter} {ps : List Program} :
      Reloads { h with engine := i } ps h' → Reloads h ps h'
  | loaded {h h' : Host Interpreter} {v : Value} {i : Interpreter} {p : Program}
      {ps : List Program} : h.core.Sound → i.program = some p → p.WellFormed →
      Reloads (h.reloaded v i) ps h' → Reloads h (p :: ps) h'

namespace Host.Reloads

variable {h h' : Host Interpreter} {ps : List Program} {widget field : String}

theorem wellFormed (hr : h.Reloads ps h') : ∀ p ∈ ps, p.WellFormed := by
  induction hr with
  | nil h =>
    intro p hp
    cases hp
  | failed _ ih => exact ih
  | loaded _ _ hw _ ih =>
    intro p hp
    rcases List.mem_cons.mp hp with rfl | hp
    · exact hw
    · exact ih p hp

/-- What fields refer to is as it was. -/
theorem kept (hr : h.Reloads ps h') : h.store.Keeps h'.store := by
  induction hr with
  | nil h => exact Store.keeps_refl h.store
  | failed _ ih => exact ih
  | @loaded h h' v i p ps hs hp hw hr ih => exact (reloaded_kept hs v i).trans ih

/-- Reloads that all fail leave widgets and tables as they are. -/
theorem of_nil (hr : h.Reloads ps h') (hnil : ps = []) :
    h'.widgets = h.widgets ∧ h'.store = h.store := by
  induction hr with
  | nil h => exact ⟨rfl, rfl⟩
  | failed _ ih => exact ih hnil
  | loaded _ _ _ _ _ => cases hnil

/-- **Through reloads a field keeps the value that it has, or else the default of the first program
that is loaded**, as long as all of those programs declare it. -/
theorem field?_eq (hr : h.Reloads ps h') (hd : ∀ p ∈ ps, p.Declares widget field) :
    h'.field? widget field
      = (h.field? widget field).or (ps.head?.bind (·.default? widget field)) := by
  induction hr with
  | nil h => exact Option.or_none.symm
  | failed _ ih => exact ih hd
  | @loaded h h' v i p ps hs hp hw hr ih =>
    have hdecl : p.Declares widget field := hd p List.mem_cons_self
    have hfield := (reloaded_spec (v := v) hs hp hw).values widget field
    rw [if_pos hdecl] at hfield
    obtain ⟨w, hdefault⟩ := Option.isSome_iff_exists.mp (hw.default?_isSome.mpr hdecl)
    rw [ih fun q hq => hd q (List.mem_cons_of_mem _ hq), hfield, List.head?_cons,
      Option.bind_some, hdefault]
    -- the default is there, so what later programs have for it does not count
    cases h.field? widget field <;> rfl

/-- A field that has a value keeps it. -/
theorem getField_ok (hr : h.Reloads ps h') (hd : ∀ p ∈ ps, p.Declares widget field) {v : Value}
    (hv : (Act.getField widget field h).1 = .ok v) :
    (Act.getField widget field h').1 = .ok v := by
  have hfield := hr.field?_eq hd
  rw [Act.getField_ok_iff.mp hv] at hfield
  exact Act.getField_ok_iff.mpr hfield

/-- A field that has none gets the default of the first program. -/
theorem getField_error (hr : h.Reloads ps h') (hd : ∀ p ∈ ps, p.Declares widget field)
    {e : Failure} (he : (Act.getField widget field h).1 = .error e) :
    (ps = [] → (Act.getField widget field h').1 = .error e) ∧
    ∀ p, ps.head? = some p → ∃ v, p.default? widget field = some v ∧
      (Act.getField widget field h').1 = .ok v := by
  refine ⟨fun hnil => ?_, fun p hp => ?_⟩
  · obtain ⟨hwidgets, hstore⟩ := hr.of_nil hnil
    exact (Act.getField_congr hwidgets hstore).trans he
  · have hnone : h.field? widget field = none := by
      cases hf : h.field? widget field with
      | none => rfl
      | some v => cases (Act.getField_ok_iff.mpr hf).symm.trans he
    have hmem : p ∈ ps := List.mem_of_mem_head? hp
    have hw : p.WellFormed := hr.wellFormed p hmem
    obtain ⟨v, hv⟩ := Option.isSome_iff_exists.mp (hw.default?_isSome.mpr (hd p hmem))
    have hfield := hr.field?_eq hd
    rw [hnone, Option.none_or, hp, Option.bind_some, hv] at hfield
    exact ⟨v, hv, Act.getField_ok_iff.mpr hfield⟩

end Host.Reloads

namespace Act

variable (disk : Disk) {h h' : Host Interpreter} {source : String}

/-- A hot reload fails and leaves all but the engine as it is, or it loads a program. -/
theorem reload_cases (hb : h.busy = false) (hh : h.hot = true) (source : String) :
    (∃ e i, respondWith disk (.reload source) h = (.error e, { h with engine := i })) ∨
    ∃ v i code p m, parse source none = .ok code ∧
      Load.program evaluationLimit code { output := h.engine.output } = (.ok p, m) ∧
      i.program = some p ∧ p.code = code ∧ p.WellFormed ∧
      respondWith disk (.reload source) h = (.ok .done, h.reloaded v i) := by
  rcases hi : h.engine.interpret source none with ⟨r, i⟩
  cases r with
  | error f => exact Or.inl ⟨_, i, reload_error disk hb hh hi⟩
  | ok v =>
    obtain ⟨code, p, m, hcode, hm, hp, hc, hw⟩ := interpret_wellFormed hi
    exact Or.inr ⟨v, i, code, p, m, hcode, hm, hp, hc, hw, reload_ok disk hb hh hi⟩

/-- Reloads programs, one after the other. -/
def reloads : List String → Host Interpreter → Host Interpreter
  | [], h => h
  | source :: rest, h => reloads rest (respondWith disk (.reload source) h).2

/-- The programs that reloads load; those that fail load none. -/
def programs : List String → Host Interpreter → List Program
  | [], _ => []
  | source :: rest, h => match respondWith disk (.reload source) h with
    | (.ok _, h') => h'.engine.program.toList ++ programs rest h'
    | (.error _, h') => programs rest h'

theorem reloads_cons {r : Except Failure Answer} {rest : List String}
    (hr : respondWith disk (.reload source) h = (r, h')) :
    reloads disk (source :: rest) h = reloads disk rest h' := by
  rw [reloads, hr]

theorem programs_cons_error {e : Failure} {rest : List String}
    (hr : respondWith disk (.reload source) h = (.error e, h')) :
    programs disk (source :: rest) h = programs disk rest h' := by
  rw [programs, hr]

theorem programs_cons_ok {a : Answer} {rest : List String} {p : Program}
    (hr : respondWith disk (.reload source) h = (.ok a, h')) (hp : h'.engine.program = some p) :
    programs disk (source :: rest) h = p :: programs disk rest h' := by
  rw [programs, hr]
  show h'.engine.program.toList ++ _ = _
  rw [hp]
  rfl

theorem reload_sound (hs : h.Sound) {r : Except Failure Answer}
    (hr : respondWith disk (.reload source) h = (r, h')) : h'.Sound :=
  step_sound hs ⟨disk, .reload source, by rw [hr]⟩

theorem reloads_spec (sources : List String) : ∀ {h : Host Interpreter}, h.Sound → h.hot = true →
    h.Reloads (programs disk sources h) (reloads disk sources h) := by
  induction sources with
  | nil =>
    intro h _ _
    exact .nil h
  | cons source rest ih =>
    intro h hs hh
    rcases reload_cases disk hs.free hh source with
      ⟨e, i, hr⟩ | ⟨v, i, code, p, m, -, -, hp, -, hw, hr⟩
    · rw [programs_cons_error disk hr, reloads_cons disk hr]
      exact .failed (ih (reload_sound disk hs hr) hh)
    · rw [programs_cons_ok disk hr hp, reloads_cons disk hr]
      exact .loaded hs.core hp hw (ih (reload_sound disk hs hr) hh)

/-- **Hot reloading keeps fields.** A reload that succeeds gives the host the widgets and fields of
the new program, with the values that were there before. Through any reloads a field that all
loaded programs declare keeps its value; if it had none, it gets the default of the first program
that is loaded, and without one it is refused as before. -/
theorem reload_keeps_fields (hr : h.Reachable) (hh : h.hot = true) :
    (∀ source a h', respondWith disk (.reload source) h = (.ok a, h') →
      ∃ code p m, parse source none = .ok code ∧
        Load.program evaluationLimit code { output := h.engine.output } = (.ok p, m) ∧
        p.code = code ∧ h.Reloaded p h') ∧
    ∀ sources, h.store.Keeps (reloads disk sources h).store ∧
      ∀ widget field, (∀ p ∈ programs disk sources h, p.Declares widget field) →
      (∀ v, (getField widget field h).1 = .ok v →
        (getField widget field (reloads disk sources h)).1 = .ok v) ∧
      ∀ e, (getField widget field h).1 = .error e →
        (programs disk sources h = [] →
          (getField widget field (reloads disk sources h)).1 = .error e) ∧
        ∀ p, (programs disk sources h).head? = some p → ∃ v, p.default? widget field = some v ∧
          (getField widget field (reloads disk sources h)).1 = .ok v := by
  have hs := reachable_sound hr
  refine ⟨fun source a h' hrun => ?_, fun sources => ?_⟩
  · rcases reload_cases disk hs.free hh source with
      ⟨e, i, hrun'⟩ | ⟨v, i, code, p, m, hcode, hm, hp, hc, hw, hrun'⟩
    · cases hrun.symm.trans hrun'
    · cases hrun.symm.trans hrun'
      exact ⟨code, p, m, hcode, hm, hc, reloaded_spec hs.core hp hw⟩
  · have hrel := reloads_spec disk sources hs hh
    exact ⟨hrel.kept, fun widget field hd =>
      ⟨fun v hv => hrel.getField_ok hd hv, fun e he => hrel.getField_error hd he⟩⟩

/-! ## A program that is edited -/

/-- Counts the events that it gets. -/
def counterSource : String :=
  "type C is Widget \x7b\n n int = 0\n fn on(ev) \x7b n = n + 1 \x7d\n\x7d"

/-- The same with another field. -/
def editedSource : String :=
  "type C is Widget \x7b\n n int = 5\n k int = 7\n fn on(ev) \x7b n = n + k \x7d\n\x7d"

/-- A host that has loaded the counter and sent it an event. -/
def counted : Host Interpreter :=
  (respondWith {} (.send (.event "A"))
    (respondWith {} (.interpret counterSource) (Host.new {} {} none)).2).2

theorem reachable_counted : counted.Reachable :=
  ⟨{}, {}, none, .tail (.tail .refl ⟨{}, _, rfl⟩) ⟨{}, _, rfl⟩⟩

theorem hot_counted : counted.hot = true := by decide +kernel

/-- The count outlives a program that is none and one that has another field. -/
theorem counted_kept : ∃ v, (getField "C" "n" counted).1 = .ok v ∧ v.same (.int 1) = true ∧
    (getField "C" "n" (reloads {} ["type", editedSource] counted)).1 = .ok v := by
  have hone : (counted.field? "C" "n").any (·.same (.int 1)) = true := by decide +kernel
  have hdecl : ∀ p ∈ programs {} ["type", editedSource] counted, p.Declares "C" "n" := by
    decide +kernel
  obtain ⟨v, hfield, hone⟩ := (Option.any_eq_true _ _).mp hone
  have hv := getField_ok_iff.mpr hfield
  have hkept := ((reload_keeps_fields {} reachable_counted hot_counted).2 _).2 _ _ hdecl
  exact ⟨v, hv, hone, hkept.1 v hv⟩

/-- A field that a host did not have is there after a reload. -/
theorem field_added : ¬ ∀ (disk : Disk) (h : Host Interpreter), h.Reachable → h.hot = true →
    ∀ sources widget field, (∀ p ∈ programs disk sources h, p.Declares widget field) →
      (getField widget field (reloads disk sources h)).1 = (getField widget field h).1 := by
  intro hall
  have hdecl : ∀ p ∈ programs {} [editedSource] counted, p.Declares "C" "k" := by decide +kernel
  have heq := hall {} counted reachable_counted hot_counted [editedSource] "C" "k" hdecl
  have hbefore : (getField "C" "k" counted).1.isOk = false := by decide +kernel
  have hafter : (getField "C" "k" (reloads {} [editedSource] counted)).1.isOk = true := by
    decide +kernel
  rw [heq, hbefore] at hafter
  cases hafter

end Act

end Widgetry
