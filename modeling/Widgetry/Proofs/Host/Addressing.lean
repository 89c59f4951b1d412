import Widgetry.Proofs.Host.Routing

/-!
# One event, addressed in different ways

An event of a widget can be sent as a text with the name of the widget in front, or to the widget
by name, and then with or without the name in front of the event as well. An event of the main
widget needs no name at all. The host splits texts at the first point, and the interpreter puts the
name in front of an event that has none; together they make one event of all these.

> `addressed_alike`: all of them get the same answer and leave the same host behind, for any handler,
> and what the handler's first parameter is bound to is the event with the name in front.

A name of a widget has no point in it, whatever was requested before (`reachable_names`).
-/

namespace Widgetry

/-! ## Names of widgets -/

/-- Whether the names of all widgets are words. -/
def Host.Core.Named (c : Host.Core) : Prop := ∀ widget ∈ c.widgets.map (·.1), IsWord widget

section

variable {h h' : Host Interpreter} {source : String} {v : Value} {i : Interpreter}

/-- The names of a program that was taken are words. -/
theorem interpret_names (hi : h.engine.interpret source none = (.ok v, i)) :
    ∃ p, i.program = some p ∧ p.WellFormed ∧ ∀ widget, p.HasWidget widget → IsWord widget := by
  obtain ⟨code, p, _, hparse, -, hp, hcode, hw⟩ := interpret_wellFormed hi
  refine ⟨p, hp, hw, fun widget hhas => widgetNames_worded (parse_worded hparse) ?_⟩
  rw [← hcode]
  exact hhas

theorem named_of_fits {c : Host.Core} {p : Program} (hf : c.Fits p)
    (hw : ∀ widget, p.HasWidget widget → IsWord widget) : c.Named := by
  intro widget hmem
  refine hw widget ((hf.widgets widget).mp ?_)
  rw [Host.Core.fieldNames?, Option.isSome_map]
  exact lookup_isSome.mpr hmem

/-- A request makes widgets for a program, or keeps their names. -/
theorem outcome_named (hs : h.core.Sound) (hn : h.core.Named) {c : Host.Core} (ho : h.Outcome c) :
    c.Named := by
  have hmodify : ∀ {ws : Widgets} {name : String} {f : WidgetState → WidgetState},
      ws = h.widgets.modify name f → ∀ widget ∈ ws.map (·.1), IsWord widget := by
    rintro ws name f rfl widget hmem
    rw [Widgets.names_modify] at hmem
    exact hn widget hmem
  cases ho with
  | kept _ | viewFailed _ _ _ | handlerFailed _ _ => exact hn
  | loaded hi =>
    obtain ⟨p, hp, hwf, hw⟩ := interpret_names hi
    exact named_of_fits (loaded_fits h _ hp hwf) hw
  | reloaded hi =>
    obtain ⟨p, hp, hwf, hw⟩ := interpret_names hi
    exact named_of_fits (reloaded_spec hs hp hwf).fits hw
  | @viewed name _ _ n i σ _ _ _ _ => exact hmodify (Host.widgets_viewed h i σ name n)
  | @handled name s _ _ i σ _ _ =>
    exact hmodify (Host.widgets_handled h i σ name (h.store.copyTable s.table).1)
  | @written name field s v _ _ => exact hmodify (Host.widgets_written h name s field v)

theorem step_named (hs : h.Sound) (hn : h.core.Named) (hstep : h.Step h') : h'.core.Named := by
  obtain ⟨disk, r, rfl⟩ := hstep
  exact outcome_named hs.core hn (Act.respond_settled disk hs.free r).outcome

/-- **The widgets of a host have words for names.** -/
theorem reachable_names (hr : h.Reachable) : h.core.Named := by
  obtain ⟨i, settings, policy, hsteps⟩ := hr
  induction hsteps with
  | refl => exact fun _ hmem => nomatch hmem
  | tail hbefore hstep ih =>
    exact step_named (steps_sound (new_sound i settings policy) hbefore) ih hstep

theorem isWord_of_get? (hr : h.Reachable) {widget : String} {s : WidgetState}
    (hs : h.widgets.get? widget = some s) : IsWord widget :=
  reachable_names hr widget (lookup_isSome.mp (Option.isSome_iff_exists.mpr ⟨s, hs⟩))

end

/-! ## Addresses -/

/-- A text without a point names no widget. -/
theorem split_of_not_mem {x : String} (hx : '.' ∉ x.toList) : Message.split x = (none, x) := by
  have hall : ∀ a ∈ x.toList, (a != '.') = true := by
    intro a ha
    rw [bne_iff_ne]
    rintro rfl
    exact hx ha
  have hnil : x.toList.dropWhile (· != '.') = [] := by
    rw [← List.append_nil x.toList, List.dropWhile_append_of_pos hall, List.dropWhile_nil]
  unfold Message.split
  simp only [hnil]

theorem point_mem (widget x : String) : '.' ∈ (widget ++ "." ++ x).toList := by
  simp

/-- An event with the name of a widget in front stays as it is. -/
theorem addressEvent_named (widget x : String) (args : List Value) :
    Interpreter.addressEvent widget "on" (.str (widget ++ "." ++ x) :: args)
      = .str (widget ++ "." ++ x) :: args := by
  rw [Interpreter.addressEvent, List.contains_iff_mem.mpr (point_mem widget x)]
  rfl

/-- The interpreter gives the handler the same arguments, whether the event has the name of the
widget in front or not. -/
theorem invoke_named (i : Interpreter) (σ : Store) (widget : String) {x : String}
    (hx : '.' ∉ x.toList) (args : List Value) (t : TableId) :
    i.invoke σ widget "on" (.str (widget ++ "." ++ x) :: args) t
      = i.invoke σ widget "on" (.str x :: args) t := by
  unfold Interpreter.invoke
  rw [addressEvent_named, addressEvent_point hx]

/-! ## Parameters -/

theorem Fields.get?_foldl_put {name : String} {pairs : List (String × Value)}
    (hn : name ∉ pairs.map (·.1)) : ∀ fs : Fields,
      (pairs.foldl (fun fs f => Fields.put f.1 f.2 fs) fs).get? name = fs.get? name := by
  induction pairs with
  | nil => exact fun _ => rfl
  | cons f rest ih =>
    intro fs
    obtain ⟨hne, hrest⟩ := not_or.mp (mt List.mem_cons.mpr hn)
    rw [List.foldl_cons, ih hrest, Fields.get?_put, if_neg (Ne.symm hne)]

theorem Scope.names_go (params : List String) : ∀ args : List Value,
    (Scope.ofParams.go params args).map (·.1) = params := by
  induction params with
  | nil => exact fun _ => rfl
  | cons p rest ih =>
    intro args
    cases args with
    | nil => exact congrArg (p :: ·) (ih [])
    | cons v vs => exact congrArg (p :: ·) (ih vs)

/-- The first parameter has the first argument, unless a later one has the same name. -/
theorem Scope.get?_ofParams_head {param : String} {rest : List String} (hn : param ∉ rest)
    (v : Value) (args : List Value) :
    (Scope.ofParams (param :: rest) (v :: args)).get? param = some v := by
  have hrest : param ∉ (Scope.ofParams.go rest args).map (·.1) := by rwa [Scope.names_go]
  show Fields.get? param (List.foldl _ [(param, v)] (Scope.ofParams.go rest args)) = _
  rw [Fields.get?_foldl_put hrest, Fields.get?, if_pos rfl]

/-! ## Messages -/

namespace Act

variable {h : Host Interpreter} {widget x : String} {s : WidgetState}

/-- **All ways to address an event are the same event**, whatever the handler does and however it
ends, and the handler's first parameter is bound to the event with the name of its widget in front.
Other arguments can only be sent by name. -/
theorem addressed_alike (hr : h.Reachable) (hs : h.widgets.get? widget = some s)
    (hx : '.' ∉ x.toList) (disk : Disk) (args : List Value) :
    respondWith disk (.send (.typed widget (widget ++ "." ++ x) args)) h
      = respondWith disk (.send (.typed widget x args)) h ∧
    respondWith disk (.send (.event (widget ++ "." ++ x))) h
      = respondWith disk (.send (.typed widget x [])) h ∧
    (h.engine.mainWidget? = some widget →
      respondWith disk (.send (.event x)) h = respondWith disk (.send (.typed widget x [])) h) ∧
    ∀ p decl fn, h.engine.program = some p → p.code.type? widget = some decl →
      decl.method? "on" = some fn →
      (∃ d, evaluationLimit = d + 1 ∧ respondWith disk (.send (.typed widget x args)) h
        = h.answered widget (h.store.copyTable s.table).1
            (h.engine.execute p (h.store.copyTable s.table).2 fn.line
              (Run.inCall (Scope.ofParams fn.paramNames (.str (widget ++ "." ++ x) :: args))
                (Run.last (exec d (p.context widget (h.store.copyTable s.table).1)) .nil
                  fn.body)))) ∧
      ∀ param rest, fn.paramNames = param :: rest →
        Scope.ofParams.go fn.paramNames (.str (widget ++ "." ++ x) :: args)
          = (param, .str (widget ++ "." ++ x)) :: Scope.ofParams.go rest args ∧
        (param ∉ rest →
          (Scope.ofParams fn.paramNames (.str (widget ++ "." ++ x) :: args)).get? param
            = some (.str (widget ++ "." ++ x))) := by
  have hb : h.busy = false := (reachable_sound hr).free
  have hw : IsWord widget := isWord_of_get? hr hs
  have htyped : ∀ event args, respondWith disk (.send (.typed widget event args)) h
      = h.answered widget (h.store.copyTable s.table).1
          (h.engine.invoke (h.store.copyTable s.table).2 widget "on" (.str event :: args)
            (h.store.copyTable s.table).1) :=
    fun event args => respond_addressed disk hb hw.ne_empty hs fun _ => rfl
  refine ⟨?_, ?_, fun hmain => ?_, fun p decl fn hp hd hon => ⟨?_, fun param rest hparams => ?_⟩⟩
  · rw [htyped, htyped, invoke_named _ _ _ hx]
  · rw [htyped, respond_event disk hb hw hs]
  · have haddress : ∀ g : Host Interpreter,
        address h.engine.mainWidget? (.event x) g = (.ok (some widget, x, []), g) := by
      intro g
      rw [address, split_of_not_mem hx, hmain]
      rfl
    rw [htyped, respond_addressed disk hb hw.ne_empty hs haddress]
  · refine ⟨1999, rfl, ?_⟩
    rw [htyped, Interpreter.invoke_method hp hd hon, addressEvent_point hx,
      show evaluationLimit = 1999 + 1 from rfl, Widgetry.call]
  · rw [hparams]
    exact ⟨rfl, fun hn => Scope.get?_ofParams_head hn _ _⟩

/-! ### A widget that keeps the event -/

/-- Two widgets, of which the last one is the main one; both keep the last event. -/
def keepingSource : String :=
  "type V is Widget \x7b\n last str = \"\"\n fn on(ev) \x7b last = ev \x7d\n\x7d\n" ++
  "type W is Widget \x7b\n last str = \"\"\n fn on(ev) \x7b last = ev \x7d\n\x7d"

def keeping : Host Interpreter := .ofSource keepingSource

theorem reachable_keeping : keeping.Reachable := reachable_ofSource keepingSource

/-- The text in a field after a message. -/
def keptText (m : Message) (widget : String) : Option String :=
  match (respondWith {} (.send m) keeping).2.field? widget "last" with
  | some (.scalar (.str s)) => some s
  | _ => none

theorem keptText_congr {m m' : Message} (widget : String)
    (h : respondWith {} (.send m) keeping = respondWith {} (.send m') keeping) :
    keptText m widget = keptText m' widget := by
  rw [keptText, h, keptText]

theorem keeping_computed :
    (keeping.widgets.get? "W").isSome = true ∧ (keeping.widgets.get? "V").isSome = true ∧
    keeping.engine.mainWidget? = some "W" ∧
    keptText (.typed "W" "Inc" []) "W" = some "W.Inc" ∧
    keptText (.typed "V" "Inc" []) "V" = some "V.Inc" := by
  decide +kernel

/-- The main widget can be addressed in four ways, the other one in three. -/
theorem keeping_alike : '.' ∉ "Inc".toList ∧
    keptText (.event "Inc") "W" = some "W.Inc" ∧ keptText (.event "W.Inc") "W" = some "W.Inc" ∧
    keptText (.typed "W" "W.Inc" []) "W" = some "W.Inc" ∧
    keptText (.event "V.Inc") "V" = some "V.Inc" ∧
    keptText (.typed "V" "V.Inc" []) "V" = some "V.Inc" := by
  obtain ⟨hW, hV, hmain, hkeptW, hkeptV⟩ := keeping_computed
  obtain ⟨s, hs⟩ := Option.isSome_iff_exists.mp hW
  obtain ⟨s', hs'⟩ := Option.isSome_iff_exists.mp hV
  have hx : '.' ∉ "Inc".toList := by decide
  obtain ⟨hqualified, hevent, hbare, -⟩ := addressed_alike reachable_keeping hs hx {} []
  obtain ⟨hqualified', hevent', -, -⟩ := addressed_alike reachable_keeping hs' hx {} []
  have hname : "W" ++ "." ++ "Inc" = "W.Inc" := by decide
  have hname' : "V" ++ "." ++ "Inc" = "V.Inc" := by decide
  rw [hname] at hqualified hevent
  rw [hname'] at hqualified' hevent'
  exact ⟨hx, (keptText_congr _ (hbare hmain)).trans hkeptW,
    (keptText_congr _ hevent).trans hkeptW, (keptText_congr _ hqualified).trans hkeptW,
    (keptText_congr _ hevent').trans hkeptV, (keptText_congr _ hqualified').trans hkeptV⟩

end Act

end Widgetry
