import Widgetry.Proofs.Generation.Handlers
import Widgetry.Proofs.Host.Schema
import Widgetry.Proofs.Language.Pieces
import Widgetry.Proofs.Language.Words

/-!
# Where the events of a view go

A view names the events of its widget by `Msg.x`. What such an expression comes to is a text with
the name of a widget in front, and a host that is sent the text looks for the widget by that name.

> `view_event_routed`: whatever a view of `W` runs, `Msg.x` is `W.x` in it as long as no function
> was called, and such an event comes back to the handler of `W` as that handler calls it. In a
> function, and in all that it calls, it is `Msg.x`, and that comes back only if `W` is called `Msg`.

What a view may run is `Context.MayRun`. A context is that of the widget or of no widget
(`mayRun_context`), so only two names can stand in front. That the host splits the text where they
were put together needs names to be words.
-/

namespace Widgetry

/-- Whether all names in a part of a program are words. -/
def Piece.Worded : Piece → Prop
  | .expr e => e.Worded
  | .stmt s => s.Worded

/-- The text of an event where the name `Msg` is free. -/
def Context.eventName (c : Context) (x : String) : String := c.widget.getD "Msg" ++ "." ++ x

/-! ## Names in what is run -/

section Names

variable {c c₀ : Context} {fn fn₀ : FnDecl}

theorem parts_worded {q r : Piece} (hq : q.Worded) (h : r ∈ q.parts) : r.Worded := by
  have hexprs : ∀ {es : List Expr}, WordedItems es → r ∈ es.map Piece.expr → r.Worded := by
    intro es hes hm
    obtain ⟨e, he, rfl⟩ := List.mem_map.mp hm
    exact hes e he
  have hstmts : ∀ {ss : List Stmt}, WordedBody ss → r ∈ ss.map Piece.stmt → r.Worded := by
    intro ss hss hm
    obtain ⟨s, hs, rfl⟩ := List.mem_map.mp hm
    exact hss s hs
  cases q with
  | expr e =>
    have he : e.Worded := hq
    show r.Worded
    replace h : r ∈ e.parts := h
    cases he with
    | literal => cases h
    | ident _ => cases h
    | array hitems => exact hexprs hitems h
    | unary ho =>
      cases List.mem_singleton.mp h
      exact ho
    | binary hl hr =>
      rcases List.mem_cons.mp h with rfl | h
      · exact hl
      · cases List.mem_singleton.mp h
        exact hr
    | member ho _ =>
      cases List.mem_singleton.mp h
      exact ho
    | call _ hargs => exact hexprs hargs h
    | node _ hargs _ hprops hbody =>
      rcases List.mem_append.mp h with h | h
      · rcases List.mem_append.mp h with h | h
        · exact hexprs hargs h
        · obtain ⟨p, hp, rfl⟩ := List.mem_map.mp h
          exact hprops p hp
      · exact hstmts hbody h
  | stmt s =>
    have hs : s.Worded := hq
    replace h : r ∈ s.parts := h
    cases hs with
    | expr he =>
      cases List.mem_singleton.mp h
      exact he
    | bind _ hv =>
      cases List.mem_singleton.mp h
      exact hv
    | assign _ hv =>
      cases List.mem_singleton.mp h
      exact hv
    | choose hsubject hpatterns hbodies =>
      rcases List.mem_cons.mp h with rfl | h
      · exact hsubject
      · obtain ⟨a, ha, h⟩ := List.mem_flatMap.mp h
        rcases List.mem_append.mp h with h | h
        · exact hexprs (fun e he => hpatterns a ha e (Option.mem_toList.mp he)) h
        · exact hstmts (hbodies a ha) h
    | each _ hitems hbody =>
      rcases List.mem_cons.mp h with rfl | h
      · exact hitems
      · exact hstmts hbody h
    | fn => cases h
    | type => cases h

theorem types_worded {k : Code} (hk : WordedBody k.stmts) {decl : TypeDecl} (h : decl ∈ k.types) :
    IsWord decl.name ∧ ∀ fn ∈ decl.methods, Stmt.Worded (.fn fn) := by
  obtain ⟨s, hs, hdecl⟩ := List.mem_filterMap.mp h
  cases s with
  | type decl' =>
    cases hdecl
    cases hk _ hs with
    | type hword _ _ hmethods => exact ⟨hword, hmethods⟩
  | _ => cases hdecl

/-- A type that is found in a code is declared there. -/
theorem type?_worded {k : Code} (hk : WordedBody k.stmts) {name : String} {decl : TypeDecl}
    (h : k.type? name = some decl) : IsWord name ∧ ∀ fn ∈ decl.methods, Stmt.Worded (.fn fn) := by
  have hname : decl.name = name := by simpa using List.find?_some h
  rw [← hname]
  exact types_worded hk (List.mem_reverse.mp (List.mem_of_find?_eq_some h))

theorem widgetNames_worded {k : Code} (hk : WordedBody k.stmts) {name : String}
    (h : name ∈ Program.widgetNames k) : IsWord name := by
  obtain ⟨decl, hdecl, rfl⟩ := List.mem_map.mp h
  exact (types_worded hk (List.mem_filter.mp hdecl).1).1

theorem function?_worded {k : Code} (hk : WordedBody k.stmts) {name : String}
    (h : k.function? name = some fn) : Stmt.Worded (.fn fn) := by
  have hmem := List.mem_reverse.mp (List.mem_of_find?_eq_some h)
  obtain ⟨s, hs, hfn⟩ := List.mem_filterMap.mp hmem
  cases s with
  | fn fn' =>
    cases hfn
    exact hk _ hs
  | _ => cases hfn

theorem method?_worded {k : Code} (hk : WordedBody k.stmts) {name method : String}
    {decl : TypeDecl} (hd : k.type? name = some decl) (h : decl.method? method = some fn) :
    WordedBody fn.body := by
  cases (type?_worded hk hd).2 fn (List.mem_of_find?_eq_some h) with
  | fn _ _ hbody => exact hbody

/-- Names in all that a method of a parsed text runs are words. -/
theorem mayRun_worded (hk : WordedBody c₀.code.stmts) (hbody : WordedBody fn₀.body) {q : Piece}
    (h : c₀.MayRun fn₀ c q) : q.Worded := by
  induction h with
  | body hs => exact hbody _ hs
  | part _ hr ih => exact parts_worded ih hr
  | @call c c' e fn s hrun hcall hs ih =>
    have hcode : c.code = c₀.code := by
      rcases Context.mayRun_context hrun with rfl | rfl
      · rfl
      · rfl
    rw [← hcode] at hk
    rcases Context.callee?_cases hcall with ⟨-, name, hfn⟩ | ⟨-, name, hfn⟩
    · cases function?_worded hk hfn with
      | fn _ _ hbody => exact hbody s hs
    · obtain ⟨widget, -, hfn⟩ := Option.bind_eq_some_iff.mp hfn
      obtain ⟨decl, hd, hfn⟩ := Option.bind_eq_some_iff.mp hfn
      exact method?_worded hk hd hfn s hs

end Names

/-! ## Texts of events -/

/-- Where the name `Msg` is free it stands for the running widget, or for itself. -/
theorem eval_event {c : Context} {m : Machine} (hm : m.slot? c "Msg" = none) (d : Nat) (x : String)
    (l l' : Nat) :
    eval (d + 1) c (.member (.ident "Msg" l) x l') m = (.ok (.str (c.eventName x)), m) := by
  rw [eval, Run.eventOf, Run.run_bind_ok (Run.run_get m), hm]
  rfl

/-- A text is split at its first point. -/
theorem split_point {w : String} (hw : '.' ∉ w.toList) (x : String) :
    Message.split (w ++ "." ++ x) = (some w, x) := by
  have hlist : (w ++ "." ++ x).toList = w.toList ++ '.' :: x.toList := by simp
  have hfront : ∀ a ∈ w.toList, (a != '.') = true := by
    intro a ha
    rw [bne_iff_ne]
    rintro rfl
    exact hw ha
  unfold Message.split
  simp only [hlist, List.dropWhile_append_of_pos hfront, List.takeWhile_append_of_pos hfront]
  simp

/-- An event of a widget is for the widget. -/
theorem recipient_event {w : String} (hw : IsWord w) (main : Option String) (x : String) :
    (Message.event (w ++ "." ++ x)).recipient? main = some w := by
  rw [Message.recipient?, split_point (hw.not_mem (by decide))]
  exact if_neg hw.ne_empty

/-! ## Events that are sent -/

namespace Host

variable (h : Host Interpreter)

/-- The host after a handler was run on a copy of the fields of a widget, and its answer. -/
def answered (widget : String) (t : TableId) :
    Except Fault Value × Interpreter × Store → Except Failure Answer × Host Interpreter
  | (.ok _, i, σ) => (.ok .done, h.handled i σ widget t)
  | (.error f, i, σ) => (.error (Act.methodError f), h.ran i σ)

/-- Whether an event with a text is handled by a widget of a program, whose method `on` gets a
value for it. -/
def Handles (p : Program) (widget text : String) (v : Value) : Prop :=
  ∃ s, h.widgets.get? widget = some s ∧ ∀ decl fn, p.code.type? widget = some decl →
    decl.method? "on" = some fn → ∀ disk,
      Act.respondWith disk (.send (.event text)) h
        = h.answered widget (h.store.copyTable s.table).1
            (h.engine.execute p (h.store.copyTable s.table).2 fn.line
              (Widgetry.call evaluationLimit (p.context widget (h.store.copyTable s.table).1) fn
                [v]))

end Host

section Sent

variable {h : Host Interpreter} {widget x : String} {s : WidgetState}

/-- A message for a widget runs the method `on` of the widget. -/
theorem respond_addressed (disk : Disk) (hb : h.busy = false) (hw : widget ≠ "")
    (hs : h.widgets.get? widget = some s) {m : Message} {args : List Value}
    (ha : ∀ g : Host Interpreter,
      Act.address h.engine.mainWidget? m g = (.ok (some widget, x, args), g)) :
    Act.respondWith disk (.send m) h
      = h.answered widget (h.store.copyTable s.table).1
          (h.engine.invoke (h.store.copyTable s.table).2 widget "on" (.str x :: args)
            (h.store.copyTable s.table).1) := by
  let t := (h.store.copyTable s.table).1
  let b : Host Interpreter := { h with busy := true }
  let copied : Host Interpreter := { b with store := (h.store.copyTable s.table).2 }
  have hnamed : b.named? (some widget) = some (widget, s) := Act.named?_of_get? hw hs
  rcases hi : h.engine.invoke (h.store.copyTable s.table).2 widget "on" (.str x :: args) t with
    ⟨r, i, σ⟩
  -- once it is known whom the message is for, all depends on how the handler ends
  have hdeliver : ∀ {r' : Except Failure Unit} {h' : Host Interpreter},
      (do
        let _ ← Act.invoke Interpreter.engine (Act.runCallback Interpreter.engine disk) widget "on"
          (.str x :: args) t
        Act.modify fun h => { h with
          widgets := h.widgets.modify widget fun s => { s with table := t, dirty := true } })
        copied = (r', h') →
      Act.deliver Interpreter.engine (Act.runCallback Interpreter.engine disk) m b
        = (r', h') := by
    intro r' h' hrun
    rw [Act.deliver, Act.run_bind_ok (Act.run_get b), Act.engine_main, Act.run_bind_ok (ha b)]
    simp only [hnamed]
    rw [Act.run_bind_ok (Act.run_modify _ b)]
    exact hrun
  cases r with
  | error f =>
    have hrun := Act.run_bind_error (f := fun _ => Act.modify fun h => { h with
      widgets := h.widgets.modify widget fun s => { s with table := t, dirty := true } })
      (Act.invoke_error disk (h := copied) hi)
    exact Act.run_bind_error (Act.run_exclusive (h.ran i σ) hb hb (hdeliver hrun))
  | ok v =>
    have hrun := Act.run_bind_ok (f := fun _ => Act.modify fun h => { h with
      widgets := h.widgets.modify widget fun s => { s with table := t, dirty := true } })
      (Act.invoke_ok disk (h := copied) hi)
    exact Act.run_bind_ok (Act.run_exclusive (h.handled i σ widget t) hb hb (hdeliver hrun))

theorem address_event (hw : IsWord widget) (main : Option String) (x : String)
    (g : Host Interpreter) :
    Act.address main (.event (widget ++ "." ++ x)) g = (.ok (some widget, x, []), g) := by
  rw [Act.address, split_point (hw.not_mem (by decide))]
  simp only [if_neg hw.ne_empty]
  rfl

/-- An event of a widget runs the method `on` of the widget. -/
theorem respond_event (disk : Disk) (hb : h.busy = false) (hw : IsWord widget)
    (hs : h.widgets.get? widget = some s) :
    Act.respondWith disk (.send (.event (widget ++ "." ++ x))) h
      = h.answered widget (h.store.copyTable s.table).1
          (h.engine.invoke (h.store.copyTable s.table).2 widget "on" [.str x]
            (h.store.copyTable s.table).1) :=
  respond_addressed disk hb hw.ne_empty hs (address_event hw _ x)

/-- The handler gets an event without a widget as one of its own widget. -/
theorem addressEvent_point {args : List Value} (hx : '.' ∉ x.toList) :
    Interpreter.addressEvent widget "on" (.str x :: args)
      = .str (widget ++ "." ++ x) :: args := by
  have hpoint : x.toList.contains '.' = false := by
    rw [← Bool.not_eq_true, List.contains_iff_mem]
    exact hx
  rw [Interpreter.addressEvent, hpoint]
  rfl

/-- The handler gets the event as its own code calls it. -/
theorem handles_event {p : Program} (hb : h.busy = false) (hp : h.engine.program = some p)
    (hs : h.widgets.get? widget = some s) (hw : IsWord widget) (hx : IsWord x) :
    h.Handles p widget (widget ++ "." ++ x) (.str (widget ++ "." ++ x)) := by
  refine ⟨s, hs, ?_⟩
  intro decl fn hd hon disk
  rw [respond_event disk hb hw hs, Interpreter.invoke_method hp hd hon,
    addressEvent_point (hx.not_mem (by decide))]

end Sent

/-! ## Programs of hosts -/

/-- Whether the program of an interpreter is that of a text, if there is a program. -/
def Interpreter.Parsed (i : Interpreter) : Prop :=
  ∀ p, i.program = some p → ∃ source, parse source none = .ok p.code

theorem Interpreter.Parsed.same {i i' : Interpreter} (hi : i.Parsed) (hs : i.SameProgram i') :
    i'.Parsed := by
  intro p hp
  unfold Interpreter.SameProgram at hs
  rw [hp] at hs
  cases hq : i.program with
  | none =>
    rw [hq] at hs
    cases hs
  | some q =>
    rw [hq] at hs
    cases hs with
    | some hbut =>
      rw [hbut.code]
      exact hi q hq

theorem interpret_parsed {i i' : Interpreter} {source : String} {v : Value}
    (h : i.interpret source none = (.ok v, i')) : i'.Parsed := by
  obtain ⟨code, p, _, hparse, -, hp, hcode, -⟩ := interpret_wellFormed h
  intro q hq
  cases hp.symm.trans hq
  exact ⟨source, by rw [hcode, hparse]⟩

theorem outcome_parsed {h : Host Interpreter} {c : Host.Core} (hi : h.engine.Parsed)
    (ho : h.Outcome c) : c.engine.Parsed := by
  cases ho with
  | kept hp => exact hi.same (.of_eq hp)
  | loaded hrun => exact interpret_parsed hrun
  | reloaded hrun => exact interpret_parsed hrun
  | viewFailed _ _ hrun => exact hi.same (invoke_footprint hrun).1
  | viewed _ _ hrun _ => exact hi.same (invoke_footprint hrun).1
  | handlerFailed _ hrun => exact hi.same (invoke_footprint hrun).1
  | handled _ hrun => exact hi.same (invoke_footprint hrun).1
  | written _ _ => exact hi.same (.of_eq rfl)

theorem step_parsed {h h' : Host Interpreter} (hs : h.Sound) (hi : h.engine.Parsed)
    (hstep : h.Step h') : h'.engine.Parsed := by
  obtain ⟨disk, r, rfl⟩ := hstep
  exact outcome_parsed hi (Act.respond_settled disk hs.free r).outcome

/-- A host has no program but of a text that was parsed. -/
theorem reachable_parsed {h : Host Interpreter} (hr : h.ReachableAnew) : h.engine.Parsed := by
  obtain ⟨settings, policy, hsteps⟩ := hr
  induction hsteps with
  | refl => exact fun _ hp => nomatch hp
  | tail hbefore hstep ih =>
    exact step_parsed (steps_sound (new_sound {} settings policy) hbefore) ih hstep

/-- A type with a view is a widget, and so the host of a program has it. -/
theorem viewed_widget {h : Host Interpreter} (hr : h.ReachableAnew) {p : Program}
    (hp : h.engine.program = some p) {widget : String} {decl : TypeDecl}
    (hd : p.code.type? widget = some decl) (hv : (decl.method? "view").isSome) :
    ∃ s, h.widgets.get? widget = some s := by
  have hwidget : p.HasWidget widget := by
    have hname : decl.name = widget := by simpa using List.find?_some hd
    have htype : decl ∈ p.code.types := List.mem_reverse.mp (List.mem_of_find?_eq_some hd)
    have his : decl.isWidget = true := by rw [TypeDecl.isWidget, hv, Bool.or_true]
    exact List.mem_map.mpr ⟨decl, List.mem_filter.mpr ⟨htype, his⟩, hname⟩
  exact get?_of_declared (reachable_declared hr) hp hwidget

/-! ## Events of views -/

/-- **An event that a view names comes back to its widget, unless a function named it**: in a
function it is called an event of `Msg`, whatever widget is shown. -/
theorem view_event_routed {h : Host Interpreter} (hr : h.ReachableAnew) {p : Program}
    (hp : h.engine.program = some p) {widget : String} {decl : TypeDecl}
    (hd : p.code.type? widget = some decl) {fn : FnDecl} (hv : decl.method? "view" = some fn)
    {t : TableId} {c : Context} {x : String} {l l' : Nat}
    (hrun : (p.context widget t).MayRun fn c (.expr (.member (.ident "Msg" l) x l'))) :
    (c = p.context widget t ∨ c = (p.context widget t).ofFunction) ∧
    (∀ d m, m.slot? c "Msg" = none →
      eval (d + 1) c (.member (.ident "Msg" l) x l') m = (.ok (.str (c.eventName x)), m)) ∧
    ((Message.event (c.eventName x)).recipient? h.engine.mainWidget? = some widget ↔
      c.widget = some widget ∨ widget = "Msg") ∧
    (c.widget = some widget ∨ widget = "Msg" →
      ∃ v, h.Handles p widget (c.eventName x) v ∧
        ∀ u d m, m.slot? (p.context widget u) "Msg" = none →
          eval (d + 1) (p.context widget u) (.member (.ident "Msg" l) x l') m = (.ok v, m)) := by
  obtain ⟨source, hparse⟩ := reachable_parsed hr p hp
  have hk : WordedBody (p.context widget t).code.stmts := parse_worded hparse
  have hwidget : IsWord widget := (type?_worded hk hd).1
  have hx : IsWord x := by
    have hq : Expr.Worded _ := mayRun_worded hk (method?_worded hk hd hv) hrun
    cases hq with
    | member _ hx => exact hx
  have hcontext := Context.mayRun_context hrun
  -- what stands in front of the event
  have hfront : c.widget = some widget ∨ c.widget = none := by
    rcases hcontext with rfl | rfl
    · exact Or.inl rfl
    · exact Or.inr rfl
  have hmsg : IsWord "Msg" := ⟨by decide, List.all_eq_true.mp (by decide +kernel)⟩
  have hown : c.widget = some widget ∨ widget = "Msg" → c.eventName x = widget ++ "." ++ x := by
    intro hc
    unfold Context.eventName
    rcases hc with hc | rfl
    · rw [hc]
      rfl
    · rcases hfront with hc | hc
      · rw [hc]
        rfl
      · rw [hc]
        rfl
  refine ⟨hcontext, fun d m hm => eval_event hm d x l l', ⟨fun hto => ?_, fun hc => ?_⟩, ?_⟩
  · rcases hfront with hc | hc
    · exact Or.inl hc
    · rw [Context.eventName, hc, Option.getD_none, recipient_event hmsg] at hto
      exact Or.inr (Option.some.inj hto).symm
  · rw [hown hc]
    exact recipient_event hwidget _ x
  · intro hc
    obtain ⟨s, hs⟩ := viewed_widget hr hp hd (Option.isSome_iff_exists.mpr ⟨fn, hv⟩)
    refine ⟨.str (widget ++ "." ++ x), ?_, fun u d m hm => eval_event hm d x l l'⟩
    rw [hown hc]
    exact handles_event (reachable_sound hr.reachable).free hp hs hwidget hx

/-! ## A button in a method and in a function -/

/-- The line numbers of the event `Inc`, if a body is a node that has it for its only property. -/
def incLines? : List Stmt → Option (Nat × Nat)
  | [.expr (.node _ _ [⟨_, .member (.ident "Msg" l) "Inc" l', _⟩] _ _) _] => some (l, l')
  | _ => none

/-- The expression that a body consists of. -/
def soleExpr? : List Stmt → Option Expr
  | [.expr e _] => some e
  | _ => none

/-- What the view of `W` calls, and where the event `Inc` stands there. -/
def calledInc? (p : Program) : Option (Context × Nat × Nat) := do
  let decl ← p.code.type? "W"
  let view ← decl.method? "view"
  let e ← soleExpr? view.body
  let (c, row) ← (p.context "W" ⟨0⟩).callee? e
  let lines ← incLines? row.body
  return (c, lines)

theorem mayRun_called {p : Program} {c : Context} {l l' : Nat}
    (h : calledInc? p = some (c, l, l')) : ∃ decl view, p.code.type? "W" = some decl ∧
      decl.method? "view" = some view ∧
      (p.context "W" ⟨0⟩).MayRun view c (.expr (.member (.ident "Msg" l) "Inc" l')) := by
  simp only [calledInc?, Option.bind_eq_bind, Option.bind_eq_some_iff, Option.pure_def] at h
  obtain ⟨decl, hd, view, hview, e, he, ⟨c', row⟩, hcall, ⟨l₁, l₂⟩, hlines, hresult⟩ := h
  cases hresult
  refine ⟨decl, view, hd, hview, ?_⟩
  unfold soleExpr? at he
  split at he
  · next e' line hbody =>
    cases he
    have hstmt : (p.context "W" ⟨0⟩).MayRun view (p.context "W" ⟨0⟩) (.stmt (.expr e line)) :=
      .body (by rw [hbody]; exact List.mem_singleton_self _)
    have hexpr := hstmt.part (r := .expr e) (List.mem_singleton_self _)
    unfold incLines? at hlines
    split at hlines
    · next hrow =>
      cases hlines
      have hnode := Context.MayRun.call hexpr hcall (by rw [hrow]; exact List.mem_singleton_self _)
      refine (hnode.part (List.mem_singleton_self _)).part ?_
      simp [Piece.parts, Expr.parts]
    · cases hlines
  · cases he

/-- A widget with a button that is made in a method. -/
def methodSource : String :=
  "type W is Widget \x7b\n n int = 0\n fn view() \x7b self.row() \x7d\n" ++
  " fn row() \x7b button(\"+\") \x7b onclick: Msg.Inc \x7d \x7d\n" ++
  " fn on(ev) \x7b n = n + 1 \x7d\n\x7d"

def withMethod : Host Interpreter :=
  (Act.respondWith {} (.interpret methodSource) (Host.new {} {} none)).2

theorem reachable_withMethod : withMethod.ReachableAnew := ⟨{}, none, .tail .refl ⟨{}, _, rfl⟩⟩

/-- The button comes back to the widget. -/
theorem method_event_routed : ∃ p c l l' v, withMethod.engine.program = some p ∧
    calledInc? p = some (c, l, l') ∧ c.eventName "Inc" = "W.Inc" ∧
    withMethod.Handles p "W" (c.eventName "Inc") v := by
  have hcalled : (withMethod.engine.program.bind calledInc?).map (·.1.widget)
      = some (some "W") := by
    decide +kernel
  obtain ⟨⟨c, l, l'⟩, hinc, hwidget⟩ := Option.map_eq_some_iff.mp hcalled
  obtain ⟨p, hp, hinc⟩ := Option.bind_eq_some_iff.mp hinc
  obtain ⟨decl, view, hd, hview, hrun⟩ := mayRun_called hinc
  obtain ⟨-, -, -, hback⟩ := view_event_routed reachable_withMethod hp hd hview hrun
  obtain ⟨v, hhandles, -⟩ := hback (Or.inl hwidget)
  refine ⟨p, c, l, l', v, hp, hinc, ?_, hhandles⟩
  rw [Context.eventName, show c.widget = some "W" from hwidget]
  decide

/-- The same widget with a button that is made in a function. -/
def functionSource : String :=
  "fn row() \x7b button(\"+\") \x7b onclick: Msg.Inc \x7d \x7d\n" ++
  "type W is Widget \x7b\n n int = 0\n fn view() \x7b row() \x7d\n" ++
  " fn on(ev) \x7b n = n + 1 \x7d\n\x7d"

def withFunction : Host Interpreter :=
  (Act.respondWith {} (.interpret functionSource) (Host.new {} {} none)).2

/-- A host that has shown it. -/
def afterView : Host Interpreter := (Act.respondWith {} .mainView withFunction).2

/-- The text that a node has for a property. -/
def Node.textProp? (n : Node) (name : String) : Option String :=
  match n.prop? name with
  | some (.str s) => some s
  | _ => none

/-- What the button in a view sends when it is clicked. -/
def clicked? : Except Failure Answer → Option String
  | .ok (.node n) => n.textProp? "onclick"
  | _ => none

/-- The name of a widget that is not there. -/
def missing? : Except Failure Answer → Option String
  | .error (.refused (.noWidget name)) => some name
  | _ => none

/-- **The button of the view sends an event that no widget takes**, though the widget takes the
event that it stands for. -/
theorem function_event_lost : ∃ p c l l', withFunction.engine.program = some p ∧
    calledInc? p = some (c, l, l') ∧
    (∃ n, (Act.respondWith {} .mainView withFunction).1 = .ok (.node n) ∧
      n.textProp? "onclick" = some (c.eventName "Inc")) ∧
    (Act.respondWith {} (.send (.event (c.eventName "Inc"))) afterView).1
      = .error (.refused (.noWidget "Msg")) ∧
    (Act.respondWith {} (.send (.event ((p.context "W" ⟨0⟩).eventName "Inc"))) afterView).1.isOk
      = true := by
  -- one evaluation, so that the text is parsed only once
  obtain ⟨hcalled, hclicked, hmissing, htaken⟩ :
      (withFunction.engine.program.bind calledInc?).map (·.1.widget) = some none ∧
      clicked? (Act.respondWith {} .mainView withFunction).1 = some "Msg.Inc" ∧
      missing? (Act.respondWith {} (.send (.event "Msg.Inc")) afterView).1 = some "Msg" ∧
      (Act.respondWith {} (.send (.event "W.Inc")) afterView).1.isOk = true := by
    decide +kernel
  obtain ⟨⟨c, l, l'⟩, hinc, hwidget⟩ := Option.map_eq_some_iff.mp hcalled
  obtain ⟨p, hp, hinc⟩ := Option.bind_eq_some_iff.mp hinc
  have hname : c.eventName "Inc" = "Msg.Inc" := by
    rw [Context.eventName, show c.widget = none from hwidget]
    decide
  have hown : (p.context "W" ⟨0⟩).eventName "Inc" = "W.Inc" := by
    show "W" ++ "." ++ "Inc" = "W.Inc"
    decide
  refine ⟨p, c, l, l', hp, hinc, ?_, ?_, ?_⟩
  · rw [hname]
    unfold clicked? at hclicked
    split at hclicked
    · next n hn => exact ⟨n, hn, hclicked⟩
    · cases hclicked
  · rw [hname]
    unfold missing? at hmissing
    split at hmissing
    · next name hn =>
      cases hmissing
      exact hn
    · cases hmissing
  · rw [hown]
    exact htaken

end Widgetry
