import Widgetry.Proofs.Host.Lifecycle
import Widgetry.Proofs.Host.Variables
import Widgetry.Proofs.Language.Writes

/-!
# What showing the main view changes

The view of the main widget is run on its table itself and on the variables of the program, and not
on copies as a handler is. So a view that assigns changes the host that shows it. All the rest
stays, whether there is something to show in the end or not.

> `shown_spares`: a field has another value after a request to show the main view only if it is one
> of the main widget, whose view is out of date, and an assignment to it stands in what that view
> may run. The same goes for variables that may be assigned to. Nothing is added or removed.

`view_counts` is a view that counts how often it is run.
-/

namespace Widgetry

/-- Whether a request for the main view runs a method of a program: the view of a widget that is the
main one and out of date. -/
structure Host.Redraws (h : Host Interpreter) (p : Program) (widget : String) (s : WidgetState)
    (view : FnDecl) : Prop where
  main : h.named? h.engine.mainWidget? = some (widget, s)
  stale : s.Stale
  program : h.engine.program = some p
  method : ∃ decl, p.code.type? widget = some decl ∧ decl.method? "view" = some view

/-! ## Methods -/

/-- **A method writes to no field and no variable but those that are assigned to in what it may
run.** -/
theorem invoke_spares {i i' : Interpreter} {σ σ' : Store} {widget method : String}
    {args : List Value} {t : TableId} {res : Except Fault Value}
    (hi : i.invoke σ widget method args t = (res, i', σ')) :
    (∀ field, (∀ p decl fn, i.program = some p → p.code.type? widget = some decl →
        decl.method? method = some fn → ¬ (p.context widget t).MayWriteField fn field) →
      (σ'.get t).get? field = (σ.get t).get? field) ∧
    ∀ g ∈ i.variables, ∃ g' ∈ i'.variables, g'.values.names = g.values.names ∧
      g'.consts = g.consts ∧ ∀ name, (name ∈ g.consts ∨ ∀ p decl fn, i.program = some p →
          p.code.type? widget = some decl → decl.method? method = some fn →
          ¬ (p.context widget t).MayWriteVariable fn (σ.get t).names name) →
        g'.get? name = g.get? name := by
  rcases i.invoke_cases σ widget method args t with ⟨e, hcall⟩ | ⟨p, decl, fn, hp, hd, hm, hcall⟩
  · cases hcall.symm.trans hi
    exact ⟨fun _ _ => rfl, fun g hg => ⟨g, hg, rfl, rfl, fun _ _ => rfl⟩⟩
  · cases hcall.symm.trans hi
    have hc : Footprint.Ok t (p.context widget t) := fun u hu => (Option.some.inj hu).symm
    let x := Interpreter.addressEvent widget method args
    let m : Machine := { globals := p.globals, store := σ, output := i.output }
    have hspares := call_spares hc evaluationLimit fn x m
    have htouches := call_touches hc evaluationLimit fn x m
    refine ⟨fun field hf => hspares.fields field (hf p decl fn hp hd hm), fun g hg => ?_⟩
    rw [Interpreter.variables, hp] at hg
    cases hg
    refine ⟨_, rfl, htouches.vars, htouches.consts, fun name hn => ?_⟩
    rcases hn with hconst | hn
    · exact call_constant hc evaluationLimit fn x m name hconst
    · exact hspares.vars name (hn p decl fn hp hd hm)

/-- A field is looked up in the table of its widget. -/
theorem Host.field?_eq_bind (h : Host Interpreter) (widget field : String) : h.field? widget field
    = ((h.widgets.get? widget).map (·.table)).bind fun t => (h.store.get t).get? field := by
  rw [Option.bind_map]
  rfl

namespace Act

variable {disk : Disk} {h h' : Host Interpreter} {r : Request}

/-! ## Requests for the main view -/

/-- What follows and changes nothing does not count. -/
theorem host_bind {α β : Type} (x : Act Interpreter α) {f : α → Act Interpreter β}
    (hf : ∀ a, Reads (f a)) (h : Host Interpreter) : ((x >>= f) h).2 = (x h).2 := by
  rw [run_bind]
  rcases x h with ⟨r, h'⟩
  cases r with
  | error e => rfl
  | ok a => exact hf a h'

/-- Whatever becomes of a main view, it is shown once. -/
theorem host_shows (disk : Disk) (hb : h.busy = false) (hr : r.Shows) :
    (respondWith disk r h).2
      = (mainView Interpreter.engine (runCallback Interpreter.engine disk) h).2 := by
  cases hr with
  | mainView => exact host_bind _ (fun _ => .pure _) h
  | render => exact (host_bind _ (fun _ => .pure _) h).trans (render_same h)
  | sameView =>
    refine (host_bind _ (fun _ => .pure _) h).trans ?_
    obtain ⟨r, h₁, hrun, hv⟩ := mainView_viewed disk hb
    rw [sameView, run_bind, hrun]
    cases r with
    | error e => rfl
    | ok n =>
      -- the second view finds the first one, and then it is only looked at
      refine (host_bind _ (fun _ => .bind .get fun _ => ?_) h₁).trans
        (mainView_again disk hv (settled_viewed hb hv).free)
      split <;> exact .pure _

/-- What a request for the main view can make of a host: nothing was run, or the view was, and the
widgets keep their tables. -/
theorem viewed_cases {a : Except Failure Node} (hv : Viewed h a h') :
    (h'.engine = h.engine ∧ h'.store = h.store ∧ h'.widgets = h.widgets) ∨
    ∃ widget s res, h.named? h.engine.mainWidget? = some (widget, s) ∧ s.Stale ∧
      h.engine.invoke h.store widget "view" [] s.table = (res, h'.engine, h'.store) ∧
      h'.widgets.map (·.1) = h.widgets.map (·.1) ∧
      ∀ name, (h'.widgets.get? name).map (·.table) = (h.widgets.get? name).map (·.table) := by
  cases hv with
  | noNode _ _ => exact Or.inl ⟨rfl, rfl, rfl⟩
  | result _ _ | cached _ _ _ => exact Or.inl ⟨engine_shown h, store_shown h, widgets_shown h⟩
  | failed hn hs hi | refused _ hn hs hi => exact Or.inr ⟨_, _, _, hn, hs, hi, rfl, fun _ => rfl⟩
  | @run widget s v n i σ hn hs hi _ =>
    refine Or.inr ⟨widget, s, .ok v, hn, hs, ?_, ?_, fun name => ?_⟩
    · rw [engine_shown, store_shown]
      exact hi
    · rw [widgets_shown, Host.widgets_viewed, Widgets.names_modify]
    · rw [widgets_shown, Host.widgets_viewed, Widgets.get?_modify]
      split
      · rw [Option.map_map]
        rfl
      · rfl

/-- A method that was run on the table of a widget changes no field but those of that widget that it
may assign to, and it adds and drops none. -/
theorem field?_invoked (hs : h.core.Sound) {main method : String} {s : WidgetState}
    {args : List Value} {res : Except Fault Value} (hmain : h.widgets.get? main = some s)
    (hi : h.engine.invoke h.store main method args s.table = (res, h'.engine, h'.store))
    (htables : ∀ name,
      (h'.widgets.get? name).map (·.table) = (h.widgets.get? name).map (·.table))
    (widget field : String) : (h'.field? widget field).isSome = (h.field? widget field).isSome ∧
      ((widget = main → ∀ p decl fn, h.engine.program = some p → p.code.type? main = some decl →
          decl.method? method = some fn → ¬ (p.context main s.table).MayWriteField fn field) →
        h'.field? widget field = h.field? widget field) := by
  obtain ⟨hfields, -⟩ := invoke_spares hi
  obtain ⟨-, hfoot⟩ := invoke_footprint hi
  rw [Host.field?_eq_bind, Host.field?_eq_bind, htables]
  cases hget : h.widgets.get? widget with
  | none => exact ⟨rfl, fun _ => rfl⟩
  | some s' =>
    show ((h'.store.get s'.table).get? field).isSome = ((h.store.get s'.table).get? field).isSome
      ∧ (_ → (h'.store.get s'.table).get? field = (h.store.get s'.table).get? field)
    by_cases hwidget : widget = main
    · subst hwidget
      obtain rfl : s = s' := Option.some.inj (hmain.symm.trans hget)
      have hhas : (h'.store.get s.table).has field = true
          ↔ (h.store.get s.table).has field = true := by
        rw [Fields.has_iff_mem_names, hfoot.names, Fields.has_iff_mem_names]
      exact ⟨Bool.eq_iff_iff.mpr hhas, fun hnot => hfields field (hnot rfl)⟩
    · -- the table of another widget is another one
      have hother : h'.store.get s'.table = h.store.get s'.table :=
        hfoot.others _ fun he => hwidget (hs.widgets.apart hget hmain he)
      rw [hother]
      exact ⟨rfl, fun _ => rfl⟩

/-- **Showing the main view changes no field and no variable that the view does not assign to.** The
same fields and variables are there afterwards, and the immutable ones have the values that they
had. -/
theorem shown_spares (hr : h.Reachable) (disk : Disk) (hshow : r.Shows) :
    (respondWith disk r h).2.widgets.map (·.1) = h.widgets.map (·.1) ∧
    (∀ widget field, ((respondWith disk r h).2.field? widget field).isSome
        = (h.field? widget field).isSome ∧
      ((∀ p s view, h.Redraws p widget s view →
          ¬ (p.context widget s.table).MayWriteField view field) →
        (respondWith disk r h).2.field? widget field = h.field? widget field)) ∧
    ∀ g ∈ h.engine.variables, ∃ g' ∈ (respondWith disk r h).2.engine.variables,
      g'.values.names = g.values.names ∧ g'.consts = g.consts ∧
      ∀ name, (name ∈ g.consts ∨ ∀ p widget s view, h.Redraws p widget s view →
          ¬ (p.context widget s.table).MayWriteVariable view (h.store.get s.table).names name) →
        g'.get? name = g.get? name := by
  have hs := reachable_sound hr
  rw [host_shows disk hs.free hshow]
  obtain ⟨a, h', hrun, hv⟩ := mainView_viewed disk hs.free
  rw [hrun]
  dsimp only
  rcases viewed_cases hv with ⟨he, hσ, hw⟩ | ⟨main, s, res, hn, hstale, hi, hnames, htables⟩
  · have hfield : ∀ widget field, h'.field? widget field = h.field? widget field := by
      intro widget field
      rw [Host.field?, hw, hσ, Host.field?]
    refine ⟨by rw [hw], fun widget field => ⟨by rw [hfield], fun _ => hfield _ _⟩, fun g hg => ?_⟩
    exact ⟨g, he ▸ hg, rfl, rfl, fun _ _ => rfl⟩
  · obtain ⟨-, hvars⟩ := invoke_spares hi
    have hredraws : ∀ {p decl view}, h.engine.program = some p → p.code.type? main = some decl →
        decl.method? "view" = some view → h.Redraws p main s view :=
      fun hp hd hm => ⟨hn, hstale, hp, _, hd, hm⟩
    refine ⟨hnames, fun widget field => ?_, fun g hg => ?_⟩
    · obtain ⟨hthere, hsame⟩ := field?_invoked hs.core (mem_named? hn).2 hi htables widget field
      refine ⟨hthere, fun hnot => hsame ?_⟩
      rintro rfl p decl view hp hd hm
      exact hnot p s view (hredraws hp hd hm)
    · obtain ⟨g', hg', hnames', hconsts, hvalues⟩ := hvars g hg
      refine ⟨g', hg', hnames', hconsts, fun name hname => hvalues name (hname.imp_right ?_)⟩
      exact fun hnot p decl view hp hd hm => hnot p main s view (hredraws hp hd hm)

/-! ## A view that counts -/

/-- The view calls a method that counts, and shows a field that it leaves alone. -/
def countingSource : String :=
  "var seen = 0\nvar limit = 5\n" ++
  "type W is Widget \x7b\n n int = 0\n k int = 7\n" ++
  " fn note() \x7b\n  n = n + 1\n  seen = seen + 1\n \x7d\n" ++
  " fn view() \x7b\n  note()\n  text(k)\n \x7d\n" ++
  " fn on(ev) \x7b k = limit \x7d\n\x7d"

def counting : Host Interpreter := .ofSource countingSource

theorem reachable_counting : counting.Reachable := reachable_ofSource countingSource

/-- Whether no assignment to a name stands in what the view of `W` may run. -/
def viewSpares (p : Program) (name : String) : Bool :=
  ((p.code.type? "W").bind (·.method? "view")).all fun view =>
    view.body.all fun s => Context.everywhere
      (fun _ q => match q with
        | .stmt (.assign target ..) => target.label != name
        | _ => true) 9 (p.context "W" ⟨0⟩) (.stmt s)

theorem counting_computed :
    counting.engine.program.all (fun p => viewSpares p "k" && viewSpares p "limit") = true ∧
    (counting.named? counting.engine.mainWidget?).all
      (fun w => w.1 == "W" && w.2.table.index == 0) = true ∧
    (counting.field? "W" "n").any (·.same (.int 0)) = true ∧
    ((respondWith {} .mainView counting).2.field? "W" "n").any (·.same (.int 0)) = false ∧
    wholeIn counting "limit" = some 5 := by
  decide +kernel

theorem label_of_viewSpares {p : Program} {decl : TypeDecl} {view : FnDecl} {name : String}
    (hp : viewSpares p name = true) (hd : p.code.type? "W" = some decl)
    (hm : decl.method? "view" = some view) {c : Context} {target : Target} {op : AssignOp}
    {e : Expr} {line : Nat}
    (hrun : (p.context "W" ⟨0⟩).MayRun view c (.stmt (.assign target op e line))) :
    target.label ≠ name := by
  rw [viewSpares, hd, Option.bind_some, hm, Option.all_some] at hp
  exact bne_iff_ne.mp (Context.test_of_mayRun hp hrun)

/-- What is run for the view is the method of `W` on the first table. -/
theorem counting_redraws {p : Program} {widget : String} {s : WidgetState} {view : FnDecl}
    (hr : counting.Redraws p widget s view) : widget = "W" ∧ s.table = ⟨0⟩ ∧
      ∀ name ∈ ["k", "limit"], ∀ c target op e line,
        (p.context widget s.table).MayRun view c (.stmt (.assign target op e line)) →
          target.label ≠ name := by
  obtain ⟨hspares, hmain, -⟩ := counting_computed
  rw [hr.main, Option.all_some] at hmain
  obtain ⟨hwidget, htable⟩ := Bool.and_eq_true_iff.mp hmain
  obtain rfl : widget = "W" := beq_iff_eq.mp hwidget
  have htable : s.table = ⟨0⟩ := congrArg TableId.mk (beq_iff_eq.mp htable)
  rw [hr.program, Option.all_some] at hspares
  obtain ⟨hk, hlimit⟩ := Bool.and_eq_true_iff.mp hspares
  obtain ⟨decl, hd, hm⟩ := hr.method
  refine ⟨rfl, htable, fun name hname c target op e line hrun => ?_⟩
  rw [htable] at hrun
  rcases List.mem_pair.mp hname with rfl | rfl
  · exact label_of_viewSpares hk hd hm hrun
  · exact label_of_viewSpares hlimit hd hm hrun

/-- The view leaves alone the field that it shows, and a variable that the handler reads. -/
theorem counting_spared :
    (respondWith {} .mainView counting).2.field? "W" "k" = counting.field? "W" "k" ∧
    ∃ g ∈ counting.engine.variables, ∃ g' ∈ (respondWith {} .mainView counting).2.engine.variables,
      g'.get? "limit" = g.get? "limit" := by
  obtain ⟨-, hfields, hvars⟩ := shown_spares reachable_counting {} .mainView
  have hsome : counting.engine.variables ≠ none := by
    intro hnone
    obtain ⟨-, -, -, -, hlimit⟩ := counting_computed
    rw [wholeIn, hnone] at hlimit
    cases hlimit
  obtain ⟨g, hg⟩ := Option.ne_none_iff_exists'.mp hsome
  obtain ⟨g', hg', -, -, hvalues⟩ := hvars g hg
  refine ⟨(hfields "W" "k").2 fun p s view hr => ?_, g, hg, g', hg', hvalues "limit" (.inr ?_)⟩
  · rintro ⟨c, target, op, e, line, hrun, -, hfield⟩
    obtain ⟨-, -, hlabel⟩ := counting_redraws hr
    exact hlabel "k" (by decide) _ _ _ _ _ hrun (Target.label_of_field? hfield)
  · rintro p widget s view hr ⟨c, target, op, e, line, hrun, hvariable, -⟩
    obtain ⟨-, -, hlabel⟩ := counting_redraws hr
    exact hlabel "limit" (by decide) _ _ _ _ _ hrun (Target.label_of_variable? hvariable)

/-- The field that it counts in has another value after it was shown. -/
theorem view_counts : ¬ ∀ h : Host Interpreter, h.Reachable → ∀ disk r, r.Shows →
    ∀ widget field, (respondWith disk r h).2.field? widget field = h.field? widget field := by
  intro hall
  obtain ⟨-, -, hbefore, hafter, -⟩ := counting_computed
  rw [hall counting reachable_counting {} .mainView .mainView "W" "n", hbefore] at hafter
  cases hafter

end Act

end Widgetry
