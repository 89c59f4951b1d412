import Widgetry.Generation.Component
import Widgetry.Language.Interpreter

/-!
# The arm that an event picks

An event method whose body is `is ev` with some arms is read twice: the interpreter runs it, and
the generator turns its arms into the cases of a `match`. Both pick the body of one arm for an event
of a variant `v`, and this file says which, and when the two agree.

> `invoke_on_eq_arm`: run on the event `W.v`, the method runs the body of the first arm that
> *answers* to `v`: the first that is `Msg.v` or has no pattern.

> `handlerOf_eq_arm`: the generated method runs, for `v`, the body of the first arm that *names*
> `v`: an arm without a pattern is passed over, wherever it stands.

Every variant has a case of its own, and a case without an arm is empty; so the case that stands for
everything is never reached. The two agree exactly when the arm that answers is not one without a
pattern (`generated_handler_agrees_iff`), but for bodies that happen to be the same and for a
variant that is itself called `_`.
-/

namespace Widgetry

/-! ## Arms -/

namespace Arm

/-- Whether the pattern of an arm is `Msg.v`. -/
def names (v : String) (a : Arm) : Bool :=
  match a.pattern with
  | some (.member (.ident "Msg" _) x _) => x == v
  | _ => false

/-- Whether an event of a variant picks an arm if no arm before it does. -/
def answers (v : String) (a : Arm) : Bool := a.pattern.isNone || a.names v

/-- Whether an arm is for one variant or for everything. -/
def IsForEvents (a : Arm) : Prop :=
  a.pattern = none ∨ ∃ x l l', a.pattern = some (.member (.ident "Msg" l) x l')

/-- The statements of an arm; none if there is no arm. -/
def bodyOf (a : Option Arm) : List Stmt := (a.map (·.body)).getD []

end Arm

/-- Runs an arm that was picked. -/
def Run.armBody (d : Nat) (c : Context) : Option Arm → Run Value
  | some a => inScope {} (last (exec d c) .nil a.body)
  | none => pure .nil

/-! ## What the interpreter picks -/

section Interpreter

variable {c : Context} {m : Machine} {w v : String}

/-- Texts behind one widget and a point are equal if the texts are. -/
theorem append_point_beq (w x v : String) : (w ++ "." ++ x == w ++ "." ++ v) = (x == v) := by
  rw [Bool.eq_iff_iff]
  simp [String.ext_iff]

theorem read_str (σ : Store) (s : String) : σ.read (.str s) = .str s := rfl

/-- `Msg.x` is an event of the running widget. -/
theorem eventOf_free (hc : c.widget = some w) (hm : m.slot? c "Msg" = none) (x : String)
    (line : Nat) : Run.eventOf c x line m = (.ok (.str (w ++ "." ++ x)), m) := by
  simp [Run.eventOf, Run.run_bind, hm, hc]

/-- An arm takes an event if it answers to its variant. -/
theorem takes_eq_answers (hc : c.widget = some w) (hm : m.slot? c "Msg" = none) (d : Nat)
    {a : Arm} (ha : a.IsForEvents) :
    Run.takes (eval (d + 1) c) (.str (w ++ "." ++ v)) a.pattern m = (.ok (a.answers v), m) := by
  rcases ha with hp | ⟨x, l, l', hp⟩
  · simp [Arm.answers, hp, Run.takes]
  · have he : eval (d + 1) c (.member (.ident "Msg" l) x l') m
        = (.ok (.str (w ++ "." ++ x)), m) := by
      rw [eval]
      exact eventOf_free hc hm x l'
    have hs : Arm.answers v a = (x == v) := by simp [Arm.answers, Arm.names, hp]
    rw [hp, Run.takes, Run.run_bind_ok he, hs]
    simp [Run.same, Run.run_bind, read_str, Value.same, Scalar.same, append_point_beq]

/-- The first arm that takes an event is the first that answers to its variant. -/
theorem firstWhere_takes (hc : c.widget = some w) (hm : m.slot? c "Msg" = none) (d : Nat) :
    ∀ (arms : List Arm), (∀ a ∈ arms, a.IsForEvents) →
      Run.firstWhere (fun a : Arm =>
        Run.takes (eval (d + 1) c) (.str (w ++ "." ++ v)) a.pattern) arms m
        = (.ok (arms.find? (·.answers v)), m) := by
  intro arms
  induction arms with
  | nil => intro _; rfl
  | cons a rest ih =>
    intro h
    have ha := takes_eq_answers (v := v) hc hm d (h a List.mem_cons_self)
    rw [Run.firstWhere, Run.run_bind_ok ha, List.find?_cons]
    cases a.answers v with
    | true => rfl
    | false => simpa using ih fun b hb => h b (List.mem_cons_of_mem _ hb)

/-- A method that chooses by its parameter runs the arm that answers to the event. -/
theorem call_on_eq_arm {fn : FnDecl} {ev : String} {arms : List Arm} {l l' : Nat}
    (hp : fn.paramNames = [ev]) (hb : fn.body = [.choose (.ident ev l) arms l'])
    (ha : ∀ a ∈ arms, a.IsForEvents) (hself : ev ≠ "self") (hev : ev ≠ "Msg")
    (hc : c.widget = some w) (d : Nat)
    (hm : Machine.slot? { m with locals := [], children := none } c "Msg" = none) :
    call (d + 3) c fn [.str (w ++ "." ++ v)] m
      = Run.inCall (.ofParams [ev] [.str (w ++ "." ++ v)])
          (Run.armBody (d + 1) c (arms.find? (·.answers v))) m := by
  let event : Value := .str (w ++ "." ++ v)
  let m' : Machine := { m with locals := [.ofParams [ev] [event]], children := none }
  -- the parameter is not called `Msg`, so in the call `Msg` still means the events
  have hs : m'.slot? c "Msg" = none := by
    have hget : (Scope.ofParams [ev] [event]).get? "Msg" = none := by
      simp [Scope.ofParams, Scope.ofParams.go, Fields.ofPairs, Fields.put, Scope.get?,
        Fields.get?, hev]
    simpa [Machine.slot?, m', hget] using hm
  have hv : eval (d + 1) c (.ident ev l) m' = (.ok event, m') := by
    have hget : (Scope.ofParams [ev] [event]).get? ev = some event := by
      simp [Scope.ofParams, Scope.ofParams.go, Fields.ofPairs, Fields.put, Scope.get?,
        Fields.get?]
    have hslot : m'.slot? c ev = some (.inner 0) := by
      simp [Machine.slot?, m', List.findIdx?_cons, hget]
    have hload : m'.load ev (.inner 0) = event := by
      simp [Machine.load, m', hget]
    rw [eval, Run.valueOf]
    simp [hself, Run.run_bind, hslot, hload]
  have hpick := firstWhere_takes (v := v) hc hs d arms ha
  have hbody : Run.last (exec (d + 2) c) .nil fn.body m'
      = Run.armBody (d + 1) c (arms.find? (·.answers v)) m' := by
    rw [hb, Run.last_singleton, exec, Run.run_bind_ok hv, Run.run_bind_ok hpick]
    cases arms.find? (·.answers v) <;> rfl
  rw [call, hp, Run.inCall, Run.inCall, hbody]

/-- What an event method relies on: its parameter is the event, and the program has no name `Msg`
of its own. -/
structure Program.EventNames (p : Program) (fields : Fields) (ev : String) : Prop where
  notSelf : ev ≠ "self"
  notMsg : ev ≠ "Msg"
  noGlobal : p.globals.get? "Msg" = none
  noField : fields.has "Msg" = false

/-- An event method that does nothing but choose by its parameter among arms for events. -/
structure TypeDecl.Listens (decl : TypeDecl) (fn : FnDecl) (ev : String) (arms : List Arm) :
    Prop where
  method : decl.method? "on" = some fn
  params : fn.paramNames = [ev]
  body : ∃ l l', fn.body = [.choose (.ident ev l) arms l']
  events : ∀ a ∈ arms, a.IsForEvents

/-- **The interpreter runs the first arm that answers to the event.** -/
theorem invoke_on_eq_arm {i : Interpreter} {p : Program} {decl : TypeDecl} {fn : FnDecl}
    {ev : String} {arms : List Arm} {σ : Store} {t : TableId} (hd : decl.Listens fn ev arms)
    (hi : i.program = some p) (ht : p.code.type? decl.name = some decl)
    (hn : p.EventNames (σ.get t) ev) (v : String) :
    i.invoke σ decl.name "on" [.str (decl.name ++ "." ++ v)] t
      = i.execute p σ fn.line (Run.inCall (.ofParams [ev] [.str (decl.name ++ "." ++ v)])
          (Run.armBody (evaluationLimit - 2) (p.context decl.name t)
            (arms.find? (·.answers v)))) := by
  obtain ⟨l, l', hb⟩ := hd.body
  have haddr : Interpreter.addressEvent decl.name "on" [.str (decl.name ++ "." ++ v)]
      = [.str (decl.name ++ "." ++ v)] := by
    simp [Interpreter.addressEvent]
  have hslot : ({ globals := p.globals, store := σ, output := i.output } : Machine).slot?
      (p.context decl.name t) "Msg" = none := by
    simp [Machine.slot?, Program.context, hn.noField, hn.noGlobal]
  rw [Interpreter.invoke_method hi ht hd.method, haddr, Interpreter.execute]
  rw [show evaluationLimit = 1997 + 3 from rfl,
    call_on_eq_arm hd.params hb hd.events hn.notSelf hn.notMsg rfl 1997 hslot]
  rfl

end Interpreter

/-! ## What the generator picks -/

section Generator

variable {messages v k : String} {arms : List Arm}

/-- Of several arms with one key, the first one counts. -/
theorem lookup_foldl_addHandler (arms : List Arm) (k : String) :
    ∀ hs : List (String × List Stmt), (arms.foldl Widget.addHandler hs).lookup k
      = (hs.lookup k).or ((arms.find? (Widget.armKey? · == some k)).map (·.body)) := by
  induction arms with
  | nil =>
    intro hs
    simp
  | cons a rest ih =>
    intro hs
    rw [List.foldl_cons, ih, List.find?_cons]
    cases ha : Widget.armKey? a with
    | none => simp [Widget.addHandler, ha]
    | some key =>
      by_cases hk : key = k
      · subst hk
        cases hl : hs.lookup key with
        | none => simp [Widget.addHandler, ha, hl, List.lookup_append]
        | some body => simp [Widget.addHandler, ha, hl]
      · have hne : (key == k) = false := by simpa using hk
        have hne' : (k == key) = false := by simpa using fun h => hk h.symm
        cases hl : hs.lookup key <;>
          simp [Widget.addHandler, ha, hl, List.lookup_append, List.lookup_cons, hne, hne']

/-- The statements that the generated event method runs for a variant: those of the first case that
stands for it. -/
def Widget.blockFor (w : Widget) (messages : String) (variants : List String) (v : String) :
    List Stmt :=
  (((w.cases messages variants).find? fun c =>
    c.1 == messages ++ "." ++ v || c.1 == Widget.wildcard).map (·.2)).getD []

/-- No variant has the name of the case for everything. -/
theorem variant_ne_wildcard : messages ++ "." ++ v ≠ Widget.wildcard := by
  intro h
  have hmem : '.' ∈ (messages ++ "." ++ v).toList := by simp
  rw [h] at hmem
  exact absurd hmem (by decide)

/-- Every variant has a case of its own. -/
theorem blockFor_eq_handlerOf {w : Widget} {variants : List String} (hv : v ∈ variants) :
    w.blockFor messages variants v = w.handlerOf v := by
  -- the label of a variant has a point in it, and that of the case for everything has none
  have hfind : ∀ vs : List String, v ∈ vs →
      (vs.map fun u => (messages ++ "." ++ u, w.handlerOf u)).find? (fun c =>
        c.1 == messages ++ "." ++ v || c.1 == Widget.wildcard)
        = some (messages ++ "." ++ v, w.handlerOf v) := by
    intro vs
    induction vs with
    | nil =>
      intro h
      cases h
    | cons u rest ih =>
      intro h
      have hu : (messages ++ "." ++ u == Widget.wildcard) = false := by
        simpa using variant_ne_wildcard
      rw [List.map_cons, List.find?_cons]
      simp only [append_point_beq, hu, Bool.or_false]
      by_cases he : u = v
      · simp [he]
      · rcases List.mem_cons.mp h with rfl | hr
        · exact absurd rfl he
        · have hb : (u == v) = false := by simpa using he
          rw [hb]
          exact ih hr
  rw [Widget.blockFor, Widget.cases]
  split <;> simp [hfind variants hv, List.find?_append]

/-- The key of an arm for events is what it names or answers to. -/
theorem armKey?_beq {a : Arm} (ha : a.IsForEvents) :
    (Widget.armKey? a == some v) = if v = Widget.wildcard then a.answers v else a.names v := by
  rcases ha with hp | ⟨x, l, l', hp⟩
  · have hnone : (Widget.wildcard == v) = (v == Widget.wildcard) := Bool.beq_comm
    by_cases hv : v = Widget.wildcard <;>
      simp [Widget.armKey?, Arm.answers, Arm.names, hp, hv, hnone]
  · by_cases hv : v = Widget.wildcard <;>
      simp [Widget.armKey?, Arm.answers, Arm.names, hp, hv, Expr.variant?]

/-- What the generator takes over from a declaration as it is. -/
structure Widget.Reflects (w : Widget) (decl : TypeDecl) : Prop where
  name : w.name = decl.name
  fields : w.fields.map (·.name) = decl.members.map (·.name)
  methods : w.methods = decl.methods.map (·.name)
  helpers : w.helpers = Widget.helpersOf decl
  events : (w.eventParam, w.handlers) = Widget.handlersOf decl

theorem fieldOf_name {m : FieldDecl} {f : WidgetField} (h : Widget.fieldOf m = .ok f) :
    f.name = m.name := by
  unfold Widget.fieldOf at h
  split at h
  · obtain ⟨_, -, h⟩ := bind_eq_ok.mp h
    cases h
    rfl
  · obtain ⟨_, -, h⟩ := bind_eq_ok.mp h
    cases h
    rfl

theorem fieldsOf_names : ∀ {members : List FieldDecl} {fields : List WidgetField},
    Widget.fieldsOf members = .ok fields → fields.map (·.name) = members.map (·.name)
  | [], _, h => by
    cases h
    rfl
  | m :: rest, _, h => by
    obtain ⟨f, hf, h⟩ := bind_eq_ok.mp h
    obtain ⟨fs, hfs, h⟩ := bind_eq_ok.mp h
    cases h
    rw [List.map_cons, List.map_cons, fieldOf_name hf, fieldsOf_names hfs]

theorem ofType_reflects {decl : TypeDecl} {policy : Policy} {file : Option String} {w : Widget}
    (hw : Widget.ofType decl policy file = .ok w) : w.Reflects decl := by
  obtain ⟨fields, hfields, hw⟩ := bind_eq_ok.mp hw
  obtain ⟨view, -, hw⟩ := bind_eq_ok.mp hw
  cases hw
  exact ⟨rfl, fieldsOf_names (mapError_eq_ok.mp hfields), rfl, rfl, rfl⟩

/-- **The generated method runs the first arm that names the variant**, except that a variant called
like the case for everything gets the first arm that answers to it. -/
theorem handlerOf_eq_arm {decl : TypeDecl} {policy : Policy} {file : Option String} {w : Widget}
    {fn : FnDecl} {ev : String} (hw : Widget.ofType decl policy file = .ok w)
    (hd : decl.Listens fn ev arms) (v : String) :
    w.handlerOf v = Arm.bodyOf
      (arms.find? fun a => if v = Widget.wildcard then a.answers v else a.names v) := by
  obtain ⟨l, l', hb⟩ := hd.body
  have hh : w.handlers = arms.foldl Widget.addHandler [] := by
    have hof : Widget.handlersOf decl = (some ev, arms.foldl Widget.addHandler []) := by
      simp [Widget.handlersOf, hd.method, hd.params, hb, Widget.armsOn]
    exact congrArg Prod.snd ((ofType_reflects hw).events.trans hof)
  have hfind : arms.find? (Widget.armKey? · == some v)
      = arms.find? fun a => if v = Widget.wildcard then a.answers v else a.names v := by
    have hkey : ∀ a ∈ arms, (Widget.armKey? a == some v)
        = if v = Widget.wildcard then a.answers v else a.names v :=
      fun a ha => armKey?_beq (hd.events a ha)
    -- what is known of the widget concerns all arms and must not stand in the induction
    clear hb hh hd
    induction arms with
    | nil => rfl
    | cons a rest ih =>
      rw [List.find?_cons, List.find?_cons, hkey a List.mem_cons_self,
        ih fun b hb => hkey b (List.mem_cons_of_mem _ hb)]
  rw [Widget.handlerOf, hh, lookup_foldl_addHandler, hfind]
  simp [Arm.bodyOf]

/-- The methods of a widget stand in its source. -/
theorem methods_within {w : Widget} {types : TypeMap} {comp : Component}
    (hc : w.component types messages = .ok comp) :
    Line.indented (Widget.helpersLines (w.naming messages) w.helpers ++
      w.eventLines (w.naming messages) comp.variants) <:+: comp.lines := by
  have hclass : ∀ {variants : List String} {lines : List Line},
      w.classLines (w.naming messages) types variants = .ok lines →
        Line.indented (Widget.helpersLines (w.naming messages) w.helpers ++
          w.eventLines (w.naming messages) variants) <:+: lines := by
    intro variants lines h
    simp only [Widget.classLines, bind_eq_ok] at h
    obtain ⟨literals, _, view, _, h⟩ := h
    cases h
    refine List.infix_cons (List.IsInfix.map _ ?_)
    exact ⟨Widget.fieldLines (w.hints types) ++ Widget.constructorLines (w.hints types) ++ .blank ::
      Widget.defaultLines w.name literals ++ [.blank], .blank :: view, by simp⟩
  obtain ⟨symbols, lines, -, -, -, hlines, rfl⟩ := Widget.component_parts hc
  exact (hclass hlines).trans (List.suffix_append _ _).isInfix

/-- The event method stands in the source of its widget. -/
theorem eventLines_within {w : Widget} {types : TypeMap} {comp : Component}
    (hc : w.component types messages = .ok comp) :
    Line.indented (w.eventLines (w.naming messages) comp.variants) <:+: comp.lines :=
  ((List.suffix_append _ _).isInfix.map _).trans (methods_within hc)

/-- So does each of the methods that are generated as they are. -/
theorem helperLines_within {w : Widget} {types : TypeMap} {comp : Component}
    (hc : w.component types messages = .ok comp) {fn : FnDecl} (hfn : fn ∈ w.helpers) :
    Line.indented (Widget.helperLines (w.naming messages) fn) <:+: comp.lines := by
  obtain ⟨before, after, hsplit⟩ := List.append_of_mem hfn
  have hhelper : Widget.helperLines (w.naming messages) fn
      <:+: Widget.helpersLines (w.naming messages) w.helpers := by
    rw [Widget.helpersLines, hsplit, List.flatMap_append, List.flatMap_cons, List.append_assoc]
    exact List.infix_append' _ _ _
  exact ((hhelper.trans (List.prefix_append _ _).isInfix).map _).trans (methods_within hc)

end Generator

/-! ## When both pick the same -/

section Agreement

variable {v : String} {arms : List Arm}

/-- An arm that names the variant and that the event picks is the first to name it. -/
theorem find?_names_of_answers {a : Arm} (h : arms.find? (·.answers v) = some a)
    (ha : a.names v = true) : arms.find? (·.names v) = some a := by
  induction arms with
  | nil => cases h
  | cons b rest ih =>
    rw [List.find?_cons] at h ⊢
    cases hb : b.answers v with
    | true =>
      rw [hb] at h
      cases h
      rw [ha]
    | false =>
      have hn : b.names v = false := by
        simp only [Arm.answers, Bool.or_eq_false_iff] at hb
        exact hb.2
      rw [hb] at h
      rw [hn]
      exact ih h

/-- An event that picks no arm is named by none. -/
theorem find?_names_eq_none (h : arms.find? (·.answers v) = none) :
    arms.find? (·.names v) = none := by
  rw [List.find?_eq_none] at h ⊢
  intro a ha hn
  exact h a ha (by simp [Arm.answers, hn])

/-- The bodies that are picked are the same unless the event picks an arm without a pattern. -/
theorem named_body_eq_iff (hv : v ≠ Widget.wildcard) :
    Arm.bodyOf (arms.find? (·.names v)) = Arm.bodyOf (arms.find? (·.answers v)) ↔
      ∀ a, arms.find? (·.answers v) = some a → a.pattern = none →
        v = Widget.wildcard ∨ a.body = Arm.bodyOf (arms.find? (·.names v)) := by
  cases hf : arms.find? (·.answers v) with
  | none =>
    rw [find?_names_eq_none hf]
    constructor
    · intro _ a h
      cases h
    · intro _
      rfl
  | some a =>
    constructor
    · intro h b hb _
      cases hb
      exact Or.inr h.symm
    · intro h
      cases hp : a.pattern with
      | none =>
        rcases h a rfl hp with he | he
        · exact absurd he hv
        · exact he.symm
      | some _ =>
        have ha : a.names v = true := by
          have := List.find?_some hf
          simpa [Arm.answers, hp] using this
        rw [find?_names_of_answers hf ha]

/-- **For a variant that the view refers to, the generated event method runs the body that the
interpreter runs, unless that is the body of an arm without a pattern.** Then the two differ,
except where the first arm that names the variant has the same body (an empty one, if no arm does),
or the variant is called like the case for everything. -/
theorem generated_handler_agrees_iff {decl : TypeDecl} {policy : Policy} {file : Option String}
    {w : Widget} {types : TypeMap} {messages : String} {comp : Component} {fn : FnDecl}
    {ev : String} (hd : decl.Listens fn ev arms) (hw : Widget.ofType decl policy file = .ok w)
    (hc : w.component types messages = .ok comp) (hv : v ∈ comp.variants) :
    Line.indented (w.eventLines (w.naming messages) comp.variants) <:+: comp.lines ∧
    (∀ (i : Interpreter) (p : Program) (σ : Store) (t : TableId), i.program = some p →
      p.code.type? decl.name = some decl → p.EventNames (σ.get t) ev →
      i.invoke σ decl.name "on" [.str (decl.name ++ "." ++ v)] t
        = i.execute p σ fn.line (Run.inCall (.ofParams [ev] [.str (decl.name ++ "." ++ v)])
            (Run.armBody (evaluationLimit - 2) (p.context decl.name t)
              (arms.find? (·.answers v))))) ∧
    (w.blockFor messages comp.variants v = Arm.bodyOf (arms.find? (·.answers v)) ↔
      ∀ a, arms.find? (·.answers v) = some a → a.pattern = none →
        v = Widget.wildcard ∨ a.body = Arm.bodyOf (arms.find? (·.names v))) := by
  refine ⟨eventLines_within hc, fun i p σ t hi ht hn => invoke_on_eq_arm hd hi ht hn v, ?_⟩
  rw [blockFor_eq_handlerOf hv, handlerOf_eq_arm hw hd v]
  by_cases hwild : v = Widget.wildcard
  · simp [hwild]
  · simp only [if_neg hwild]
    exact named_body_eq_iff hwild

end Agreement

/-! ## A widget with an arm for everything else -/

/-- A button that sends a variant. -/
def buttonTo (variant : String) : Stmt :=
  .expr (.node "button" [] [⟨"onclick", .member (.ident "Msg" 1) variant 1, 1⟩] [] 1) 1

/-- Gives the field `n` a value. -/
def setTo (n : Int) : Stmt := .assign (.name "n" 1) .set (.literal (.int n) 1) 1

/-- One arm for `A` and one for everything else. -/
def buttonArms : List Arm :=
  [⟨some (.member (.ident "Msg" 1) "A" 1), [setTo 1], 1⟩, ⟨none, [setTo 2], 1⟩]

def onButton : FnDecl where
  name := "on"
  params := [("ev", none)]
  body := [.choose (.ident "ev" 1) buttonArms 1]
  result := none
  line := 1

/-- Its view refers to `A` and to `B`. -/
def buttons : TypeDecl where
  name := "Buttons"
  specs := ["Widget"]
  members := [⟨"n", "int", some (.literal (.int 0) 1), 1⟩]
  methods := [⟨"view", [], [.expr (.node "col" [] [] [buttonTo "A", buttonTo "B"] 1) 1], none, 1⟩,
    onButton]
  line := 1

theorem buttons_listens : buttons.Listens onButton "ev" buttonArms where
  method := rfl
  params := rfl
  body := ⟨1, 1, rfl⟩
  events a ha := by
    rcases List.mem_cons.mp ha with rfl | ha
    · exact Or.inr ⟨"A", 1, 1, rfl⟩
    · cases List.mem_singleton.mp ha
      exact Or.inl rfl

/-- The interpreter with the program of that widget. -/
def buttonsLoaded : Interpreter where
  program := some
    { code := ⟨[.type buttons], none⟩, globals := {}, defaults := [("Buttons", [("n", .int 0)])],
      result := .nil }

theorem buttons_component : ∃ w comp, Widget.ofType buttons .strict none = .ok w ∧
    w.component .standard "Msg" = .ok comp ∧ comp.variants = ["A", "B"] :=
  ⟨_, _, rfl, rfl, rfl⟩

/-- For `A` the generated method has the body that the interpreter runs. -/
theorem buttons_a_agrees : ∃ w comp, Widget.ofType buttons .strict none = .ok w ∧
    w.component .standard "Msg" = .ok comp ∧ "A" ∈ comp.variants ∧
    w.blockFor "Msg" comp.variants "A" = [setTo 1] ∧
    (buttonsLoaded.invoke ⟨#[[("n", .int 0)]]⟩ "Buttons" "on" [.str "Buttons.A"] ⟨0⟩).2.2
      = ⟨#[[("n", .int 1)]]⟩ := by
  obtain ⟨w, comp, hw, hc, hvs⟩ := buttons_component
  have hv : "A" ∈ comp.variants := hvs ▸ List.mem_cons_self
  obtain ⟨-, hrun, hagree⟩ := generated_handler_agrees_iff buttons_listens hw hc hv
  refine ⟨w, comp, hw, hc, hv, hagree.mpr ?_, ?_⟩
  · intro a ha hp
    cases ha
    cases hp
  · have hn := hrun buttonsLoaded _ ⟨#[[("n", .int 0)]]⟩ ⟨0⟩ rfl rfl
      ⟨by decide, by decide, rfl, rfl⟩
    exact congrArg (·.2.2) hn

/-- For `B` the interpreter runs the arm for everything else and the generated method runs
nothing. -/
theorem buttons_b_unreached : ∃ w comp, Widget.ofType buttons .strict none = .ok w ∧
    w.component .standard "Msg" = .ok comp ∧ "B" ∈ comp.variants ∧
    w.blockFor "Msg" comp.variants "B" = [] ∧
    Arm.bodyOf (buttonArms.find? (·.answers "B")) = [setTo 2] ∧
    (buttonsLoaded.invoke ⟨#[[("n", .int 0)]]⟩ "Buttons" "on" [.str "Buttons.B"] ⟨0⟩).2.2
      = ⟨#[[("n", .int 2)]]⟩ := by
  obtain ⟨w, comp, hw, hc, hvs⟩ := buttons_component
  have hv : "B" ∈ comp.variants := hvs ▸ List.mem_cons_of_mem _ List.mem_cons_self
  refine ⟨w, comp, hw, hc, hv, ?_, rfl, ?_⟩
  · rw [blockFor_eq_handlerOf hv, handlerOf_eq_arm hw buttons_listens]
    rfl
  · have hn := @invoke_on_eq_arm buttonsLoaded _ buttons onButton "ev" buttonArms
      ⟨#[[("n", .int 0)]]⟩ ⟨0⟩ buttons_listens rfl rfl
      ⟨by decide, by decide, rfl, rfl⟩ "B"
    exact congrArg (·.2.2) hn

end Widgetry
