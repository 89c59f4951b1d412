import Widgetry.Proofs.Generation.Stages

/-!
# What is called by a name

A call by a plain name means different things in a program and in its source. The interpreter asks
for a built-in function first, then for a function of the program, then for a method of the widget,
and makes a node if there is none of these; local names do not count. The generator knows the
methods of the widget and the local names, and nothing else.

> `eval_call`: a call works out its arguments, and then does what its name stands for;
> `method_called_iff_written`: a call is run as one of a method exactly when it is written as one,
> unless a name clashes: a method is hidden from the interpreter by a function of its name, and from
> the generator by a local name.
-/

namespace Widgetry

open Run

/-! ## What the interpreter calls -/

/-- What a call by name runs. -/
inductive Dispatch where
  | builtin
  | function (fn : FnDecl)
  | method (fn : FnDecl)
  | node

/-- What a name stands for where it is called. -/
def Context.dispatch (c : Context) (name : String) : Dispatch :=
  if name ∈ builtins then .builtin
  else match c.code.function? name with
    | some fn => .function fn
    | none =>
      match c.method? name with
      | some fn => .method fn
      | none => .node

/-- Does it with some arguments. -/
def Dispatch.run (d : Nat) (c : Context) (name : String) (args : List Value) (line : Nat) :
    Dispatch → Run Value
  | .builtin => Run.builtin name args line
  | .function fn => call d c.ofFunction fn args
  | .method fn => call d c.ofMethod fn args
  | .node => pure (.node (.named name args [] []))

/-- **A call works out its arguments, and then does what its name stands for.** -/
theorem eval_call (d : Nat) (c : Context) (f : String) (l : Nat) (args : List Expr) (line : Nat) :
    eval (d + 1) c (.call (.ident f l) args line)
      = each (eval d c) args >>= fun vs => (c.dispatch f).run d c f vs line := by
  rw [eval]
  congr 1
  funext vs
  unfold Context.dispatch
  by_cases hb : f ∈ builtins
  · rw [if_pos (by simpa using hb), if_pos hb]
    rfl
  · rw [if_neg (by simpa using hb), if_neg hb]
    cases c.code.function? f with
    | some fn => rfl
    | none =>
      cases c.method? f with
      | some fn => rfl
      | none => rfl

/-- A declaration has a method of each of its names. -/
theorem isSome_method? (decl : TypeDecl) (f : String) :
    (decl.method? f).isSome ↔ f ∈ decl.methods.map (·.name) := by
  simp [TypeDecl.method?, List.find?_isSome]

/-- The methods that running code can call are those of its widget. -/
theorem method?_eq {c : Context} {decl : TypeDecl} (hwidget : c.widget = some decl.name)
    (htype : c.code.type? decl.name = some decl) (f : String) : c.method? f = decl.method? f := by
  simp [Context.method?, hwidget, htype]

/-- A method is called by its name if there is no function of that name. -/
theorem dispatch_method_iff {c : Context} {decl : TypeDecl} (hwidget : c.widget = some decl.name)
    (htype : c.code.type? decl.name = some decl) (f : String) :
    (∃ fn, c.dispatch f = .method fn) ↔
      f ∈ decl.methods.map (·.name) ∧ ¬ (f ∈ builtins ∨ (c.code.function? f).isSome) := by
  rw [← isSome_method?, ← method?_eq hwidget htype, not_or, Context.dispatch]
  by_cases hb : f ∈ builtins
  · simp [hb]
  · cases hfn : c.code.function? f with
    | some fn => simp [hb]
    | none => cases hm : c.method? f <;> simp [hb]

/-! ## What the generator writes -/

/-- A call is written as one of the widget if its name is that of a method and no local name. -/
theorem source_call_own_iff {g : Naming} {locals : List String} (f : String) (l : Nat)
    (args : List Expr) (line : Nat) :
    (Expr.call (.ident f l) args line).source g locals
        = "self." ++ f ++ "(" ++ commaSeparated (Expr.sources g locals args) ++ ")" ↔
      f ∈ g.methods ∧ f ∉ locals := by
  rw [Expr.source_call_ident]
  by_cases hmethod : f ∈ g.methods ∧ f ∉ locals
  · have hown : g.isMethod locals f = true := by simpa [Naming.isMethod] using hmethod
    simp [hown, hmethod]
  · have hplain : ¬ g.isMethod locals f = true := by simpa [Naming.isMethod] using hmethod
    simp only [if_neg hplain, hmethod, iff_false]
    intro heq
    have hlength := congrArg String.length heq
    simp only [String.length_append] at hlength
    exact absurd hlength (by simp)

/-- The bodies that are generated with a widget, each with the names that are local where it begins:
those of its methods, and those that its events are handled with. -/
inductive Widget.HasBody (w : Widget) (messages : String) (variants : List String) :
    List String → List Stmt → Prop where
  | helper {fn : FnDecl} : fn ∈ w.helpers →
      HasBody w messages variants (Text.sortedSet fn.paramNames) fn.body
  | handler {handler : String × List Stmt} : handler ∈ w.cases messages variants →
      HasBody w messages variants [w.eventName] handler.2

/-- What is reached from such a body is written, unless it is inside a node expression. -/
theorem Widget.HasBody.written {w : Widget} {types : TypeMap} {messages : String}
    {comp : Component} (hc : w.component types messages = .ok comp) {outer inner : List String}
    {body : List Stmt} (hbody : w.HasBody messages comp.variants outer body) {c : Context} {d : Nat}
    {m : Machine} {s : Stage} (hs : s.Reached c d m outer body) (hinner : s.locals = some inner) :
    s.piece.Written (w.naming messages) inner (Line.texts comp.lines) := by
  cases hbody with
  | helper hfn => exact helper_written hc hfn hs hinner
  | handler hhandler => exact handler_written hc hhandler hs hinner

/-! ## When the two agree -/

/-- **A call by name is run as one of a method exactly when it is written as one, provided that a
method of that name is hidden from both or from neither**: a function of the name, built in or of
the program, hides it from the interpreter, and a local name hides it from the generator. -/
theorem method_called_iff_written {decl : TypeDecl} {policy : Policy} {file : Option String}
    {w : Widget} (hw : Widget.ofType decl policy file = .ok w) {types : TypeMap}
    {messages : String} {comp : Component} (hc : w.component types messages = .ok comp)
    {outer : List String} {body : List Stmt}
    (hbody : w.HasBody messages comp.variants outer body) {c : Context}
    (hwidget : c.widget = some decl.name) (htype : c.code.type? decl.name = some decl) {d : Nat}
    {m : Machine} {s : Stage} (hs : s.Reached c d m outer body) {locals : List String}
    (hlocals : s.locals = some locals) {f : String} {l : Nat} {args : List Expr} {line : Nat}
    (hcall : s.piece = .expr (.call (.ident f l) args line)) :
    (∀ d', s.depth = d' + 1 → s.run c = (each (eval d' c) args >>= fun vs =>
      (c.dispatch f).run d' c f vs line) s.machine) ∧
    (∃ t ∈ Line.texts comp.lines,
      Within ((Expr.call (.ident f l) args line).source (w.naming messages) locals) t) ∧
    (((∃ fn, c.dispatch f = .method fn) ↔
        (Expr.call (.ident f l) args line).source (w.naming messages) locals
          = "self." ++ f ++ "(" ++
            commaSeparated (Expr.sources (w.naming messages) locals args) ++ ")") ↔
      (f ∈ decl.methods.map (·.name) →
        (f ∈ builtins ∨ (c.code.function? f).isSome ↔ f ∈ locals))) := by
  refine ⟨fun d' hd => ?_, ?_, ?_⟩
  · rw [Stage.run, hcall, hd]
    exact congrFun (eval_call d' c f l args line) s.machine
  · have hwritten := hbody.written hc hs hlocals
    rw [hcall] at hwritten
    exact hwritten
  · have hmethods : (w.naming messages).methods = decl.methods.map (·.name) :=
      (ofType_reflects hw).methods
    rw [dispatch_method_iff hwidget htype, source_call_own_iff, hmethods]
    tauto

/-! ## A method called like a built-in function -/

/-- Answers the field, whatever it is given. -/
def ownLen : FnDecl where
  name := "len"
  params := [("x", none)]
  body := [.expr (.ident "n" 1) 1]
  result := none
  line := 1

/-- Calls what is called `len`. -/
def measuring : FnDecl where
  name := "measure"
  params := []
  body := [.expr (.call (.ident "len" 1) [.literal (.str "abc") 1] 1) 1]
  result := none
  line := 1

/-- Calls a method of a name that nothing else has. -/
def remeasuring : FnDecl where
  name := "remeasure"
  params := []
  body := [.expr (.call (.ident "measure" 1) [] 1) 1]
  result := none
  line := 1

def ruler : TypeDecl := widgetWith [ownLen, measuring, remeasuring]

theorem ruler_component : ∃ w comp, Widget.ofType ruler .strict none = .ok w ∧
    w.component .standard "Msg" = .ok comp ∧ w.helpers = [ownLen, measuring, remeasuring] ∧
    w.naming "Msg" = ⟨"Msg", ["n"], ["len", "measure", "remeasure", "view"]⟩ :=
  ⟨_, _, rfl, rfl, rfl, rfl⟩

/-- A method whose name is its own is called, and written as called. -/
theorem remeasure_agrees : ∃ w comp, Widget.ofType ruler .strict none = .ok w ∧
    w.component .standard "Msg" = .ok comp ∧ ruler.alone.dispatch "measure" = .method measuring ∧
    (Expr.call (.ident "measure" 1) [] 1).source (w.naming "Msg") [] = "self.measure()" := by
  obtain ⟨w, comp, hw, hc, hhelpers, -⟩ := ruler_component
  have hbody : w.HasBody "Msg" comp.variants [] remeasuring.body := by
    have hmem : remeasuring ∈ w.helpers := by
      rw [hhelpers]
      simp
    exact .helper hmem
  have hreached : Stage.Reached ruler.alone 3 (startMachine.entered remeasuring []) []
      remeasuring.body ⟨2, startMachine.entered remeasuring [], some [],
        .expr (.call (.ident "measure" 1) [] 1)⟩ := .part .first .expression
  obtain ⟨-, -, hagree⟩ := method_called_iff_written hw hc hbody rfl rfl hreached rfl rfl
  have hclash : "measure" ∈ ruler.methods.map (·.name) →
      ("measure" ∈ builtins ∨ (ruler.alone.code.function? "measure").isSome ↔
        "measure" ∈ ([] : List String)) := fun _ => by decide
  exact ⟨w, comp, hw, hc, rfl, (hagree.mpr hclash).mp ⟨measuring, rfl⟩⟩

/-- The built-in function is called, and the method is written as called. -/
theorem measure_disagrees : ∃ w comp, Widget.ofType ruler .strict none = .ok w ∧
    w.component .standard "Msg" = .ok comp ∧ ruler.alone.dispatch "len" = .builtin ∧
    (call 5 ruler.alone measuring [] startMachine).1 = .ok (.int 3) ∧
    (Widget.helperLines (w.naming "Msg") measuring).map (·.text)
      = ["def measure(self):", "return self.len(\"abc\")"] := by
  obtain ⟨w, comp, hw, hc, -, hg⟩ := ruler_component
  refine ⟨w, comp, hw, hc, rfl, rfl, ?_⟩
  rw [hg]
  decide

end Widgetry
