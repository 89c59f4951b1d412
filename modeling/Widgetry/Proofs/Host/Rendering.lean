import Widgetry.Proofs.Host.Messages
import Widgetry.Proofs.Language.Locality

/-!
# Views that are kept

A widget that is clean is shown from its cache. Its node came from a run of its view, and the host
sees to it that the fields stay as that run left them: whatever writes fields marks the widget dirty
or gives it a new table.

> `clean_drawn`: in every host that requests lead to, the node of a clean widget was drawn by a run
> of its view, and since then neither the fields nor the program have changed. If all that the view
> can read is as it was when that run began, then the view now returns what it returned then.

The view reads more than fields. Variables of the program are shared by all widgets, and the handler
of another widget may have changed them since; the host does not take note of that
(`variable_unseen`).
-/

namespace Widgetry

/-- The variables of the loaded program. -/
def Interpreter.variables (i : Interpreter) : Option Scope := i.program.map (·.globals)

/-- The tables that a view can read: its own, and those that variables or such tables refer to. -/
def Host.InView (h : Host Interpreter) (t : TableId) : TableId → Prop :=
  h.store.Reaches fun u => u = t ∨ ∃ p, h.engine.program = some p ∧
    ∃ f ∈ p.globals.values, u ∈ Store.liveIn f.2

/-- Where the node of a clean widget comes from: it was drawn by the request that led from `h₀` to
`h₁`, when the view was run and returned `v`. -/
structure Host.Drawn (h : Host Interpreter) (name : String) (t : TableId) (n : Node)
    (h₀ h₁ : Host Interpreter) (v : Value) : Prop where
  reachable : h₀.Reachable
  step : h₀.Step h₁
  steps : h₁.Steps h
  has : h₀.store.Has t
  ran : h₀.engine.invoke h₀.store name "view" [] t = (.ok v, h₁.engine, h₁.store)
  node : h.policy.nodeOf? v = some n
  /-- the fields are as that run left them -/
  fields : h.store.get t = h₁.store.get t
  program : h₁.engine.SameProgram h.engine

section

variable {h h' : Host Interpreter} {name : String} {s : WidgetState} {n : Node}

/-- A view that can read what it could read when it was drawn returns what it returned then. -/
theorem Host.Drawn.again {t : TableId} {h₀ h₁ : Host Interpreter} {v : Value}
    (hd : h.Drawn name t n h₀ h₁ v) (hh : h.store.Has t)
    (hvars : h.engine.variables = h₀.engine.variables)
    (hsame : ∀ u, h₀.InView t u → h.store.get u = h₀.store.get u) :
    (h.engine.invoke h.store name "view" [] t).1 = .ok v := by
  have hprogram := (invoke_footprint hd.ran).1.trans hd.program
  unfold Interpreter.SameProgram at hprogram
  cases hp₀ : h₀.engine.program with
  | none =>
    have hran := hd.ran
    simp only [Interpreter.invoke, hp₀] at hran
    cases hran
  | some p₀ =>
    rw [hp₀] at hprogram
    cases hp : h.engine.program with
    | none =>
      rw [hp] at hprogram
      cases hprogram
    | some p =>
      rw [hp] at hprogram
      cases hprogram with
      | some hbut =>
        -- the code is the same, and with the variables all that `invoke_local` asks for
        have hglobals : p₀.globals = p.globals := by
          rw [Interpreter.variables, Interpreter.variables, hp, hp₀] at hvars
          exact (Option.some.inj hvars).symm
        have hwithin : p₀.globals.values.Within (h₀.InView t) :=
          fun f hf u hu => .root (Or.inr ⟨p₀, hp₀, f, hf, hu⟩)
        have hargs : ∀ v ∈ ([] : List Value), v.Within (h₀.InView t) := by
          intro v hv
          cases hv
        have hlocal := invoke_local hp₀ hp hbut.code.symm hglobals hwithin
          (Store.Agree.of_reaches hsame) (.root (Or.inl rfl)) ⟨fun _ => hh, fun _ => hd.has⟩
          name "view" hargs
        rw [← hlocal, hd.ran]

end

end Widgetry
