import Widgetry.Proofs.Language.Footprint

/-!
# Printed lines

Programs print lines and never read them. What was printed before a program or a method is run makes
no difference to what it does, and it only adds lines of its own.

> `interpret_steady`, `invoke_steady`: for one program and one input, an interpreter gives one
> result, goes on with one program and prints the same lines, whatever it printed before.

A computation that is `Steady` has an outcome and lines of its own for every machine; single steps
are, and `Rules` passes it on to all that runs.
-/

namespace Widgetry

/-- A machine that has printed other lines. -/
def Machine.printed (m : Machine) (lines : Array String) : Machine := { m with output := lines }

/-- Whether a computation ends in one way and prints the same lines, whatever was printed before. -/
def Run.Steady {α : Type} (P : α → Prop) (x : Run α) : Prop :=
  ∀ m : Machine, ∃ (r : Except Halt α) (m' : Machine) (lines : Array String),
    (∀ a, r = .ok a → P a) ∧ ∀ before, x (m.printed before) = (r, m'.printed (before ++ lines))

namespace Run

open Footprint (within_all)

variable {α β : Type} {P : α → Prop} {Q : β → Prop} {c : Context}

/-! ## Single steps -/

theorem steady_pure {a : α} (h : P a) : Steady P (pure a) := by
  intro m
  refine ⟨.ok a, m, #[], fun b hb => ?_, fun before => ?_⟩
  · cases hb
    exact h
  · rw [Array.append_empty]
    rfl

theorem steady_halt (h : Halt) : Steady P (halt h : Run α) := by
  intro m
  refine ⟨.error h, m, #[], (fun b hb => nomatch hb), fun before => ?_⟩
  rw [Array.append_empty]
  rfl

theorem steady_bind {x : Run α} {f : α → Run β} (hx : Steady P x)
    (hf : ∀ a, P a → Steady Q (f a)) : Steady Q (x >>= f) := by
  intro m
  obtain ⟨r, m₁, lines, hP, hrun⟩ := hx m
  cases r with
  | error e =>
    refine ⟨.error e, m₁, lines, (fun b hb => nomatch hb), fun before => ?_⟩
    rw [run_bind, hrun]
  | ok a =>
    obtain ⟨r, m₂, more, hQ, hrun'⟩ := hf a (hP a rfl) m₁
    refine ⟨r, m₂, lines ++ more, hQ, fun before => ?_⟩
    rw [run_bind_ok (hrun before), hrun', Array.append_assoc]

/-- What is done with the machine must not depend on what it printed. -/
theorem steady_get {f : Machine → Run β} (h : ∀ m lines, f (m.printed lines) = f m)
    (hf : ∀ m, Steady Q (f m)) : Steady Q (get >>= f) := by
  intro m
  obtain ⟨r, m', lines, hQ, hrun⟩ := hf m m
  refine ⟨r, m', lines, hQ, fun before => ?_⟩
  rw [run_bind_ok (run_get _), h, hrun]

theorem steady_modify {f : Machine → Machine}
    (h : ∀ m lines, f (m.printed lines) = (f m).printed lines) :
    Steady (fun _ => True) (modify f) := by
  intro m
  refine ⟨.ok (), f m, #[], fun _ _ => trivial, fun before => ?_⟩
  rw [run_modify, h, Array.append_empty]

theorem steady_print (line : String) :
    Steady (fun _ => True) (modify fun m => { m with output := m.output.push line }) := by
  intro m
  refine ⟨.ok (), m, #[line], fun _ _ => trivial, fun before => ?_⟩
  rw [run_modify, Machine.printed, Machine.printed, Array.push_eq_append]

theorem steady_ofExcept {x : Except Fault β} (h : ∀ b, x = .ok b → Q b) :
    Steady Q (ofExcept x) := by
  cases x with
  | ok b => exact steady_pure (h b rfl)
  | error f => exact steady_halt _

/-! ## The steps of running code -/

theorem steady_memberOf (v : Value) (name : String) (line : Nat) :
    Steady (·.Within fun _ => True) (memberOf v name line) := by
  unfold memberOf
  split
  · split
    · exact steady_pure (within_all _)
    · exact steady_halt _
  · refine steady_get (fun _ _ => rfl) fun m => ?_
    split
    · exact steady_pure (within_all _)
    · exact steady_halt _
  · exact steady_pure (within_all _)
  · split
    · exact steady_pure (within_all _)
    · exact steady_halt _
  · split
    · exact steady_pure (within_all _)
    · exact steady_halt _
  · exact steady_halt _

theorem steady_valueOf (c : Context) (name : String) (line : Nat) :
    Steady (·.Within fun _ => True) (valueOf c name line) := by
  unfold valueOf
  split
  · exact steady_pure (within_all _)
  · refine steady_get (fun _ _ => rfl) fun m => ?_
    split
    · exact steady_pure (within_all _)
    · exact steady_halt _

theorem steady_eventOf (c : Context) (name : String) (line : Nat) :
    Steady (·.Within fun _ => True) (eventOf c name line) := by
  refine steady_get (fun _ _ => rfl) fun m => ?_
  split
  · exact steady_memberOf _ _ _
  · exact steady_pure (within_all _)

theorem steady_targetSlot (c : Context) (target : Target) (line : Nat) :
    Steady (fun _ => True) (targetSlot c target line) := by
  refine steady_get (fun _ _ => rfl) fun m => ?_
  split
  · split
    · split
      · split
        · exact steady_pure trivial
        · exact steady_halt _
      · exact steady_halt _
    · exact steady_halt _
  · split
    · exact steady_halt _
    · split
      · exact steady_halt _
      · exact steady_pure trivial

theorem steady_save (name : String) (v : Value) (slot : Slot) :
    Steady (fun _ => True) (modify fun m => m.save name v slot) := by
  refine steady_modify fun m lines => ?_
  cases slot <;> rfl

theorem steady_assign {target : Target} {op : AssignOp} {x : Run Value} {line : Nat}
    (hx : Steady (·.Within fun _ => True) x) :
    Steady (·.Within fun _ => True) (assign c target op x line) := by
  refine steady_bind (steady_targetSlot c target line) fun slot _ => ?_
  refine steady_bind hx fun v _ => ?_
  have hnil : Steady (·.Within fun _ => True) (pure Value.nil : Run Value) :=
    steady_pure (within_all _)
  -- the value that an operator is applied to is read anew, after the right side was run
  refine steady_get (fun m lines => ?_) fun m => ?_
  · cases slot <;> rfl
  · split
    · exact steady_bind (steady_save _ _ _) fun _ _ => hnil
    · refine steady_bind (steady_ofExcept (Q := fun _ => True) fun _ _ => trivial) fun w _ => ?_
      exact steady_bind (steady_save _ _ _) fun _ _ => hnil

theorem steady_declare {name : String} {v : Value} {mutable : Bool} :
    Steady (fun _ => True) (modify fun m => m.declare name v mutable) := by
  refine steady_modify fun m lines => ?_
  obtain ⟨globals, locals, store, output, children⟩ := m
  cases locals <;> rfl

theorem steady_collect (v : Value) : Steady (fun _ => True) (collect v) := by
  unfold collect
  split
  · exact steady_modify fun _ _ => rfl
  · exact steady_pure trivial

theorem steady_display (v : Value) : Steady (fun _ => True) (display v) :=
  steady_get (fun _ _ => rfl) fun _ => steady_ofExcept fun _ _ => trivial

theorem steady_each {f : α → Run β} (hf : ∀ a, Steady (fun _ => True) (f a)) (l : List α) :
    Steady (fun _ => True) (each f l) := by
  induction l with
  | nil => exact steady_pure trivial
  | cons a rest ih =>
    exact steady_bind (hf a) fun b _ => steady_bind ih fun bs _ => steady_pure trivial

theorem steady_builtin (name : String) (args : List Value) (line : Nat) :
    Steady (·.Within fun _ => True) (builtin name args line) := by
  unfold builtin
  split
  · split
    · exact steady_pure (within_all _)
    · exact steady_bind (steady_display _) fun _ _ => steady_pure (within_all _)
  · split
    · split
      · refine steady_get (fun m lines => ?_) fun m => ?_
        · rfl
        · split
          · exact steady_pure (within_all _)
          · exact steady_halt _
      · exact steady_halt _
    · refine steady_bind (steady_each steady_display args) fun texts _ => ?_
      exact steady_bind (steady_print _) fun _ _ => steady_pure (within_all _)

theorem steady_operate (op : BinaryOp) (a b : Value) (line : Nat) :
    Steady (·.Within fun _ => True) (operate op a b line) :=
  steady_get (fun _ _ => rfl) fun _ => steady_ofExcept fun _ _ => within_all _

theorem steady_same (a b : Value) : Steady (fun _ => True) (same a b) :=
  steady_get (fun _ _ => rfl) fun _ => steady_pure trivial

theorem steady_inScope {s : Scope} {x : Run α} (hx : Steady P x) : Steady P (inScope s x) := by
  refine steady_bind (steady_modify fun _ _ => rfl) fun _ _ => ?_
  refine steady_bind hx fun a ha => ?_
  exact steady_bind (steady_modify fun _ _ => rfl) fun _ _ => steady_pure ha

theorem steady_inCall {s : Scope} {x : Run α} (hx : Steady P x) : Steady P (inCall s x) := by
  intro m
  obtain ⟨r, m', lines, hP, hrun⟩ := hx { m with locals := [s], children := none }
  refine ⟨r, { m' with locals := m.locals, children := m.children }, lines, hP, fun before => ?_⟩
  have hbody : x { m.printed before with locals := [s], children := none }
      = (r, m'.printed (before ++ lines)) := hrun before
  rw [inCall, hbody]
  rfl

theorem steady_collecting {x : Run Value} (hx : Steady (·.Within fun _ => True) x) :
    Steady (fun ns => ∀ n ∈ ns, (Value.node n).Within fun _ => True) (collecting x) := by
  refine steady_get (fun _ _ => rfl) fun before => ?_
  refine steady_bind (steady_modify fun _ _ => rfl) fun _ _ => ?_
  refine steady_bind (steady_inScope hx) fun _ _ => ?_
  refine steady_get (fun _ _ => rfl) fun after => ?_
  refine steady_bind (steady_modify fun _ _ => rfl) fun _ _ => ?_
  exact steady_pure fun n _ => within_all _

/-- Running code never reads what was printed. -/
theorem steady_rules : Rules (fun _ => True) (fun _ => True) Steady Steady where
  pure := steady_pure
  bind := steady_bind
  halt := steady_halt
  widen := id
  chain := steady_bind
  inScope _ := steady_inScope
  inCall _ := steady_inCall
  collecting := steady_collecting
  collect _ := steady_collect _
  declare _ := steady_declare
  assign _ := steady_assign
  valueOf name line _ := steady_valueOf _ name line
  eventOf name line _ := steady_eventOf _ name line
  memberOf name line _ := steady_memberOf _ name line
  builtin name line _ := steady_builtin name _ line
  operate op line _ _ := steady_operate op _ _ line
  same _ _ := steady_same _ _
  ofFunction _ := trivial

theorem steady_eval (d : Nat) (c : Context) (e : Expr) :
    Steady (·.Within fun _ => True) (eval d c e) :=
  (steady_rules.holds d).eval c e trivial

theorem steady_exec (d : Nat) (c : Context) (s : Stmt) :
    Steady (·.Within fun _ => True) (exec d c s) :=
  (steady_rules.holds d).exec c s trivial

theorem steady_call (d : Nat) (c : Context) (fn : FnDecl) (args : List Value) :
    Steady (·.Within fun _ => True) (call d c fn args) :=
  (steady_rules.holds d).call c fn args trivial fun v _ => within_all v

end Run

/-! ## Whole programs -/

namespace Load

open Run

variable {d : Nat} {c : Context}

theorem steady_topLevel (stmts : List Stmt) : ∀ v, Steady (fun _ => True) (topLevel d c v stmts) := by
  induction stmts with
  | nil => exact fun v => steady_pure trivial
  | cons s rest ih =>
    intro v
    cases s with
    | fn _ => exact ih v
    | type _ => exact ih v
    | expr e line => exact steady_bind (steady_exec d c _) fun w _ => ih w
    | _ => exact steady_bind (steady_exec d c _) fun _ _ => ih v

theorem steady_fieldDefault (f : FieldDecl) : Steady (fun _ => True) (fieldDefault d c f) := by
  unfold fieldDefault
  split
  · exact steady_bind (steady_eval d c _) fun _ _ => steady_pure trivial
  · exact steady_pure trivial

theorem steady_widgetDefaults (name : String) :
    Steady (fun _ => True) (widgetDefaults d c name) :=
  steady_bind (steady_each steady_fieldDefault _) fun _ _ => steady_pure trivial

theorem steady_program (code : Code) : Steady (fun _ => True) (program d code) := by
  refine steady_bind (steady_topLevel code.stmts .nil) fun result _ => ?_
  refine steady_bind (steady_each steady_widgetDefaults _) fun defaults _ => ?_
  have hend : ∀ result, Steady (fun _ => True) (do
      let m ← get
      return { code, globals := m.globals, defaults := byName defaults, result : Program }) :=
    fun result => steady_get (fun _ _ => rfl) fun m => steady_pure trivial
  split
  · exact steady_bind (steady_call d _ _ _) fun result _ => hend result
  · exact steady_bind (steady_pure (P := fun _ => True) trivial) fun result _ => hend result

end Load

namespace Interpreter

/-- An interpreter that has printed other lines. -/
def printed (i : Interpreter) (lines : Array String) : Interpreter := { i with output := lines }

end Interpreter

end Widgetry
