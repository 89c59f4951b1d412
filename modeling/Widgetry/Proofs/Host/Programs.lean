import Widgetry.Proofs.Host.Replacement

/-!
# Which program a host has

Whether a text can be loaded, and which program it gives, depends on the text only. So it can be
said of a host that it holds a text: its program is the one that the text gives, but for the values
that its variables have come to.

> `interpret_replaced`, `reload_replaced`: a host that is free takes every text that can be loaded,
> and then holds it; otherwise it keeps its program;
> `respond_keeps`: a request for no other program leaves the host with the program that it has.
-/

namespace Widgetry

namespace Interpreter

variable {i i' : Interpreter} {source : String}

/-- Whether a text is that of a program that can be loaded. -/
def Loads (source : String) : Prop :=
  ∃ v i, ({} : Interpreter).interpret source none = (.ok v, i)

/-- Whether an interpreter has the program of a text, but for the values of its variables. -/
def Holds (i : Interpreter) (source : String) : Prop :=
  ∃ v i₀, ({} : Interpreter).interpret source none = (.ok v, i₀) ∧ i₀.SameProgram i

theorem Holds.loads (h : i.Holds source) : Loads source := by
  obtain ⟨v, i₀, hi, -⟩ := h
  exact ⟨v, i₀, hi⟩

theorem Holds.same (h : i.Holds source) (hp : i.SameProgram i') : i'.Holds source := by
  obtain ⟨v, i₀, hi, hs⟩ := h
  exact ⟨v, i₀, hi, hs.trans hp⟩

/-- What an interpreter had before makes no difference to whether a text can be loaded, nor to the
program that it gives. -/
theorem interpret_any (i : Interpreter) (source : String) :
    (∃ v p, (∃ lines, ({} : Interpreter).interpret source none = (.ok v, ⟨some p, lines⟩)) ∧
      ∃ lines, i.interpret source none = (.ok v, ⟨some p, lines⟩)) ∨
    ∃ f, (∃ i₀, ({} : Interpreter).interpret source none = (.error f, i₀)) ∧
      ∃ i', i.interpret source none = (.error f, i') := by
  unfold interpret
  cases parse source none with
  | error f => exact Or.inr ⟨f, ⟨_, rfl⟩, ⟨_, rfl⟩⟩
  | ok code =>
    -- loading adds its lines to those from before and does not look at them
    obtain ⟨r, m, lines, -, hrun⟩ := Load.steady_program (d := evaluationLimit) code {}
    have hrun' : ∀ before : Array String, Load.program evaluationLimit code { output := before }
        = (r, m.printed (before ++ lines)) := hrun
    dsimp only
    rw [hrun', hrun']
    cases r with
    | ok p => exact Or.inl ⟨p.result, p, ⟨_, rfl⟩, ⟨_, rfl⟩⟩
    | error e => exact Or.inr ⟨_, ⟨_, rfl⟩, ⟨_, rfl⟩⟩

theorem interpret_of_loads (h : Loads source) (i : Interpreter) :
    ∃ v i', i.interpret source none = (.ok v, i') ∧ i'.Holds source := by
  obtain ⟨v, p, ⟨lines, hnew⟩, lines', hi⟩ | ⟨f, ⟨i₀, hnew⟩, -⟩ := interpret_any i source
  · exact ⟨v, _, hi, v, _, hnew, .of_eq rfl⟩
  · obtain ⟨v, i₁, hv⟩ := h
    cases hnew.symm.trans hv

theorem interpret_of_not_loads (h : ¬ Loads source) (i : Interpreter) :
    ∃ f i', i.interpret source none = (.error f, i') ∧ i.SameProgram i' := by
  obtain ⟨v, p, ⟨lines, hnew⟩, -⟩ | ⟨f, -, i', hi⟩ := interpret_any i source
  · exact absurd ⟨v, _, hnew⟩ h
  · exact ⟨f, i', hi, .of_eq (interpret_error_program hi)⟩

end Interpreter

open Interpreter (Loads)

/-- What a host keeps that is asked for no other program. -/
structure Host.Kept (h h' : Host Interpreter) : Prop where
  program : h.engine.SameProgram h'.engine
  settings : h'.settings = h.settings
  free : h'.busy = false

/-- What becomes of a host that is asked for the program of a text. -/
inductive Host.Replaced (h : Host Interpreter) (source : String) :
    Except Failure Answer → Host Interpreter → Prop where
  | done {h' : Host Interpreter} : Loads source → h'.engine.Holds source →
      h'.settings = h.settings → h'.busy = false → Replaced h source (.ok .done) h'
  | refused {e : HostError} {h' : Host Interpreter} : ¬ Loads source → h.Kept h' →
      Replaced h source (.error (.refused e)) h'

namespace Act

variable {α β : Type} (disk : Disk) {h h' : Host Interpreter}

/-! ## Requests for another program -/

/-- **A host that is free loads every text that can be loaded.** -/
theorem interpret_replaced (hb : h.busy = false) (source : String) :
    ∃ r h', respondWith disk (.interpret source) h = (r, h') ∧ h.Replaced source r h' := by
  by_cases hl : Loads source
  · obtain ⟨v, i, hi, hh⟩ := Interpreter.interpret_of_loads hl h.engine
    exact ⟨_, _, run_bind_ok (interpret_ok disk hb hi), .done hl hh rfl hb⟩
  · obtain ⟨f, i, hi, hs⟩ := Interpreter.interpret_of_not_loads hl h.engine
    exact ⟨_, _, run_bind_error (interpret_error disk hb hi), .refused hl ⟨hs, rfl, hb⟩⟩

/-- **Nor does it refuse to replace its program by one.** -/
theorem reload_replaced (hb : h.busy = false) (source : String) :
    ∃ r h', respondWith disk (.reload source) h = (r, h') ∧ h.Replaced source r h' := by
  cases hh : h.hot with
  | false =>
    rw [reload_cold disk hh]
    exact interpret_replaced disk hb source
  | true =>
    by_cases hl : Loads source
    · obtain ⟨v, i, hi, hs⟩ := Interpreter.interpret_of_loads hl h.engine
      exact ⟨_, _, reload_ok disk hb hh hi, .done hl hs rfl hb⟩
    · obtain ⟨f, i, hi, hs⟩ := Interpreter.interpret_of_not_loads hl h.engine
      exact ⟨_, _, reload_error disk hb hh hi, .refused hl ⟨hs, rfl, hb⟩⟩

/-! ## Requests for no other program -/

/-- Whether something leaves a host that is free with its program. -/
def Keeps (x : Act Interpreter α) : Prop :=
  ∀ h : Host Interpreter, h.busy = false → h.Kept (x h).2

theorem kept_self (hb : h.busy = false) : h.Kept h := ⟨.of_eq rfl, rfl, hb⟩

theorem kept_shown (hk : h.Kept h') : h.Kept h'.shown := by
  unfold Host.shown
  split
  · exact ⟨hk.program, hk.settings, hk.free⟩
  · exact hk

theorem Reads.keeps {x : Act Interpreter α} (hx : Reads x) : Keeps x := by
  intro h hb
  rw [hx h]
  exact kept_self hb

theorem keeps_bind {x : Act Interpreter α} {f : α → Act Interpreter β} (hx : Keeps x)
    (hf : ∀ a, Keeps (f a)) : Keeps (x >>= f) := by
  intro h hb
  have hk := hx h hb
  rw [run_bind]
  rcases hr : x h with ⟨r, h'⟩
  rw [hr] at hk
  cases r with
  | error e => exact hk
  | ok a =>
    have hk' := hf a h' hk.free
    exact ⟨hk.program.trans hk'.program, hk'.settings.trans hk.settings, hk'.free⟩

theorem keeps_mainView :
    Keeps (mainView Interpreter.engine (runCallback Interpreter.engine disk)) := by
  intro h hb
  obtain ⟨r, h', hrun, hv⟩ := mainView_viewed disk hb
  rw [hrun]
  cases hv with
  | noNode _ _ => exact kept_self hb
  | result _ _ => exact kept_shown (kept_self hb)
  | cached _ _ _ => exact kept_shown (kept_self hb)
  | failed _ _ hi => exact ⟨(invoke_footprint hi).1, rfl, hb⟩
  | refused e _ _ hi => exact ⟨(invoke_footprint hi).1, rfl, hb⟩
  | run _ _ hi _ => exact kept_shown ⟨(invoke_footprint hi).1, rfl, hb⟩

theorem keeps_send (m : Message) :
    Keeps (send Interpreter.engine (runCallback Interpreter.engine disk) m) := by
  intro h hb
  obtain ⟨r, h', hrun, hs⟩ := send_sent disk hb m
  rw [hrun]
  cases hs with
  | refused e => exact kept_self hb
  | failed _ _ hi => exact ⟨(invoke_footprint hi).1, rfl, hb⟩
  | handled _ _ hi => exact ⟨(invoke_footprint hi).1, rfl, hb⟩

theorem keeps_setField (name field : String) (v : Value) :
    Keeps (setField name field v : Act Interpreter Unit) :=
  keeps_bind (Reads.widget name).keeps fun _ =>
    keeps_bind (Reads.getField name field).keeps fun current =>
      keeps_bind (Reads.checkType current v).keeps fun _ _ hb => ⟨.of_eq rfl, rfl, hb⟩

/-- **A host keeps its program unless it is asked for another one.** -/
theorem respond_keeps {r : Request} (hr : ¬ r.Replaces) : Keeps (respondWith disk r) := by
  cases r with
  | interpret source => exact absurd (.interpret source) hr
  | reload source => exact absurd (.reload source) hr
  | loadFile path => exact absurd (.loadFile path) hr
  | mainView => exact keeps_bind (keeps_mainView disk) fun _ => (Reads.pure _).keeps
  | sameView =>
    refine keeps_bind ?_ fun _ => (Reads.pure _).keeps
    refine keeps_bind (keeps_mainView disk) fun _ => keeps_bind (keeps_mainView disk) fun _ => ?_
    refine Reads.keeps (.bind .get fun h => ?_)
    split <;> exact .pure _
  | render =>
    refine keeps_bind ?_ fun _ => (Reads.pure _).keeps
    exact keeps_bind (keeps_mainView disk) fun _ =>
      Reads.keeps (.bind .get fun _ => .ofExcept _)
  | send m => exact keeps_bind (keeps_send disk m) fun _ => (Reads.pure _).keeps
  | getField name field => exact Reads.keeps (.bind (.getField name field) fun _ => .pure _)
  | setField name field v => exact keeps_bind (keeps_setField name field v) fun _ =>
      (Reads.pure _).keeps
  | widget name => exact Reads.keeps (.bind (.widget name) fun _ => .pure _)
  | setHot on => exact fun h hb => ⟨.of_eq rfl, rfl, hb⟩

end Act

end Widgetry
