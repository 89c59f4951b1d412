import Widgetry.Proofs.Host.Rendering
import Widgetry.Proofs.Language.Constants

/-!
# Variables after a message that failed

The host hands a handler a copy of the fields, and drops the copy if the handler fails. The
variables of the program have no copy: a handler writes to the variables themselves, and what it
wrote before it failed stays.

> `failed_variables`: after a message that failed, the variables are as they were or as the handler
> left them; none was added or removed, and the immutable ones have the values that they had.

`variable_spilled` is a run on which a failed handler has changed a variable.
-/

namespace Widgetry

/-- A handler that a message has run on a copy of its recipient's fields, and that failed; `left` is
the machine as it was then. -/
structure Host.FailedRun (h : Host Interpreter) (m : Message) (p : Program) (left : Machine) :
    Prop where
  program : h.engine.program = some p
  run : ∃ (name event : String) (s : WidgetState) (args : List Value) (decl : TypeDecl)
    (fn : FnDecl) (halt : Halt),
    m.recipient? h.engine.mainWidget? = some name ∧ h.widgets.get? name = some s ∧
    p.code.type? name = some decl ∧ decl.method? "on" = some fn ∧
    call evaluationLimit (p.context name (h.store.copyTable s.table).1) fn
      (Interpreter.addressEvent name "on" (.str event :: args))
      { globals := p.globals, store := (h.store.copyTable s.table).2, output := h.engine.output }
      = (.error halt, left)

variable {h h' : Host Interpreter}

/-- A method that fails was not run, or it has left its variables to the interpreter. -/
theorem invoke_error_variables {i i' : Interpreter} {σ σ' : Store} {widget method : String}
    {args : List Value} {t : TableId} {f : Fault}
    (hi : i.invoke σ widget method args t = (.error f, i', σ')) :
    i' = i ∨ ∃ (p : Program) (decl : TypeDecl) (fn : FnDecl) (halt : Halt) (left : Machine),
      i.program = some p ∧ p.code.type? widget = some decl ∧ decl.method? method = some fn ∧
      call evaluationLimit (p.context widget t) fn (Interpreter.addressEvent widget method args)
        { globals := p.globals, store := σ, output := i.output } = (.error halt, left) ∧
      i'.variables = some left.globals := by
  rcases i.invoke_cases σ widget method args t with ⟨e, hcall⟩ | ⟨p, decl, fn, hp, hd, hm, hcall⟩
  · cases hcall.symm.trans hi
    exact Or.inl rfl
  · rw [hcall, Interpreter.execute] at hi
    rcases hrun : call evaluationLimit (p.context widget t) fn
      (Interpreter.addressEvent widget method args)
      { globals := p.globals, store := σ, output := i.output } with ⟨r, left⟩
    rw [hrun] at hi
    cases r with
    | ok v => cases hi
    | error halt =>
      cases hi
      exact Or.inr ⟨p, decl, fn, halt, left, hp, hd, hm, hrun, rfl⟩

/-- What the run of a handler leaves alone in the variables. -/
theorem Host.FailedRun.constant {m : Message} {p : Program} {left : Machine}
    (hf : h.FailedRun m p left) : left.globals.values.names = p.globals.values.names ∧
      left.globals.consts = p.globals.consts ∧
      ∀ name ∈ p.globals.consts, left.globals.get? name = p.globals.get? name := by
  obtain ⟨name, event, s, args, decl, fn, halt, -, -, -, -, hrun⟩ := hf.run
  have hc : Footprint.Ok (h.store.copyTable s.table).1
      (p.context name (h.store.copyTable s.table).1) := fun u hu => (Option.some.inj hu).symm
  have ht := call_touches hc evaluationLimit fn
    (Interpreter.addressEvent name "on" (.str event :: args))
    { globals := p.globals, store := (h.store.copyTable s.table).2, output := h.engine.output }
  have hk := call_constant hc evaluationLimit fn
    (Interpreter.addressEvent name "on" (.str event :: args))
    { globals := p.globals, store := (h.store.copyTable s.table).2, output := h.engine.output }
  rw [hrun] at ht hk
  exact ⟨ht.vars, ht.consts, hk⟩

namespace Act

/-- **After a message that failed, the variables are as the handler left them**, or as they were if
none was run. Whatever it did, there are the same variables, and the same of them are immutable and
have the values that they had. -/
theorem failed_variables (disk : Disk) (hr : h.Reachable) (m : Message) {e : Failure}
    (he : respondWith disk (.send m) h = (.error e, h')) :
    (h'.engine.variables = h.engine.variables ∨
      ∃ p left, h.FailedRun m p left ∧ h'.engine.variables = some left.globals) ∧
    ∀ g ∈ h.engine.variables, ∃ g' ∈ h'.engine.variables, g'.values.names = g.values.names ∧
      g'.consts = g.consts ∧ ∀ name ∈ g.consts, g'.get? name = g.get? name := by
  have hsame : h'.engine.variables = h.engine.variables →
      ∀ g ∈ h.engine.variables, ∃ g' ∈ h'.engine.variables, g'.values.names = g.values.names ∧
        g'.consts = g.consts ∧ ∀ name ∈ g.consts, g'.get? name = g.get? name :=
    fun hv g hg => ⟨g, hv ▸ hg, rfl, rfl, fun _ _ => rfl⟩
  obtain ⟨r, h₁, hrun, hsent⟩ := send_sent disk (reachable_sound hr).free m
  cases hsent with
  | refused e' =>
    have hresp : respondWith disk (.send m) h = (.error e', h) := run_bind_error hrun
    cases hresp.symm.trans he
    exact ⟨Or.inl rfl, hsame rfl⟩
  | @failed name event s args f i σ hto hg hi =>
    have hresp : respondWith disk (.send m) h = (.error (methodError f), h.ran i σ) :=
      run_bind_error hrun
    cases hresp.symm.trans he
    rcases invoke_error_variables hi with rfl | ⟨p, decl, fn, halt, left, hp, hd, hm, hc, hv⟩
    · exact ⟨Or.inl rfl, hsame rfl⟩
    · have hf : h.FailedRun m p left :=
        ⟨hp, name, event, s, args, decl, fn, halt, hto, hg, hd, hm, hc⟩
      refine ⟨Or.inr ⟨p, left, hf, hv⟩, fun g hg' => ?_⟩
      rw [Interpreter.variables, hp] at hg'
      cases hg'
      exact ⟨left.globals, hv, hf.constant⟩
  | @handled name event s args v i σ hto hg hi =>
    have hresp : respondWith disk (.send m) h
        = (.ok .done, h.handled i σ name (h.store.copyTable s.table).1) := run_bind_ok hrun
    cases hresp.symm.trans he

/-- A handler that counts in a variable and then fails, as it writes to an immutable one. -/
def spillingSource : String :=
  "let limit = 5\nvar n = 0\n" ++
  "type W is Widget \x7b\n fn view() \x7b text(n) \x7d\n" ++
  " fn on(ev) \x7b\n  n = n + 1\n  limit = 2\n \x7d\n\x7d"

/-- A host that has loaded that program. -/
def spilling : Host Interpreter :=
  (respondWith {} (.interpret spillingSource) (Host.new {} {} none)).2

theorem reachable_spilling : spilling.Reachable := reachable_ofSource spillingSource

/-- The whole number in a variable of a host. -/
def wholeIn (h : Host Interpreter) (name : String) : Option Int :=
  match h.engine.variables.bind (·.get? name) with
  | some (.scalar (.int n)) => some n
  | _ => none

/-- The immutable variable is as it was. -/
theorem spilling_limit : ∃ e h', respondWith {} (.send (.event "X")) spilling = (.error e, h') ∧
    ∃ g ∈ spilling.engine.variables, ∃ g' ∈ h'.engine.variables,
      "limit" ∈ g.consts ∧ g'.get? "limit" = g.get? "limit" := by
  have hX : (respondWith {} (.send (.event "X")) spilling).1.isOk = false := by decide +kernel
  have hlimit : spilling.engine.variables.any (·.consts.contains "limit") = true := by
    decide +kernel
  obtain ⟨g, hg, hconst⟩ := (Option.any_eq_true _ _).mp hlimit
  rcases hrun : respondWith {} (.send (.event "X")) spilling with ⟨r, h'⟩
  rw [hrun] at hX
  cases r with
  | ok a => cases hX
  | error e =>
    obtain ⟨g', hg', -, -, hkept⟩ := (failed_variables {} reachable_spilling _ hrun).2 g hg
    have hmem : "limit" ∈ g.consts := List.contains_iff_mem.mp hconst
    exact ⟨e, h', rfl, g, hg, g', hg', hmem, hkept "limit" hmem⟩

/-- The other one was counted up by the handler that failed. -/
theorem variable_spilled : ¬ ∀ h : Host Interpreter, h.Reachable → ∀ m e h',
    respondWith {} (.send m) h = (.error e, h') → ∀ name,
      h'.engine.variables.bind (·.get? name) = h.engine.variables.bind (·.get? name) := by
  intro hall
  have hX : (respondWith {} (.send (.event "X")) spilling).1.isOk = false := by decide +kernel
  -- the handler counts first, and fails at the immutable variable behind it
  have hbefore : wholeIn spilling "n" = some 0 := by decide +kernel
  have hafter : wholeIn (respondWith {} (.send (.event "X")) spilling).2 "n" = some 1 := by
    decide +kernel
  rcases hrun : respondWith {} (.send (.event "X")) spilling with ⟨r, h'⟩
  rw [hrun] at hX hafter
  cases r with
  | ok a => cases hX
  | error e =>
    have hkept := hall spilling reachable_spilling _ e h' hrun "n"
    rw [wholeIn, hkept, ← wholeIn, hbefore] at hafter
    cases hafter

end Act

end Widgetry
