import Widgetry.Proofs.Host.Bookkeeping

/-!
# Which error a session shows

A session keeps the error of a reload that failed for whoever asks. The next reload that replaces
the program clears it, and nothing else does: neither a load, nor a reload that finds the text which
is loaded already.

> `shown_current`: a session shows the error of the last reload that failed since one replaced the
> program. After a reload of the text that the host holds by then it shows none exactly if that
> reload replaced the program, or if none had failed since one did.

An edit that breaks the file and is taken back leaves its error behind: `reverted_error_shown`.
-/

namespace Widgetry

namespace Session

/-! ## One reload -/

section

variable {ρ : Type} {E : Engine ρ} {disk : Disk} {s : Session ρ} {e e' : HostError}

/-- Whether a reload fails with an error: the file has no text, or another one that the host
refuses. -/
def Refuses (E : Engine ρ) (disk : Disk) (s : Session ρ) (e : HostError) : Prop :=
  s.source disk = .error e ∨ ∃ t, s.source disk = .ok t ∧
    s.fingerprint ≠ some (s.fingerprintOf t) ∧
    (E.respond disk (.reload t) s.host).1 = .error (.refused e)

theorem Refuses.unique (h : s.Refuses E disk e) (h' : s.Refuses E disk e') : e = e' := by
  rcases h with h | ⟨t, ht, -, h⟩ <;> rcases h' with h' | ⟨t', ht', -, h'⟩
  · exact Except.error.inj (h.symm.trans h')
  · cases h.symm.trans ht'
  · cases ht.symm.trans h'
  · obtain rfl := Except.ok.inj (ht.symm.trans ht')
    exact Failure.refused.inj (Except.error.inj (h.symm.trans h'))

/-- What is shown after a reload: nothing if it replaced the program, the error that it failed with,
and otherwise what was shown before. -/
inductive Shows (E : Engine ρ) (disk : Disk) (s : Session ρ) (succeeded : Prop)
    (shown : Option HostError) : Prop where
  | cleared : succeeded → (∀ e, ¬ s.Refuses E disk e) → shown = none →
      Shows E disk s succeeded shown
  | failed {e : HostError} : ¬ succeeded → s.Refuses E disk e → shown = some e →
      Shows E disk s succeeded shown
  | kept : ¬ succeeded → (∀ e, ¬ s.Refuses E disk e) → shown = s.lastError →
      Shows E disk s succeeded shown

theorem reload_shows (E : Engine ρ) (disk : Disk) (s : Session ρ) :
    s.Shows E disk ((s.reload E disk).1 = .ok true) (s.reload E disk).2.lastError := by
  unfold reload
  rcases ht : s.source disk with e | t
  · exact .failed nofun (.inl ht) rfl
  · -- a text that can be read is refused by the host only
    have hread : ∀ e, s.Refuses E disk e → s.fingerprint ≠ some (s.fingerprintOf t) ∧
        (E.respond disk (.reload t) s.host).1 = .error (.refused e) := by
      rintro e (h | ⟨t', ht', h⟩)
      · cases ht.symm.trans h
      · exact Except.ok.inj (ht.symm.trans ht') ▸ h
    dsimp only
    by_cases hsame : some (s.fingerprintOf t) = s.fingerprint
    · rw [if_pos hsame]
      exact .kept nofun (fun e he => (hread e he).1 hsame.symm) rfl
    · rw [if_neg hsame]
      rcases hr : E.respond disk (.reload t) s.host with ⟨f | a, host⟩
      · cases f with
        | refused e => exact .failed nofun (.inr ⟨t, ht, Ne.symm hsame, by rw [hr]⟩) rfl
        | source _ | number _ | crash _ | conversion _ =>
          exact .kept nofun (fun e he => by simpa [hr] using (hread e he).2) rfl
      · exact .cleared rfl (fun e he => by simpa [hr] using (hread e he).2) rfl

theorem poll_of_ne_nil (hc : s.channel ≠ []) :
    s.poll E disk = reload E disk { s with channel := [] } := by
  rw [poll, if_neg (mt List.isEmpty_iff.mp hc)]

theorem load_lastError (E : Engine ρ) (disk : Disk) (s : Session ρ) :
    (s.load E disk).2.lastError = s.lastError := by
  unfold load
  cases s.source disk with
  | error e => rfl
  | ok t =>
    dsimp only
    rcases E.respond disk (.interpret t) s.host with ⟨_ | _, host⟩ <;> rfl

theorem start_lastError (E : Engine ρ) (disk : Disk) (s : Session ρ) :
    (s.start E disk).2.lastError = s.lastError := by
  have hload := load_lastError E disk s
  unfold start
  cases s.fingerprint with
  | some x => rfl
  | none =>
    rcases hl : s.load E disk with ⟨_ | _, s'⟩
    all_goals
      rw [hl] at hload
      exact hload

end

end Session

namespace Editing

/-! ## Whatever happens -/

/-- Whether the session looks at the file to load it anew. -/
def Tries (w : Editing) : Occasion → Prop
  | .reload => True
  | .poll => w.session.channel ≠ []
  | _ => False

/-- Whether a reload fails with an error. -/
def Fails (w : Editing) (o : Occasion) (e : HostError) : Prop :=
  w.Tries o ∧ w.session.Refuses Interpreter.engine w.disk e

/-- What a session can come to, with the text that it took last and the errors of the reloads that
failed since one replaced the program, the first one first. -/
inductive Recorded : Editing → Option String → List HostError → Prop where
  | begins {w : Editing} : w.Begins → Recorded w none []
  | took {w : Editing} {held : Option String} {errors : List HostError} {t : String}
      (o : Occasion) : Recorded w held errors → w.Succeeds o → w.text = .ok t →
      Recorded (w.next o) (some t) (if o.counted then [] else errors)
  | failed {w : Editing} {held : Option String} {errors : List HostError} {e : HostError}
      (o : Occasion) : Recorded w held errors → w.Fails o e →
      Recorded (w.next o) held (errors ++ [e])
  | other {w : Editing} {held : Option String} {errors : List HostError} (o : Occasion) :
      Recorded w held errors → ¬ w.Succeeds o → (∀ e, ¬ w.Fails o e) →
      Recorded (w.next o) held errors

variable {w : Editing} {held : Option String} {errors : List HostError} {o : Occasion}
  {e : HostError} {t : String}

/-- **A reload clears or sets the error that is shown or leaves it.** -/
theorem tries_shows (ho : w.Tries o) :
    w.session.Shows Interpreter.engine w.disk (w.Succeeds o) (w.next o).session.lastError := by
  cases o with
  | reload => exact Session.reload_shows _ _ _
  | poll =>
    have hpoll : w.session.poll Interpreter.engine w.disk
        = Session.reload Interpreter.engine w.disk { w.session with channel := [] } :=
      Session.poll_of_ne_nil ho
    show w.session.Shows _ _ ((w.session.poll _ _).1 = .ok true) (w.session.poll _ _).2.lastError
    rw [hpoll]
    -- the session that reloads differs in its channel only, which is not looked at
    cases Session.reload_shows Interpreter.engine w.disk { w.session with channel := [] } with
    | cleared hyes hnone hshown => exact .cleared hyes hnone hshown
    | failed hno he hshown => exact .failed hno he hshown
    | kept hno hnone hshown => exact .kept hno hnone hshown
  | load | start | scan | post _ | edit _ | ask _ _ => exact ho.elim

/-- Nothing but a reload touches the error that is shown. -/
theorem lastError_next (ho : ¬ w.Tries o) :
    (w.next o).session.lastError = w.session.lastError := by
  cases o with
  | reload => exact absurd trivial ho
  | poll =>
    have hc : w.session.channel = [] := not_not.mp ho
    exact congrArg Session.lastError (Session.poll_of_nil hc)
  | load => exact Session.load_lastError _ _ _
  | start => exact Session.start_lastError _ _ _
  | scan | post _ | edit _ | ask _ _ => rfl

theorem Tries.counted (ho : w.Tries o) : o.counted = true := by
  cases o <;> first | rfl | exact ho.elim

theorem Succeeds.tries (h : w.Succeeds o) (hc : o.counted = true) : w.Tries o := by
  cases o with
  | reload => trivial
  | poll => exact (Session.poll_true_iff.mp h).1
  | load | start | scan | post _ | edit _ | ask _ _ => cases hc

theorem Fails.not_succeeds (h : w.Fails o e) : ¬ w.Succeeds o := by
  cases tries_shows h.1 with
  | cleared _ hnone _ => exact absurd h.2 (hnone e)
  | failed hno _ _ => exact hno
  | kept hno _ _ => exact hno

theorem lastError_of_fails (h : w.Fails o e) : (w.next o).session.lastError = some e := by
  cases tries_shows h.1 with
  | cleared _ hnone _ => exact absurd h.2 (hnone e)
  | failed _ he hshown => exact hshown.trans (congrArg some (he.unique h.2))
  | kept _ hnone _ => exact absurd h.2 (hnone e)

theorem lastError_of_succeeds (h : w.Succeeds o) :
    (w.next o).session.lastError = if o.counted then none else w.session.lastError := by
  cases hc : o.counted with
  | false =>
    rw [lastError_next fun ho => Bool.false_ne_true (hc.symm.trans ho.counted)]
    rfl
  | true =>
    cases tries_shows (h.tries hc) with
    | cleared _ _ hshown => exact hshown
    | failed hno _ _ => exact absurd h hno
    | kept hno _ _ => exact absurd h hno

theorem lastError_of_neither (hs : ¬ w.Succeeds o) (hf : ∀ e, ¬ w.Fails o e) :
    (w.next o).session.lastError = w.session.lastError := by
  by_cases ho : w.Tries o
  · cases tries_shows ho with
    | cleared hyes _ _ => exact absurd hyes hs
    | failed _ he _ => exact absurd ⟨ho, he⟩ (hf _)
    | kept _ _ hshown => exact hshown
  · exact lastError_next ho

/-- A reload after which there is an error has failed, if there was none before. -/
theorem fails_of_shown (ho : w.Tries o) (hbefore : w.session.lastError = none)
    (hafter : (w.next o).session.lastError ≠ none) : ∃ e, w.Fails o e := by
  cases tries_shows ho with
  | cleared _ _ hshown => exact absurd hshown hafter
  | failed _ he _ => exact ⟨_, ho, he⟩
  | kept _ _ hshown => exact absurd (hshown.trans hbefore) hafter

/-- What is recorded is part of what can be reached. -/
theorem Recorded.reached (h : Recorded w held errors) :
    ∃ texts n, Reached w texts n ∧ texts.getLast? = held.map .ok := by
  induction h with
  | begins hw => exact ⟨[], 0, .begins hw, rfl⟩
  | took o _ ho ht ih =>
    obtain ⟨texts, n, hr, -⟩ := ih
    exact ⟨_, _, .success o hr ho, List.getLast?_concat.trans (congrArg some ht)⟩
  | failed o _ ho ih =>
    obtain ⟨texts, n, hr, hlast⟩ := ih
    exact ⟨texts, n, .other o hr ho.not_succeeds, hlast⟩
  | other o _ ho _ ih =>
    obtain ⟨texts, n, hr, hlast⟩ := ih
    exact ⟨texts, n, .other o hr ho, hlast⟩

theorem Recorded.free (h : Recorded w held errors) : w.session.host.busy = false := by
  obtain ⟨_, _, hr, -⟩ := h.reached
  exact hr.account.free

/-- The host holds the text that was taken last. -/
theorem Recorded.holds (h : Recorded w (some t) errors) : w.session.host.engine.Holds t := by
  obtain ⟨texts, n, hr, hlast⟩ := h.reached
  obtain ⟨t', het, -, hholds⟩ := hr.account.taken _ hlast
  cases het
  exact hholds

/-- Whatever happens next is recorded too. -/
theorem Recorded.goes_on (h : Recorded w held errors) (o : Occasion) :
    ∃ held' errors', Recorded (w.next o) held' errors' := by
  by_cases hs : w.Succeeds o
  · cases next_turn h.free o with
    | kept hno _ _ _ => exact absurd hs hno
    | took _ ht _ _ _ _ _ => exact ⟨_, _, h.took o hs ht⟩
  · by_cases hf : ∃ e, w.Fails o e
    · obtain ⟨e, he⟩ := hf
      exact ⟨_, _, h.failed o he⟩
    · exact ⟨_, _, h.other o hs (not_exists.mp hf)⟩

/-- What is shown is the last of the errors since the program was replaced. -/
theorem Recorded.lastError (h : Recorded w held errors) :
    w.session.lastError = errors.getLast? := by
  induction h with
  | begins hw =>
    obtain ⟨host, path, -, hnew⟩ := hw
    rw [hnew]
    rfl
  | took o _ ho _ ih =>
    rw [lastError_of_succeeds ho, ih]
    cases o.counted <;> rfl
  | failed o _ ho _ => rw [lastError_of_fails ho, List.getLast?_concat]
  | other o _ ho hf ih => rw [lastError_of_neither ho hf, ih]

/-- A file that has the text which was taken last makes no reload fail. -/
theorem Recorded.not_fails (h : Recorded w (some t) errors) (ht : w.text = .ok t) (o : Occasion) :
    ¬ w.Fails o e := by
  obtain ⟨texts, n, hr, hlast⟩ := h.reached
  obtain ⟨t', het, hprint, -⟩ := hr.account.taken _ hlast
  cases het
  rintro ⟨-, hnone | ⟨t', ht', hother, -⟩⟩
  · cases hnone.symm.trans ht
  · exact hother (Except.ok.inj (ht.symm.trans ht') ▸ hprint)

/-- **A session shows the error of the last reload that failed since one replaced the program**, so
after a reload of the text that the host holds then it shows none exactly if that reload replaced
the program or none had failed since. -/
theorem shown_current (h : Recorded w held errors) :
    w.session.lastError = errors.getLast? ∧
    ∀ o, (∃ held' errors', Recorded (w.next o) held' errors') ∧
      ∀ t, w.Tries o → w.text = .ok t → (w.Succeeds o ∨ held = some t) →
        (w.next o).session.host.engine.Holds t ∧
        ((w.next o).session.lastError = none ↔ w.Succeeds o ∨ errors = []) ∧
        (¬ w.Succeeds o → (w.next o).session.lastError = w.session.lastError) := by
  refine ⟨h.lastError, fun o => ⟨h.goes_on o, fun t ho ht hheld => ?_⟩⟩
  by_cases hs : w.Succeeds o
  · refine ⟨(h.took o hs ht).holds, ?_, fun hno => absurd hs hno⟩
    rw [lastError_of_succeeds hs, ho.counted]
    exact iff_of_true rfl (.inl hs)
  · obtain rfl : held = some t := hheld.resolve_left hs
    have hf : ∀ e, ¬ w.Fails o e := fun _ => h.not_fails ht o
    have hsame := lastError_of_neither hs hf
    refine ⟨(h.other o hs hf).holds, ?_, fun _ => hsame⟩
    rw [hsame, h.lastError, List.getLast?_eq_none_iff, or_iff_right hs]

/-! ### A broken file that is mended, and one that is put back -/

/-- The edit that broke the file is taken back. -/
def reverted : Editing := (broken.next .poll).edited oldSource

theorem broken_computed :
    broken.session.channel.isEmpty = false ∧ broken.session.lastError = none ∧
    (broken.next .poll).session.lastError.isSome = true ∧
    mended.session.channel.isEmpty = false ∧
    reverted.session.channel.isEmpty = false ∧ reverted.text = .ok oldSource ∧
    (reverted.next .poll).session.lastError.isSome = true := by
  decide +kernel

theorem tries_poll (hc : w.session.channel.isEmpty = false) : w.Tries .poll :=
  fun hnil => Bool.false_ne_true (hc.symm.trans (List.isEmpty_iff.mpr hnil))

theorem Recorded.edited (h : Recorded w held errors) (source : String) :
    Recorded (w.edited source) held errors :=
  .other (.post _) (.other (.edit _) h id fun _ he => he.1) id fun _ he => he.1

theorem recorded_broken : ∃ e, Recorded (broken.next .poll) (some oldSource) [e] := by
  obtain ⟨hload, hold, -, -, -⟩ := mended_computed
  obtain ⟨hchannel, hbefore, hafter, -, -, -, -⟩ := broken_computed
  have hloaded : Recorded loaded (some oldSource) [] :=
    .took .load (.begins begins_unopened) (toOption_eq_some_iff.mp hload) hold
  obtain ⟨e, he⟩ :=
    fails_of_shown (tries_poll hchannel) hbefore (Option.isSome_iff_ne_none.mp hafter)
  exact ⟨e, (hloaded.edited _).failed .poll he⟩

/-- The error of the text that broke the file is shown until the text that mends it is taken. -/
theorem mended_error_cleared : ∃ e, Recorded mended (some oldSource) [e] ∧
    mended.session.lastError = some e ∧ mended.text = .ok newSource ∧ mended.Succeeds .poll ∧
    (mended.next .poll).session.lastError = none := by
  obtain ⟨e, he⟩ := recorded_broken
  obtain ⟨-, -, -, hmended, hnew⟩ := mended_computed
  obtain ⟨-, -, -, hchannel, -, -, -⟩ := broken_computed
  have hs : mended.Succeeds .poll := toOption_eq_some_iff.mp hmended
  have hrec : Recorded mended (some oldSource) [e] := he.edited newSource
  obtain ⟨hshown, hnext⟩ := shown_current hrec
  obtain ⟨-, hclear, -⟩ := (hnext .poll).2 newSource (tries_poll hchannel) hnew (.inl hs)
  exact ⟨e, hrec, hshown, hnew, hs, hclear.mpr (.inl hs)⟩

/-- The error stays when the file gets back the text that the host holds. -/
theorem reverted_error_shown : ¬ ∀ (w : Editing) (held : Option String)
    (errors : List HostError), Recorded w held errors → ∀ o t, w.Tries o → w.text = .ok t →
      (w.Succeeds o ∨ held = some t) → (w.next o).session.lastError = none := by
  intro hall
  obtain ⟨e, he⟩ := recorded_broken
  obtain ⟨-, -, -, -, hchannel, htext, hshown⟩ := broken_computed
  have hclear := hall reverted (some oldSource) [e] (he.edited oldSource) .poll oldSource
    (tries_poll hchannel) htext (.inr rfl)
  exact Option.isSome_iff_ne_none.mp hshown hclear

end Editing

end Widgetry
