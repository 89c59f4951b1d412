import Widgetry.Proofs.Host.Edits

/-!
# What a session knows of itself

A session keeps the fingerprint of the text that it took last, and counts how often it replaced the
program. Files are written and deleted, paths are posted and the host is asked for something in any
order, and what is loaded, reloaded and polled in between may fail. Both stay right all the same.

> `account_kept`: the fingerprint is that of the text which the host holds, and the count is that of
> the polls and reloads that answered `true`; the next poll does so exactly if a path waits and the
> file has another text, which the host takes, and it leaves no path behind.

`Session.Turn` is what a call makes of a session, depending on whether it took the text of the
file, and `Editing.Account` is what follows from that for whole runs.
-/

namespace Widgetry

/-! ## Source files -/

namespace Session

section

variable {ρ : Type} {E : Engine ρ} {disk : Disk} {s : Session ρ} {t : String}

/-- **A reload replaces the program exactly if the file has another text that the host takes.** -/
theorem reload_true_iff : (s.reload E disk).1 = .ok true ↔
    ∃ t, s.source disk = .ok t ∧ s.fingerprint ≠ some (s.fingerprintOf t) ∧
      (E.respond disk (.reload t) s.host).1.isOk = true := by
  unfold reload
  cases s.source disk with
  | error e => simp
  | ok t =>
    dsimp only
    by_cases hsame : some (s.fingerprintOf t) = s.fingerprint
    · simp [hsame]
    · rw [if_neg hsame]
      have hne : s.fingerprint ≠ some (s.fingerprintOf t) := fun h => hsame h.symm
      simp only [Except.ok.injEq, exists_eq_left', ne_eq, hne, not_false_eq_true, true_and]
      rcases E.respond disk (.reload t) s.host with ⟨(_ | _) | a, host⟩ <;>
        simp [Except.isOk, Except.toBool]

theorem poll_true_iff : (s.poll E disk).1 = .ok true ↔ s.channel ≠ [] ∧
    ∃ t, s.source disk = .ok t ∧ s.fingerprint ≠ some (s.fingerprintOf t) ∧
      (E.respond disk (.reload t) s.host).1.isOk = true := by
  unfold poll
  cases hc : s.channel with
  | nil => simp
  | cons p rest =>
    rw [List.isEmpty_cons, if_neg Bool.false_ne_true, reload_true_iff]
    exact (and_iff_right (List.cons_ne_nil p rest)).symm

end

variable {disk : Disk} {s s' : Session Interpreter} {counted : Bool} {succeeded : Prop}

/-- What a call makes of a session: one that succeeded took the text of the file, and one that did
not changed nothing of what the session knows. -/
inductive Turn (disk : Disk) (s : Session Interpreter) (counted : Bool) (succeeded : Prop)
    (s' : Session Interpreter) : Prop where
  | kept : ¬ succeeded → s'.fingerprint = s.fingerprint → s'.reloads = s.reloads →
      s.host.Kept s'.host → Turn disk s counted succeeded s'
  | took {t : String} : succeeded → s.source disk = .ok t →
      s'.fingerprint = some (s.fingerprintOf t) → s'.reloads = s.reloads + counted.toNat →
      s'.host.engine.Holds t → s'.host.settings = s.host.settings → s'.host.busy = false →
      Turn disk s counted succeeded s'

theorem load_turn (disk : Disk) (hb : s.host.busy = false) :
    s.Turn disk false ((s.load Interpreter.engine disk).1 = .ok ())
      (s.load Interpreter.engine disk).2 := by
  obtain ⟨r, s', hrun, h⟩ := load_ends disk hb
  rw [hrun]
  cases h with
  | unread _ => exact .kept nofun rfl rfl (Act.kept_self hb)
  | refused _ _ hk => exact .kept nofun rfl rfl hk
  | done ht hh hset hfree => exact .took rfl ht rfl rfl hh hset hfree

theorem reload_turn (disk : Disk) (hb : s.host.busy = false) :
    s.Turn disk true ((s.reload Interpreter.engine disk).1 = .ok true)
      (s.reload Interpreter.engine disk).2 := by
  obtain ⟨r, s', hrun, h⟩ := reload_ends disk hb
  rw [hrun]
  cases h with
  | unread _ => exact .kept nofun rfl rfl (Act.kept_self hb)
  | same _ _ => exact .kept nofun rfl rfl (Act.kept_self hb)
  | refused _ _ hk => exact .kept nofun rfl rfl hk
  | done ht hh hset hfree => exact .took rfl ht rfl rfl hh hset hfree

theorem poll_turn (disk : Disk) (hb : s.host.busy = false) :
    s.Turn disk true ((s.poll Interpreter.engine disk).1 = .ok true)
      (s.poll Interpreter.engine disk).2 := by
  unfold poll
  by_cases hc : s.channel.isEmpty
  · rw [if_pos hc]
    exact .kept nofun rfl rfl (Act.kept_self hb)
  · rw [if_neg hc]
    -- the session that reloads differs in its channel only, which is not looked at
    have hturn := reload_turn (s := { s with channel := [] }) disk hb
    cases hturn with
    | kept hno hx hn hk => exact .kept hno hx hn hk
    | took hyes ht hx hn hh hset hfree => exact .took hyes ht hx hn hh hset hfree

/-- To watch the file as well makes no difference. -/
theorem Turn.started (h : s.Turn disk counted succeeded s') :
    s.Turn disk counted succeeded (s'.started disk) := by
  cases h with
  | kept hno hx hn hk => exact .kept hno hx hn ⟨hk.program, hk.settings, hk.free⟩
  | took hyes ht hx hn hh hset hfree => exact .took hyes ht hx hn hh hset hfree

/-- Starting loads the file if nothing was loaded. -/
theorem start_turn (disk : Disk) (hb : s.host.busy = false) :
    s.Turn disk false
      (s.fingerprint = none ∧ (s.start Interpreter.engine disk).1 = .ok ())
      (s.start Interpreter.engine disk).2 := by
  unfold start
  cases hx : s.fingerprint with
  | some x => exact .kept (fun h => nomatch h.1) rfl rfl ⟨.of_eq rfl, rfl, hb⟩
  | none =>
    have hturn := load_turn (s := s) disk hb
    rcases hl : s.load Interpreter.engine disk with ⟨r, s'⟩
    rw [hl] at hturn
    cases r with
    | error e => simpa using hturn
    | ok u => simpa [started] using hturn.started

end Session

/-! ## Whatever happens -/

/-- What can happen to a session and its files. Nobody else replaces the program. -/
inductive Occasion where
  | load
  | start
  | reload
  | scan
  | poll
  | post (p : Path)
  /-- files are written or deleted -/
  | edit (disk : Disk)
  | ask (r : Request) (hr : ¬ r.Replaces)

/-- Whether success is counted as a reload. -/
def Occasion.counted : Occasion → Bool
  | .reload | .poll => true
  | _ => false

namespace Editing

def next (w : Editing) : Occasion → Editing
  | .load => { w with session := (w.session.load Interpreter.engine w.disk).2 }
  | .start => { w with session := (w.session.start Interpreter.engine w.disk).2 }
  | .reload => { w with session := (w.session.reload Interpreter.engine w.disk).2 }
  | .scan => { w with session := (w.session.scan w.disk).2 }
  | .poll => { w with session := (w.session.poll Interpreter.engine w.disk).2 }
  | .post p => { w with session := w.session.post p }
  | .edit disk => { w with disk }
  | .ask r _ => { w with session := (w.session.ask Interpreter.engine w.disk r).2 }

/-- Whether a load or a reload succeeds: it ends without an error, and a reload answers `true`.
Starting is a load if there was none. -/
def Succeeds (w : Editing) : Occasion → Prop
  | .load => (w.session.load Interpreter.engine w.disk).1 = .ok ()
  | .start => w.session.fingerprint = none ∧
      (w.session.start Interpreter.engine w.disk).1 = .ok ()
  | .reload => (w.session.reload Interpreter.engine w.disk).1 = .ok true
  | .poll => (w.session.poll Interpreter.engine w.disk).1 = .ok true
  | _ => False

/-- What a session can come to, with what its file had whenever a load or a reload succeeded, the
first time first, and how many polls and reloads answered `true`. -/
inductive Reached : Editing → List (Except HostError String) → Nat → Prop where
  | begins {w : Editing} : w.Begins → Reached w [] 0
  | success {w : Editing} {texts : List (Except HostError String)} {n : Nat} (o : Occasion) :
      Reached w texts n → w.Succeeds o →
      Reached (w.next o) (texts ++ [w.text]) (n + o.counted.toNat)
  | other {w : Editing} {texts : List (Except HostError String)} {n : Nat} (o : Occasion) :
      Reached w texts n → ¬ w.Succeeds o → Reached (w.next o) texts n

variable {w : Editing} {texts : List (Except HostError String)} {n : Nat} {o : Occasion}

/-- **Whatever happens takes the text of the file, or leaves the session what it knows.** -/
theorem next_turn (hb : w.session.host.busy = false) (o : Occasion) :
    w.session.Turn w.disk o.counted (w.Succeeds o) (w.next o).session := by
  cases o with
  | load => exact Session.load_turn w.disk hb
  | start => exact Session.start_turn w.disk hb
  | reload => exact Session.reload_turn w.disk hb
  | poll => exact Session.poll_turn w.disk hb
  | scan => exact .kept id rfl rfl (Act.kept_self hb)
  | post p => exact .kept id rfl rfl (Act.kept_self hb)
  | edit disk => exact .kept id rfl rfl (Act.kept_self hb)
  | ask r hr => exact .kept id rfl rfl (Act.respond_keeps w.disk hr w.session.host hb)

/-- What a session knows of the texts that it took. -/
structure Account (texts : List (Except HostError String)) (n : Nat) (w : Editing) : Prop where
  free : w.session.host.busy = false
  reloads : w.session.reloads = n
  untaken : texts = [] → w.session.fingerprint = none
  /-- the text that was taken last is the one that the host holds -/
  taken : ∀ e, texts.getLast? = some e → ∃ t, e = .ok t ∧
    w.session.fingerprint = some (w.session.fingerprintOf t) ∧ w.session.host.engine.Holds t

theorem account_begins (hw : w.Begins) : w.Account [] 0 := by
  obtain ⟨host, path, hb, hnew⟩ := hw
  refine ⟨?_, ?_, fun _ => ?_, nofun⟩ <;> rw [hnew]
  · exact hb
  · rfl
  · rfl

theorem account_success (h : w.Account texts n) (ho : w.Succeeds o) :
    (w.next o).Account (texts ++ [w.text]) (n + o.counted.toNat) := by
  cases next_turn h.free o with
  | kept hno _ _ _ => exact absurd ho hno
  | @took t _ ht hx hn hh hset hfree =>
    refine ⟨hfree, by rw [hn, h.reloads], fun hnil => ?_, fun e he => ?_⟩
    · exact absurd hnil (List.append_ne_nil_of_right_ne_nil _ (List.cons_ne_nil _ _))
    · rw [List.getLast?_concat] at he
      refine ⟨t, (Option.some.inj he).symm.trans ht, ?_, hh⟩
      rw [Session.fingerprintOf_eq hset, hx]

theorem account_other (h : w.Account texts n) (ho : ¬ w.Succeeds o) :
    (w.next o).Account texts n := by
  cases next_turn h.free o with
  | took hyes _ _ _ _ _ _ => exact absurd hyes ho
  | kept _ hx hn hk =>
    refine ⟨hk.free, hn.trans h.reloads, fun hnil => hx.trans (h.untaken hnil), fun e he => ?_⟩
    obtain ⟨t, het, hprint, hholds⟩ := h.taken e he
    refine ⟨t, het, ?_, hholds.same hk.program⟩
    rw [Session.fingerprintOf_eq hk.settings, hx, hprint]

theorem Reached.account (h : Reached w texts n) : w.Account texts n := by
  induction h with
  | begins hw => exact account_begins hw
  | success o _ ho ih => exact account_success ih ho
  | other o _ ho ih => exact account_other ih ho

/-- The file is written, and its path is posted. -/
def edited (w : Editing) (source : String) : Editing :=
  (w.next (.edit { files := [(["a.at"], fileOf source 1)] })).next (.post w.session.path)

def loaded : Editing := unopened.next .load

/-- The file gets a text that cannot be loaded. -/
def broken : Editing := loaded.edited "type B is"

def mended : Editing := (broken.next .poll).edited newSource

theorem mended_computed :
    (unopened.session.load Interpreter.engine unopened.disk).1.toOption = some () ∧
    unopened.text = .ok oldSource ∧
    (broken.session.poll Interpreter.engine broken.disk).1.toOption = some false ∧
    (mended.session.poll Interpreter.engine mended.disk).1.toOption = some true ∧
    mended.text = .ok newSource := by
  decide +kernel

/-- An edit of the file is no success. -/
theorem Reached.edited (h : Reached w texts n) (source : String) :
    Reached (w.edited source) texts n :=
  .other (.post _) (.other (.edit _) h id) id

end Editing

end Widgetry
