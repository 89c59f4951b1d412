import Widgetry.Host.Session
import Widgetry.Proofs.Files.Watching
import Widgetry.Proofs.Host.Programs

/-!
# Edits of a source file

A session is there so that its host always has the program of a file, whoever edits the file. It
loads the file, starts to watch it, looks for changes and applies what it found, and in between the
file is written.

> `edits_kept`: once the session has looked for changes after the last edit and has applied them,
> its host holds the text of the file, unless the session started to watch too late.

It does so if the file was written after it was loaded and before it was watched: the watcher takes
that edit as seen, and nothing tells of it.

The invariant is `Caught`: if the watcher has seen the file as it is, then either a path still waits
in the channel or the text of the file is the one that was loaded last.
-/

namespace Widgetry

open Interpreter (Loads)

/-! ## What a session can do -/

namespace Session

variable {disk : Disk} {s s' : Session Interpreter}

/-- What a session becomes, whatever it does. -/
structure Advanced (disk : Disk) (s s' : Session Interpreter) : Prop where
  path : s'.path = s.path
  settings : s'.host.settings = s.host.settings
  free : s'.host.busy = false
  paths : s'.watcher.paths = s.watcher.paths
  /-- the watcher has seen nothing new, or all that there is -/
  seen : s'.watcher.seen = s.watcher.seen ∨ s'.watcher.seen = s.watcher.scan disk
  /-- the host has its program still, or holds the text of the file -/
  program : (s'.fingerprint = s.fingerprint ∧ s.host.engine.SameProgram s'.host.engine) ∨
    ∃ t, s.source disk = .ok t ∧ s'.fingerprint = some (s.fingerprintOf t) ∧
      s'.host.engine.Holds t

/-- What a session becomes that has tried to take the text of the file. -/
structure Tried (disk : Disk) (s s' : Session Interpreter) : Prop where
  advanced : s.Advanced disk s'
  watcher : s'.watcher = s.watcher
  fresh : ∀ t, s.source disk = .ok t → Loads t → s'.fingerprint = some (s.fingerprintOf t)

/-- Fingerprints depend on the settings only. -/
theorem fingerprintOf_eq (h : s'.host.settings = s.host.settings) :
    s'.fingerprintOf = s.fingerprintOf := by
  funext t
  rw [fingerprintOf, h, fingerprintOf]

theorem advanced_self (hb : s.host.busy = false) : s.Advanced disk s :=
  ⟨rfl, rfl, hb, rfl, .inl rfl, .inl ⟨rfl, .of_eq rfl⟩⟩

theorem Advanced.source (h : s.Advanced disk s') : s'.source disk = s.source disk := by
  rw [Session.source, h.path, h.settings, Session.source]

theorem Advanced.fingerprintOf (h : s.Advanced disk s') : s'.fingerprintOf = s.fingerprintOf :=
  fingerprintOf_eq h.settings

theorem tried_kept {h' : Host Interpreter} {e : Option HostError} (hk : s.host.Kept h')
    (hfresh : ∀ t, s.source disk = .ok t → Loads t → s.fingerprint = some (s.fingerprintOf t)) :
    s.Tried disk { s with host := h', lastError := e } :=
  ⟨⟨rfl, hk.settings, hk.free, rfl, .inl rfl, .inl ⟨rfl, hk.program⟩⟩, rfl, hfresh⟩

theorem tried_holds {t : String} {h' : Host Interpreter} {e : Option HostError} {n : Nat}
    (ht : s.source disk = .ok t) (hh : h'.engine.Holds t)
    (hset : h'.settings = s.host.settings) (hfree : h'.busy = false) :
    s.Tried disk { s with
      host := h', fingerprint := some (s.fingerprintOf t), reloads := n, lastError := e } := by
  refine ⟨⟨rfl, hset, hfree, rfl, .inl rfl, .inr ⟨t, ht, rfl, hh⟩⟩, rfl, fun t' hs _ => ?_⟩
  rw [Except.ok.inj (ht.symm.trans hs)]

/-- How loading the file ends. -/
inductive LoadEnds (disk : Disk) (s : Session Interpreter) :
    Except Failure Unit → Session Interpreter → Prop where
  | unread {e : HostError} : s.source disk = .error e → LoadEnds disk s (.error (.refused e)) s
  | refused {t : String} {e : HostError} {host : Host Interpreter} : s.source disk = .ok t →
      ¬ Loads t → s.host.Kept host → LoadEnds disk s (.error (.refused e)) { s with host }
  | done {t : String} {host : Host Interpreter} : s.source disk = .ok t → host.engine.Holds t →
      host.settings = s.host.settings → host.busy = false →
      LoadEnds disk s (.ok ()) { s with host, fingerprint := some (s.fingerprintOf t) }

theorem load_ends (disk : Disk) (hb : s.host.busy = false) :
    ∃ r s', s.load Interpreter.engine disk = (r, s') ∧ s.LoadEnds disk r s' := by
  unfold load
  cases ht : s.source disk with
  | error e => exact ⟨_, _, rfl, .unread ht⟩
  | ok t =>
    obtain ⟨r, h', hrun, hr⟩ := Act.interpret_replaced disk hb t
    have hrun : Interpreter.engine.respond disk (.interpret t) s.host = (r, h') := hrun
    dsimp only
    rw [hrun]
    cases hr with
    | done _ hh hset hfree => exact ⟨_, _, rfl, .done ht hh hset hfree⟩
    | refused hl hk => exact ⟨_, _, rfl, .refused ht hl hk⟩

/-- How loading the file anew ends. -/
inductive ReloadEnds (disk : Disk) (s : Session Interpreter) :
    Except Failure Bool → Session Interpreter → Prop where
  | unread {e : HostError} : s.source disk = .error e →
      ReloadEnds disk s (.ok false) { s with lastError := some e }
  | same {t : String} : s.source disk = .ok t → s.fingerprint = some (s.fingerprintOf t) →
      ReloadEnds disk s (.ok false) s
  | refused {t : String} {e : HostError} {host : Host Interpreter} : s.source disk = .ok t →
      ¬ Loads t → s.host.Kept host →
      ReloadEnds disk s (.ok false) { s with host, lastError := some e }
  | done {t : String} {host : Host Interpreter} : s.source disk = .ok t → host.engine.Holds t →
      host.settings = s.host.settings → host.busy = false →
      ReloadEnds disk s (.ok true) { s with
        host, fingerprint := some (s.fingerprintOf t), lastError := none, reloads := s.reloads + 1 }

theorem reload_ends (disk : Disk) (hb : s.host.busy = false) :
    ∃ r s', s.reload Interpreter.engine disk = (r, s') ∧ s.ReloadEnds disk r s' := by
  unfold reload
  cases ht : s.source disk with
  | error e => exact ⟨_, _, rfl, .unread ht⟩
  | ok t =>
    dsimp only
    split
    · next hsame => exact ⟨_, _, rfl, .same ht hsame.symm⟩
    · obtain ⟨r, h', hrun, hr⟩ := Act.reload_replaced disk hb t
      have hrun : Interpreter.engine.respond disk (.reload t) s.host = (r, h') := hrun
      rw [hrun]
      cases hr with
      | done _ hh hset hfree => exact ⟨_, _, rfl, .done ht hh hset hfree⟩
      | refused hl hk => exact ⟨_, _, rfl, .refused ht hl hk⟩

theorem load_tried (disk : Disk) (hb : s.host.busy = false) :
    s.Tried disk (s.load Interpreter.engine disk).2 := by
  obtain ⟨r, s', hrun, h⟩ := load_ends disk hb
  rw [hrun]
  cases h with
  | unread ht => exact tried_kept (Act.kept_self hb) fun t hs => nomatch ht.symm.trans hs
  | refused ht hl hk =>
    exact tried_kept hk fun t' hs hl' => absurd (Except.ok.inj (hs.symm.trans ht) ▸ hl') hl
  | done ht hh hset hfree => exact tried_holds ht hh hset hfree

theorem reload_tried (disk : Disk) (hb : s.host.busy = false) :
    s.Tried disk (s.reload Interpreter.engine disk).2 := by
  obtain ⟨r, s', hrun, h⟩ := reload_ends disk hb
  rw [hrun]
  cases h with
  | unread ht => exact tried_kept (Act.kept_self hb) fun t hs => nomatch ht.symm.trans hs
  | same ht hsame =>
    exact tried_kept (Act.kept_self hb) fun t' hs _ => Except.ok.inj (ht.symm.trans hs) ▸ hsame
  | refused ht hl hk =>
    exact tried_kept hk fun t' hs hl' => absurd (Except.ok.inj (hs.symm.trans ht) ▸ hl') hl
  | done ht hh hset hfree => exact tried_holds ht hh hset hfree

theorem reload_channel (s : Session Interpreter) :
    (s.reload Interpreter.engine disk).2.channel = s.channel := by
  unfold reload
  split
  · rfl
  · dsimp only
    split
    · rfl
    · split <;> rfl

/-- Polling leaves no path in the channel. -/
theorem poll_channel (s : Session Interpreter) :
    (s.poll Interpreter.engine disk).2.channel = [] := by
  unfold poll
  split
  · next hc => exact List.isEmpty_iff.mp hc
  · exact reload_channel _

theorem poll_of_nil (hc : s.channel = []) : (s.poll Interpreter.engine disk).2 = s := by
  unfold poll
  rw [hc]
  rfl

/-- Polling does nothing, or takes the text of the file. -/
theorem poll_cases (disk : Disk) (hb : s.host.busy = false) :
    (s.channel = [] ∧ (s.poll Interpreter.engine disk).2 = s) ∨
      s.Tried disk (s.poll Interpreter.engine disk).2 := by
  cases hc : s.channel with
  | nil => exact Or.inl ⟨rfl, poll_of_nil hc⟩
  | cons p rest =>
    unfold poll
    rw [hc]
    obtain ⟨⟨hpath, hset, hfree, hpaths, hseen, hprogram⟩, hwatcher, hfresh⟩ :=
      reload_tried (s := { s with channel := [] }) disk hb
    exact Or.inr ⟨⟨hpath, hset, hfree, hpaths, hseen, hprogram⟩, hwatcher, hfresh⟩

theorem poll_advanced (disk : Disk) (hb : s.host.busy = false) :
    s.Advanced disk (s.poll Interpreter.engine disk).2 := by
  obtain ⟨-, hpoll⟩ | ht := poll_cases disk hb
  · rw [hpoll]
    exact advanced_self hb
  · exact ht.advanced

/-- A session that watches the file from now on. -/
def started (disk : Disk) (s : Session Interpreter) : Session Interpreter :=
  { s with host := { s.host with hot := true }, watcher := s.watcher.start disk }

/-- Starting loads the file if nothing was loaded, and then watches it unless that failed. -/
theorem start_cases (disk : Disk) (hb : s.host.busy = false) :
    (s.fingerprint ≠ none ∧ (s.start Interpreter.engine disk).2 = s.started disk) ∨
      ∃ s', s.fingerprint = none ∧ s.Tried disk s' ∧ ((s.start Interpreter.engine disk).2 = s' ∨
        (s.start Interpreter.engine disk).2 = s'.started disk) := by
  unfold start
  cases hx : s.fingerprint with
  | some x => exact .inl ⟨Option.some_ne_none x, rfl⟩
  | none =>
    have ht := load_tried disk hb
    refine .inr ⟨(s.load Interpreter.engine disk).2, rfl, ht, ?_⟩
    rcases s.load Interpreter.engine disk with ⟨r, s'⟩
    cases r with
    | error e => exact .inl rfl
    | ok u => exact .inr rfl

theorem Advanced.started (h : s.Advanced disk s') (hw : s'.watcher = s.watcher) :
    s.Advanced disk (s'.started disk) :=
  ⟨h.path, h.settings, h.free, h.paths, .inr (congrArg (Watcher.scan · disk) hw), h.program⟩

theorem start_advanced (disk : Disk) (hb : s.host.busy = false) :
    s.Advanced disk (s.start Interpreter.engine disk).2 := by
  obtain ⟨-, hstart⟩ | ⟨s', -, ht, hstart | hstart⟩ := start_cases disk hb
  · rw [hstart]
    exact (advanced_self hb).started rfl
  · rw [hstart]
    exact ht.advanced
  · rw [hstart]
    exact ht.advanced.started ht.watcher

/-- A session that was started has seen the file, so scanning finds nothing to post. -/
theorem scan_started {f : File} (hp : s.watcher.paths = [s.path]) (hf : disk.read s.path = .ok f)
    (hc : s.channel = []) : ((s.started disk).scan disk).2 = s.started disk := by
  have hchanged : Times.changed (s.watcher.scan disk) (s.watcher.scan disk) = [] := by
    rw [Watcher.scan_file hp hf, Times.changed_self]
  have hchannel : s.channel ++ Times.changed (s.watcher.scan disk) (s.watcher.scan disk)
      = s.channel := by
    rw [hchanged, hc]
    rfl
  show { s.started disk with
    channel := s.channel ++ Times.changed (s.watcher.scan disk) (s.watcher.scan disk) } = _
  rw [hchannel]
  rfl

end Session

/-! ## Editing while a session runs -/

/-- A session, and the disk with the file that is edited. -/
structure Editing where
  session : Session Interpreter
  disk : Disk

/-- What can happen next. -/
inductive Move where
  | load
  | start
  /-- the part of a start that follows the loading, since the file may be written in between -/
  | watch
  | scan
  | poll
  /-- the file is written -/
  | write (f : File)
  /-- something else is asked of the host -/
  | ask (r : Request)

/-- Whether something that happens writes the file. -/
def Move.writes : Move → Bool
  | .write _ => true
  | _ => false

namespace Editing

/-- The text of the file. -/
def text (w : Editing) : Except HostError String := w.session.source w.disk

def after (w : Editing) : Move → Editing
  | .load => { w with session := (w.session.load Interpreter.engine w.disk).2 }
  | .start => { w with session := (w.session.start Interpreter.engine w.disk).2 }
  | .watch => { w with session := w.session.started w.disk }
  | .scan => { w with session := (w.session.scan w.disk).2 }
  | .poll => { w with session := (w.session.poll Interpreter.engine w.disk).2 }
  | .write f => match w.disk.write w.session.path f with
    | .ok disk => { w with disk }
    | .error _ => w
  | .ask r => { w with session := (w.session.ask Interpreter.engine w.disk r).2 }

def run (w : Editing) (moves : List Move) : Editing := moves.foldl after w

/-- Whether something is true of all that happens and of what is there just before. -/
def Along (P : Editing → Move → Prop) : List Move → Editing → Prop
  | [], _ => True
  | m :: rest, w => P w m ∧ Along P rest (w.after m)

/-- All texts that the file has in the meantime. -/
def texts : List Move → Editing → List String
  | [], w => w.text.toOption.toList
  | m :: rest, w => w.text.toOption.toList ++ texts rest (w.after m)

/-- Whether something may happen: only a session that has loaded the file watches it, the file gets
later times only, and nobody else replaces the program. -/
def Allowed (w : Editing) : Move → Prop
  | .watch => w.session.fingerprint ≠ none
  | .write f => ∀ old, w.disk.read w.session.path = .ok old → old.modified < f.modified
  | .ask r => ¬ r.Replaces
  | _ => True

/-- Whether the watcher has seen the file as it is, if there is one. -/
def Noticed (w : Editing) : Prop :=
  ∀ f, w.disk.read w.session.path = .ok f →
    w.session.watcher.seen.lookup w.session.path = some f.modified

/-- Whether the text of the file is the one that was loaded last, if it can be loaded at all. -/
def Current (w : Editing) : Prop :=
  ∀ t, w.text = .ok t → Loads t → w.session.fingerprint = some (w.session.fingerprintOf t)

/-- Whether an edit that the watcher has seen is not forgotten. -/
def Caught (w : Editing) : Prop := w.Noticed → w.session.channel ≠ [] ∨ w.Current

/-- Whether what the watcher is to take as seen is no edit, or one that is not forgotten. -/
def InSync (w : Editing) : Prop := w.session.channel ≠ [] ∨ w.Noticed ∨ w.Current

/-- Whether a session does not start to watch too late: the file was not written since it was
loaded, or something has told of that. -/
def Timely (w : Editing) : Move → Prop
  | .start => w.session.fingerprint = none ∨ w.InSync
  | .watch => w.InSync
  | _ => True

/-! ### Runs -/

variable {w w' : Editing} {m : Move} {P : Editing → Move → Prop} {t : String}

theorem run_append (w : Editing) (before later : List Move) :
    w.run (before ++ later) = (w.run before).run later := List.foldl_append

theorem along_append {before later : List Move} : ∀ {w : Editing},
    Along P (before ++ later) w → Along P before w ∧ Along P later (w.run before) := by
  induction before with
  | nil => exact fun h => ⟨trivial, h⟩
  | cons m rest ih => exact fun h => ⟨⟨h.1, (ih h.2).1⟩, (ih h.2).2⟩

theorem mem_texts (h : w.text = .ok t) (moves : List Move) : t ∈ texts moves w := by
  have ht : t ∈ w.text.toOption.toList := by
    rw [h]
    exact List.mem_singleton_self t
  cases moves with
  | nil => exact ht
  | cons m rest => exact List.mem_append_left _ ht

theorem texts_append_left {before : List Move} (later : List Move) : ∀ {w : Editing},
    t ∈ texts before w → t ∈ texts (before ++ later) w := by
  induction before with
  | nil =>
    intro w h
    cases later with
    | nil => exact h
    | cons m rest => exact List.mem_append_left _ h
  | cons m rest ih => exact fun h => List.mem_append.mpr ((List.mem_append.mp h).imp_right ih)

theorem texts_append_right (before : List Move) {later : List Move} : ∀ {w : Editing},
    t ∈ texts later (w.run before) → t ∈ texts (before ++ later) w := by
  induction before with
  | nil => exact fun h => h
  | cons m rest ih => exact fun h => List.mem_append_right _ (ih h)

/-- A file that has a text is there. -/
theorem read_of_text (h : w.text = .ok t) : ∃ f, w.disk.read w.session.path = .ok f := by
  unfold text Session.source at h
  cases hs : w.disk.readSource w.session.path w.session.host.settings.maxSourceSize with
  | ok source => exact Disk.read_of_source hs
  | error e =>
    rw [hs] at h
    cases h

/-! ### What the session knows -/

/-- What is true of a session at any time, with the texts that the file has had and their
fingerprints. -/
structure Sound (T : String → Prop) (print : String → String) (w : Editing) : Prop where
  free : w.session.host.busy = false
  paths : w.session.watcher.paths = [w.session.path]
  prints : w.session.fingerprintOf = print
  /-- the text that was loaded last is the one that the host holds -/
  known : ∀ x, w.session.fingerprint = some x →
    ∃ t, T t ∧ x = print t ∧ w.session.host.engine.Holds t
  /-- the watcher has seen no later time than that of the file -/
  seen : ∀ time, w.session.watcher.seen.lookup w.session.path = some time →
    ∃ f, w.disk.read w.session.path = .ok f ∧ time ≤ f.modified

variable {T : String → Prop} {print : String → String}

theorem after_advanced (hb : w.session.host.busy = false) (ha : w.Allowed m)
    (hm : m.writes = false) :
    (w.after m).disk = w.disk ∧ w.session.Advanced w.disk (w.after m).session := by
  cases m with
  | load => exact ⟨rfl, (Session.load_tried w.disk hb).advanced⟩
  | start => exact ⟨rfl, Session.start_advanced w.disk hb⟩
  | watch => exact ⟨rfl, (Session.advanced_self hb).started rfl⟩
  | scan => exact ⟨rfl, rfl, rfl, hb, rfl, .inr rfl, .inl ⟨rfl, .of_eq rfl⟩⟩
  | poll => exact ⟨rfl, Session.poll_advanced w.disk hb⟩
  | write f => cases hm
  | ask r =>
    have hk := Act.respond_keeps w.disk ha w.session.host hb
    exact ⟨rfl, rfl, hk.settings, hk.free, rfl, .inl rfl, .inl ⟨rfl, hk.program⟩⟩

/-- A write gives the file another time, or does not succeed. -/
theorem after_write (w : Editing) (f : File) :
    w.after (.write f) = w ∨ ∃ disk, w.disk.write w.session.path f = .ok disk ∧
      w.after (.write f) = { w with disk } := by
  cases hwrite : w.disk.write w.session.path f with
  | error e =>
    left
    simp only [after, hwrite]
  | ok disk =>
    right
    refine ⟨disk, rfl, ?_⟩
    simp only [after, hwrite]

/-- **Whatever happens, the session stays sound.** -/
theorem sound_after (hs : w.Sound T print) (ha : w.Allowed m) (hT : ∀ t, w.text = .ok t → T t) :
    (w.after m).Sound T print := by
  cases hm : m.writes with
  | true =>
    cases m with
    | write f =>
      obtain hw | ⟨disk, hwrite, hw⟩ := after_write w f
      · rw [hw]
        exact hs
      · rw [hw]
        refine ⟨hs.free, hs.paths, hs.prints, hs.known, fun time htime => ?_⟩
        obtain ⟨old, hold, hle⟩ := hs.seen time htime
        exact ⟨f, Disk.read_write hwrite, Int.le_of_lt (Int.lt_of_le_of_lt hle (ha old hold))⟩
    | _ => cases hm
  | false =>
    obtain ⟨hdisk, hadv⟩ := after_advanced hs.free ha hm
    refine ⟨hadv.free, ?_, hadv.fingerprintOf.trans hs.prints, fun x hx => ?_, fun time htime => ?_⟩
    · rw [hadv.paths, hadv.path, hs.paths]
    · obtain ⟨hsame, hprogram⟩ | ⟨t, ht, hnew, hholds⟩ := hadv.program
      · obtain ⟨t, hTt, hxt, hholds⟩ := hs.known x (hsame ▸ hx)
        exact ⟨t, hTt, hxt, hholds.same hprogram⟩
      · refine ⟨t, hT t ht, ?_, hholds⟩
        rw [← hs.prints]
        exact (Option.some.inj (hnew.symm.trans hx)).symm
    · rw [hdisk, hadv.path]
      rw [hadv.path] at htime
      obtain hseen | hseen := hadv.seen
      · exact hs.seen time (hseen ▸ htime)
      · obtain ⟨f, hf, rfl⟩ := Watcher.lookup_scan hs.paths (hseen ▸ htime)
        exact ⟨f, hf, Int.le_refl _⟩

/-- A text that is fresh for the session is current. -/
theorem current_after (hb : w.session.host.busy = false) (ha : w.Allowed m)
    (hm : m.writes = false)
    (h : ∀ t, w.text = .ok t → Loads t →
      (w.after m).session.fingerprint = some (w.session.fingerprintOf t)) :
    (w.after m).Current := by
  obtain ⟨hdisk, hadv⟩ := after_advanced hb ha hm
  intro t ht hl
  rw [text, hdisk, hadv.source] at ht
  rw [hadv.fingerprintOf]
  exact h t ht hl

/-- Nothing that happens but a write makes a current text another one. -/
theorem current_kept (hb : w.session.host.busy = false) (ha : w.Allowed m) (hm : m.writes = false)
    (hx : (w.after m).session.fingerprint = w.session.fingerprint) (h : w.Current) :
    (w.after m).Current :=
  current_after hb ha hm fun t ht hl => hx.trans (h t ht hl)

/-- Scanning posts a file that the watcher had not seen as it is. -/
theorem scan_caught (hs : w.Sound T print) (hc : w.Caught) : (w.after .scan).Caught := by
  intro hn
  have hchannel : (w.after .scan).session.channel = w.session.channel ++
      Times.changed w.session.watcher.seen (w.session.watcher.scan w.disk) := rfl
  rw [hchannel]
  by_cases hold : w.Noticed
  · -- nothing new is seen, so what waits or is current was so before
    obtain hwaits | hcurrent := hc hold
    · exact .inl (List.append_ne_nil_of_left_ne_nil hwaits _)
    · exact .inr (current_kept hs.free trivial rfl rfl hcurrent)
  · left
    obtain ⟨f, hnew⟩ := not_forall.mp hold
    obtain ⟨hf, hne⟩ := Classical.not_imp.mp hnew
    have hseen : (w.session.watcher.scan w.disk).lookup w.session.path = some f.modified := hn f hf
    refine List.append_ne_nil_of_right_ne_nil _ (List.ne_nil_of_mem (Times.mem_changed hseen ?_))
    intro time htime
    obtain ⟨f', hf', hle⟩ := hs.seen time htime
    obtain rfl := Except.ok.inj (hf.symm.trans hf')
    have hother : time ≠ f.modified := fun he => hne (he ▸ htime)
    omega

theorem watch_caught (hs : w.Sound T print) (hc : w.Caught) (ha : w.Allowed .watch)
    (ht : w.InSync) : (w.after .watch).Caught := by
  intro _
  have hcaught : w.session.channel ≠ [] ∨ w.Current := by
    obtain hwaits | hnoticed | hcurrent := ht
    · exact .inl hwaits
    · exact hc hnoticed
    · exact .inr hcurrent
  exact hcaught.imp_right (current_kept hs.free ha rfl rfl)

/-- A session that has loaded the file only watches it when it starts. -/
theorem start_eq_watch (hb : w.session.host.busy = false) (hx : w.session.fingerprint ≠ none) :
    w.after .start = w.after .watch := by
  obtain ⟨-, hstart⟩ | ⟨s', hnone, -⟩ := Session.start_cases w.disk hb
  · rw [after, hstart]
    rfl
  · exact absurd hnone hx

theorem start_caught (hs : w.Sound T print) (hc : w.Caught) (ht : w.Timely .start) :
    (w.after .start).Caught := by
  obtain ⟨hloaded, -⟩ | ⟨s', hnone, htried, hstart⟩ := Session.start_cases w.disk hs.free
  · rw [start_eq_watch hs.free hloaded]
    exact watch_caught hs hc hloaded (ht.resolve_left hloaded)
  · -- it loads the file first, and nothing is written in between
    have hx : (w.after .start).session.fingerprint = s'.fingerprint := by
      rw [after]
      obtain hstart | hstart := hstart
      · rw [hstart]
      · rw [hstart]
        rfl
    exact fun _ => .inr (current_after hs.free trivial rfl fun t htext hl =>
      hx.trans (htried.fresh t htext hl))

/-- **An edit that the watcher has seen is not forgotten**, if every start is timely. -/
theorem caught_after (hs : w.Sound T print) (hc : w.Caught) (ha : w.Allowed m)
    (ht : w.Timely m) : (w.after m).Caught := by
  cases m with
  | load => exact fun _ => .inr (current_after hs.free ha rfl (Session.load_tried w.disk hs.free).fresh)
  | start => exact start_caught hs hc ht
  | watch => exact watch_caught hs hc ha ht
  | scan => exact scan_caught hs hc
  | poll =>
    obtain ⟨-, hpoll⟩ | htried := Session.poll_cases w.disk hs.free
    · have hw : w.after .poll = w := by rw [after, hpoll]
      rw [hw]
      exact hc
    · exact fun _ => .inr (current_after hs.free ha rfl htried.fresh)
  | write f =>
    obtain hw | ⟨disk, hwrite, hw⟩ := after_write w f
    · rw [hw]
      exact hc
    · rw [hw]
      -- the watcher has seen an earlier time at most
      intro hn
      obtain ⟨old, hold, hle⟩ := hs.seen _ (hn f (Disk.read_write hwrite))
      exact absurd (ha old hold) (Int.not_lt.mpr hle)
  | ask r =>
    exact fun hn => (hc hn).imp_right (current_kept hs.free ha rfl rfl)

theorem sound_run {moves : List Move} : ∀ {w : Editing}, w.Sound T print →
    Along Allowed moves w → (∀ t ∈ texts moves w, T t) → (w.run moves).Sound T print := by
  induction moves with
  | nil => exact fun hs _ _ => hs
  | cons m rest ih =>
    intro w hs ha hT
    exact ih (sound_after hs ha.1 fun t ht => hT t (mem_texts ht _)) ha.2 fun t ht =>
      hT t (List.mem_append_right _ ht)

/-- What every step of a sound session keeps is kept by a whole run. -/
theorem run_keeps {Q : Editing → Prop}
    (hstep : ∀ {w m}, w.Sound T print → w.Allowed m → P w m → Q w → Q (w.after m))
    {moves : List Move} : ∀ {w : Editing}, w.Sound T print → Along Allowed moves w →
      (∀ t ∈ texts moves w, T t) → Along P moves w → Q w → Q (w.run moves) := by
  induction moves with
  | nil => exact fun _ _ _ _ h => h
  | cons m rest ih =>
    intro w hs ha hT hp h
    exact ih (sound_after hs ha.1 fun t ht => hT t (mem_texts ht _)) ha.2
      (fun t ht => hT t (List.mem_append_right _ ht)) hp.2 (hstep hs ha.1 hp.1 h)

theorem along_of_forall {p : Move → Prop} {moves : List Move} : ∀ {w : Editing},
    (∀ m ∈ moves, p m) → Along (fun _ m => p m) moves w := by
  induction moves with
  | nil => exact fun _ => trivial
  | cons m rest ih =>
    exact fun h => ⟨h m List.mem_cons_self, ih fun m' hm' => h m' (List.mem_cons_of_mem _ hm')⟩

theorem scan_noticed (hs : w.Sound T print) : (w.after .scan).Noticed := by
  intro f hf
  have hf : w.disk.read w.session.path = .ok f := hf
  show (w.session.watcher.scan w.disk).lookup w.session.path = some f.modified
  rw [Watcher.scan_file hs.paths hf, List.lookup_cons_self]

/-- What the watcher has seen it has seen as long as the file is not written. -/
theorem noticed_after (hs : w.Sound T print) (ha : w.Allowed m) (hm : m.writes = false)
    (h : w.Noticed) : (w.after m).Noticed := by
  intro f hf
  obtain ⟨hdisk, hadv⟩ := after_advanced hs.free ha hm
  rw [hdisk, hadv.path] at hf
  rw [hadv.path]
  obtain hsame | hscan := hadv.seen
  · rw [hsame]
    exact h f hf
  · rw [hscan, Watcher.scan_file hs.paths hf, List.lookup_cons_self]

/-- From a scan on, the watcher has seen the file as it is until the file is written. -/
theorem run_noticed (hs : w.Sound T print) {between : List Move}
    (ha : Along Allowed (.scan :: between) w) (hT : ∀ t ∈ texts (.scan :: between) w, T t)
    (hquiet : ∀ m ∈ between, m.writes = false) : (w.run (.scan :: between)).Noticed := by
  have hs' := sound_after hs ha.1 fun t ht => hT t (mem_texts ht _)
  show ((w.after .scan).run between).Noticed
  exact run_keeps noticed_after hs' ha.2 (fun t ht => hT t (List.mem_append_right _ ht))
    (along_of_forall hquiet) (scan_noticed hs)

/-! ### Whole sessions -/

/-- Whether a session has done nothing yet. -/
def Begins (w : Editing) : Prop :=
  ∃ host path, host.busy = false ∧ w.session = .new host path

theorem seen_new (host : Host Interpreter) (path : Path) :
    (Session.new host path).watcher.seen = [] ∧
      (Session.new host path).watcher.paths = [path] := by
  unfold Session.new Watcher.of
  dsimp only
  split <;> exact ⟨rfl, rfl⟩

theorem Begins.sound (hw : w.Begins) (T : String → Prop) :
    w.Sound T w.session.fingerprintOf := by
  obtain ⟨host, path, hb, hnew⟩ := hw
  obtain ⟨hseen, hpaths⟩ := seen_new host path
  rw [← hnew] at hseen hpaths
  refine ⟨hnew ▸ hb, ?_, rfl, fun x hx => ?_, fun time htime => ?_⟩
  · rw [hpaths, hnew]
    rfl
  · rw [hnew] at hx
    cases hx
  · rw [hseen] at htime
    cases htime

theorem Begins.caught (hw : w.Begins) : w.Caught := by
  obtain ⟨host, path, -, hnew⟩ := hw
  intro hn
  right
  intro t ht
  obtain ⟨f, hf⟩ := read_of_text ht
  have hseen := hn f hf
  rw [hnew, (seen_new host path).1] at hseen
  cases hseen

/-- The text that was loaded last is the only one with its fingerprint. -/
theorem Sound.holds {moves : List Move} (hs : w'.Sound (· ∈ texts moves w) w.session.fingerprintOf)
    (hdistinct : ∀ t ∈ texts moves w, ∀ t' ∈ texts moves w,
      w.session.fingerprintOf t = w.session.fingerprintOf t' → t = t')
    (hmem : t ∈ texts moves w) (ht : w'.text = .ok t) (hl : Loads t) (hc : w'.Current) :
    w'.session.host.engine.Holds t := by
  have hx := hc t ht hl
  rw [hs.prints] at hx
  obtain ⟨t', ht', hprint, hholds⟩ := hs.known _ hx
  rw [hdistinct t hmem t' ht' hprint]
  exact hholds

/-- A session that starts to watch too late has loaded another text than the one that the file
has, and nothing has told of that. -/
theorem late_cases (h : ¬ w.InSync) : w.session.channel = [] ∧
    (∃ f, w.disk.read w.session.path = .ok f) ∧ ∃ t, w.text = .ok t ∧ Loads t ∧
      w.session.fingerprint ≠ some (w.session.fingerprintOf t) := by
  obtain ⟨hchannel, hnoticed, hcurrent⟩ : w.session.channel = [] ∧ ¬ w.Noticed ∧ ¬ w.Current := by
    simpa [InSync] using h
  obtain ⟨t, hnew⟩ := not_forall.mp hcurrent
  obtain ⟨ht, hl, hne⟩ : w.text = .ok t ∧ Loads t ∧
      w.session.fingerprint ≠ some (w.session.fingerprintOf t) := by
    simpa using hnew
  exact ⟨hchannel, read_of_text ht, t, ht, hl, hne⟩

/-- Scanning and polling then change nothing. -/
theorem run_late (hs : w.Sound T print) (hlate : ¬ w.InSync) :
    w.run [.watch, .scan, .poll] = w.after .watch := by
  obtain ⟨hchannel, ⟨f, hf⟩, -⟩ := late_cases hlate
  have hscan : (w.after .watch).after .scan = w.after .watch := by
    rw [after, after]
    dsimp only
    rw [Session.scan_started hs.paths hf hchannel]
  have hpoll : (w.after .watch).after .poll = w.after .watch := by
    have hchannel' : (w.session.started w.disk).channel = [] := hchannel
    rw [after, after]
    dsimp only
    rw [Session.poll_of_nil hchannel']
  show ((w.after .watch).after .scan).after .poll = w.after .watch
  rw [hscan, hpoll]

/-- Either way to watch too late comes to the same. -/
theorem watch_of_late (hb : w.session.host.busy = false) (ha : w.Allowed m)
    (hlate : ¬ w.Timely m) :
    w.session.fingerprint ≠ none ∧ ¬ w.InSync ∧ w.after m = w.after .watch := by
  cases m with
  | start =>
    obtain ⟨hx, hsync⟩ := not_or.mp hlate
    exact ⟨hx, hsync, start_eq_watch hb hx⟩
  | watch => exact ⟨ha, hlate, rfl⟩
  | _ => exact absurd trivial hlate

/-- **No edit is lost if the session never starts to watch too late**: whenever it has looked for
changes after the last edit and has applied them, its host holds the text of the file. If it does
start too late, then what its host holds after that is another text. -/
theorem edits_kept (hw : w.Begins) {moves : List Move} (ha : Along Allowed moves w)
    (hdistinct : ∀ t ∈ texts moves w, ∀ t' ∈ texts moves w,
      w.session.fingerprintOf t = w.session.fingerprintOf t' → t = t') :
    (Along Timely moves w →
      ∀ before between, moves = before ++ .scan :: (between ++ [.poll]) →
        (∀ m ∈ between, m.writes = false) →
        ∀ t, (w.run moves).text = .ok t → Loads t → (w.run moves).session.host.engine.Holds t) ∧
    ∀ before m, moves = before ++ [m, .scan, .poll] → ¬ (w.run before).Timely m →
      ∃ t old, (w.run moves).text = .ok t ∧ Loads t ∧ old ≠ t ∧ old ∈ texts moves w ∧
        (w.run moves).session.host.engine.Holds old := by
  have hs := sound_run (hw.sound (· ∈ texts moves w)) ha fun _ h => h
  constructor
  · rintro htimely before between rfl hquiet t ht hl
    have hmem : t ∈ texts (before ++ .scan :: (between ++ [.poll])) w := by
      rw [← List.append_nil (before ++ _)]
      exact texts_append_right _ (mem_texts ht [])
    refine hs.holds hdistinct hmem ht hl ?_
    have hc := run_keeps (fun hs ha ht hc => caught_after hs hc ha ht) (hw.sound (· ∈ texts _ w)) ha
      (fun _ h => h) htimely hw.caught
    -- the watcher has seen the file as it is, and no path waits
    have hn : (w.run (before ++ .scan :: (between ++ [.poll]))).Noticed := by
      obtain ⟨ha₁, ha₂⟩ := along_append ha
      have hs₁ := sound_run (hw.sound (· ∈ texts (before ++ .scan :: (between ++ [.poll])) w)) ha₁
        fun t ht => texts_append_left _ ht
      rw [run_append]
      refine run_noticed hs₁ ha₂ (fun t ht => texts_append_right before ht) fun m hm => ?_
      obtain hm | hm := List.mem_append.mp hm
      · exact hquiet m hm
      · rw [List.mem_singleton.mp hm]
        rfl
    have hchannel : (w.run (before ++ .scan :: (between ++ [.poll]))).session.channel = [] := by
      rw [← List.cons_append, ← List.append_assoc, run_append]
      exact Session.poll_channel _
    exact (hc hn).resolve_left fun h => h hchannel
  · rintro before m rfl hlate
    obtain ⟨ha₁, ha₂⟩ := along_append ha
    have hs₁ := sound_run (hw.sound (· ∈ texts (before ++ [m, .scan, .poll]) w)) ha₁
      fun t ht => texts_append_left _ ht
    obtain ⟨hloaded, hsync, hwatch⟩ := watch_of_late hs₁.free ha₂.1 hlate
    obtain ⟨-, -, t, ht, hl, hne⟩ := late_cases hsync
    obtain ⟨x, hx⟩ := Option.ne_none_iff_exists'.mp hloaded
    obtain ⟨old, hold, hprint, hholds⟩ := hs₁.known x hx
    have hrun : w.run (before ++ [m, .scan, .poll]) = (w.run before).after .watch := by
      rw [run_append, ← run_late hs₁ hsync]
      exact congrArg (run · [.scan, .poll]) hwatch
    rw [hrun]
    refine ⟨t, old, ht, hl, fun he => ?_, hold, hholds⟩
    rw [hx, hprint, he, hs₁.prints] at hne
    exact hne rfl

/-! ### Two sessions -/

def oldSource : String := "type A is Widget {}"

def newSource : String := "type B is Widget {}"

/-- A file with a text. -/
def fileOf (text : String) (modified : Int) : File := ⟨text.toUTF8.toList, modified⟩

def unopened : Editing where
  session := .new (Host.new {} {} none) (Path.ofText "a.at")
  disk := { files := [(["a.at"], fileOf oldSource 0)] }

theorem begins_unopened : unopened.Begins := ⟨_, _, rfl, rfl⟩

/-- The file is edited after the session was started. -/
def editedLate : List Move := [.start, .write (fileOf newSource 1), .scan, .poll]

/-- The file is edited after it was loaded, but before the session is started. -/
def editedEarly : List Move := [.load, .write (fileOf newSource 1), .start, .scan, .poll]

/-- Both texts have fingerprints of their own. -/
def Distinct (moves : List Move) : Prop :=
  ∀ t ∈ texts moves unopened, ∀ t' ∈ texts moves unopened,
    unopened.session.fingerprintOf t = unopened.session.fingerprintOf t' → t = t'

/-- What the sessions come to, and what the new text gives. -/
theorem edited_computed :
    ((unopened.run editedLate).text = .ok newSource ∧ Distinct editedLate ∧
      (unopened.after .start).disk.read (unopened.after .start).session.path
        = .ok (fileOf oldSource 0)) ∧
    ((unopened.run editedEarly).text = .ok newSource ∧ Distinct editedEarly ∧
      (unopened.after .load).disk.read (unopened.after .load).session.path
        = .ok (fileOf oldSource 0) ∧
      (unopened.run editedEarly).session.host.engine.mainWidget? = some "A") ∧
    (({} : Interpreter).interpret newSource none).1.isOk = true ∧
      (({} : Interpreter).interpret newSource none).2.mainWidget? = some "B" := by
  unfold Distinct
  decide +kernel

/-- The text that was loaded is not the new one, and nothing has told of the new one. -/
theorem edited_before_start : let w := unopened.run [.load, .write (fileOf newSource 1)]
    w.text = .ok newSource ∧ w.session.channel = [] ∧ w.session.watcher.seen = [] ∧
      w.disk.read w.session.path = .ok (fileOf newSource 1) ∧
      w.session.fingerprint = some (w.session.fingerprintOf oldSource) ∧
      w.session.fingerprintOf oldSource ≠ w.session.fingerprintOf newSource := by
  decide +kernel

theorem loads_newSource : Loads newSource := by
  have hok := edited_computed.2.2.1
  rcases hi : ({} : Interpreter).interpret newSource none with ⟨r, i⟩
  rw [hi] at hok
  cases r with
  | error f => cases hok
  | ok v => exact ⟨v, i, hi⟩

theorem allowed_newSource {w : Editing}
    (h : w.disk.read w.session.path = .ok (fileOf oldSource 0)) :
    w.Allowed (.write (fileOf newSource 1)) := by
  intro old hold
  obtain rfl := Except.ok.inj (h.symm.trans hold)
  decide

theorem allowed_editedLate : Along Allowed editedLate unopened :=
  ⟨trivial, allowed_newSource edited_computed.1.2.2, trivial, trivial, trivial⟩

theorem allowed_editedEarly : Along Allowed editedEarly unopened :=
  ⟨trivial, allowed_newSource edited_computed.2.1.2.2.1, trivial, trivial, trivial, trivial⟩

theorem late_editedEarly : ¬ (unopened.run [.load, .write (fileOf newSource 1)]).Timely .start := by
  obtain ⟨htext, hchannel, hseen, hread, hprint, hne⟩ := edited_before_start
  rintro (hnone | hwaits | hnoticed | hcurrent)
  · cases hnone.symm.trans hprint
  · exact hwaits hchannel
  · have hlookup := hnoticed _ hread
    rw [hseen] at hlookup
    cases hlookup
  · have hx := hcurrent newSource htext loads_newSource
    exact hne (Option.some.inj (hprint.symm.trans hx))

/-- The first edit is applied, and after the second one the host holds another text. -/
theorem edit_applied : (unopened.run editedLate).session.host.engine.Holds newSource ∧
    ∃ t old, (unopened.run editedEarly).text = .ok t ∧ Loads t ∧ old ≠ t ∧
      old ∈ texts editedEarly unopened ∧
      (unopened.run editedEarly).session.host.engine.Holds old := by
  obtain ⟨⟨htext, hdistinct, -⟩, ⟨-, hdistinct', -⟩, -⟩ := edited_computed
  have htimely : Along Timely editedLate unopened :=
    ⟨.inl rfl, trivial, trivial, trivial, trivial⟩
  refine ⟨(edits_kept begins_unopened allowed_editedLate hdistinct).1 htimely
    [.start, .write (fileOf newSource 1)] [] rfl (fun _ h => nomatch h) newSource htext
    loads_newSource, ?_⟩
  exact (edits_kept begins_unopened allowed_editedEarly hdistinct').2
    [.load, .write (fileOf newSource 1)] .start rfl late_editedEarly

/-- **The edit before the start is lost**: the session has looked for changes and applied them, and
still its host does not hold the text of the file. -/
theorem edit_lost : Along Allowed editedEarly unopened ∧
    (unopened.run editedEarly).text = .ok newSource ∧ Loads newSource ∧
    ¬ (unopened.run editedEarly).session.host.engine.Holds newSource := by
  obtain ⟨-, ⟨htext, -, -, hold⟩, -, hnew⟩ := edited_computed
  refine ⟨allowed_editedEarly, htext, loads_newSource, ?_⟩
  rintro ⟨v, i, hi, hsame⟩
  -- the old text declares another main widget
  rw [Act.mainWidget?_eq hsame] at hold
  rw [hi, hold] at hnew
  exact absurd hnew (by decide)

end Editing

end Widgetry
