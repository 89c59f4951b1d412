import Widgetry.Files.Watcher
import Widgetry.Proofs.Value.Tables

/-!
# Watching one file

What is written at a path is what is read there afterwards, and a watcher of a single path keeps the
time of the file that is read there.

> `read_write`: a file that was written is read again;
> `lookup_scan`: a watcher of one path sees the file at that path, and it only;
> `mem_changed`: a file that was changed since it was seen is posted.
-/

namespace Widgetry

namespace Disk

variable {d d' : Disk} {p : Path} {s q : Spot} {f : File}

theorem read_eq_ok_iff :
    d.read p = .ok f ↔ ∃ s, d.find p = .ok s ∧ d.entry? s = some (.file f) := by
  unfold read look
  cases hs : d.find p with
  | error e => simp [bind, Except.bind]
  | ok s =>
    cases he : d.entry? s with
    | none => simp [bind, Except.bind, throw, throwThe, MonadExceptOf.throw, he]
    | some entry =>
      cases entry <;>
        simp [bind, Except.bind, pure, Except.pure, throw, throwThe, MonadExceptOf.throw, he]

theorem read_of_source {limit : Int} {text : String} (h : d.readSource p limit = .ok text) :
    ∃ f, d.read p = .ok f := by
  unfold readSource at h
  cases hf : d.read p with
  | ok f => exact ⟨f, rfl⟩
  | error e =>
    rw [hf] at h
    cases h

/-! ## Writing -/

theorem folder_iff :
    d.entry? q = some .folder ↔ d.files.lookup q = none ∧ d.isFolder q = true := by
  unfold entry?
  cases d.files.lookup q with
  | some f => simp
  | none => cases d.isFolder q <;> simp

theorem file_put (d : Disk) (s : Spot) (f : File) :
    entry? (d.put s f) s = some (.file f) := by
  unfold entry?
  rw [put, List.lookup_cons_self]

/-- A folder stays one if a file is put elsewhere. -/
theorem folder_put (hs : d.entry? s ≠ some .folder) (hq : d.entry? q = some .folder) :
    entry? (d.put s f) q = some .folder := by
  have hne : q ≠ s := fun he => hs (he ▸ hq)
  obtain ⟨hlookup, hfolder⟩ := folder_iff.mp hq
  rw [folder_iff, put]
  constructor
  · have hbeq : (q == s) = false := beq_eq_false_iff_ne.mpr hne
    rw [List.lookup_cons, hbeq]
    rw [List.lookup_eq_none_iff] at hlookup ⊢
    exact fun e he => hlookup e (List.mem_filter.mp he).1
  · rw [isFolder, Bool.or_eq_true] at hfolder ⊢
    refine hfolder.imp_right fun h => ?_
    rw [List.contains_iff_mem] at h ⊢
    exact List.mem_eraseDups.mpr (List.mem_append_left _ h)

theorem folderAt_eq_ok_iff : d.folderAt q = .ok () ↔ d.entry? q = some .folder := by
  unfold folderAt
  cases d.entry? q with
  | none => simp
  | some e => cases e <;> simp

/-- A path leads where it led if a file is put where no folder is. -/
theorem follow_put (hs : d.entry? s ≠ some .folder) : ∀ (names : List String) (here : Spot),
    d.follow here names = .ok q → (d.put s f).follow here names = .ok q
  | [], here, h => h
  | name :: rest, here, h => by
    rw [follow] at h ⊢
    cases hf : d.folderAt here with
    | error e =>
      rw [hf] at h
      cases h
    | ok u =>
      -- on the way nothing is asked but whether each place is a folder
      have hput : (d.put s f).folderAt here = .ok u :=
        folderAt_eq_ok_iff.mpr (folder_put hs (folderAt_eq_ok_iff.mp hf))
      rw [hf] at h
      rw [hput]
      dsimp only [bind, Except.bind] at h ⊢
      by_cases hup : name = ".."
      · rw [if_pos hup] at h ⊢
        exact follow_put hs rest _ h
      · rw [if_neg hup] at h ⊢
        by_cases hlong : nameLimit < name.utf8ByteSize
        · rw [if_pos hlong] at h
          cases h
        · rw [if_neg hlong] at h ⊢
          exact follow_put hs rest _ h

/-- **A file that was written is read again.** -/
theorem read_write (h : d.write p f = .ok d') : d'.read p = .ok f := by
  unfold write at h
  cases hs : d.find p with
  | error e =>
    rw [hs] at h
    cases h
  | ok s =>
    rw [hs] at h
    dsimp only [bind, Except.bind] at h
    have hfolder : d.entry? s ≠ some .folder ∧ d' = d.put s f := by
      split at h
      · cases h
      · next hne => exact ⟨hne, (Except.ok.inj h).symm⟩
    obtain ⟨hne, rfl⟩ := hfolder
    exact read_eq_ok_iff.mpr ⟨s, follow_put hne _ _ hs, file_put d s f⟩

end Disk

/-! ## Scanning -/

namespace Times

variable {p q : Path} {time : Int} {times : Times}

theorem lookup_put (p : Path) (time : Int) (q : Path) (times : Times) :
    (times.put p time).lookup q = if q = p then some time else times.lookup q := by
  induction times with
  | nil =>
    show List.lookup q [(p, time)] = _
    rw [List.lookup_cons]
    by_cases hq : q = p
    · rw [if_pos hq, beq_iff_eq.mpr hq]
    · rw [if_neg hq, beq_eq_false_iff_ne.mpr hq]
  | cons e rest ih =>
    obtain ⟨r, t⟩ := e
    rw [put]
    by_cases hr : r = p
    · rw [if_pos hr, hr, List.lookup_cons, List.lookup_cons]
      by_cases hq : q = p
      · rw [if_pos hq, beq_iff_eq.mpr hq]
      · rw [if_neg hq, beq_eq_false_iff_ne.mpr hq]
    · rw [if_neg hr, List.lookup_cons, List.lookup_cons, ih]
      by_cases hq : q = r
      · rw [beq_iff_eq.mpr hq]
        exact (if_neg fun he => hr (hq.symm.trans he)).symm
      · rw [beq_eq_false_iff_ne.mpr hq]

/-- A path that no file has is not seen. -/
theorem lookup_foldl_put {found : List (Path × File)} (h : ∀ e ∈ found, e.1 ≠ p) :
    ∀ times : Times, (found.foldl (fun times e => times.put e.1 e.2.modified) times).lookup p
      = times.lookup p := by
  induction found with
  | nil => exact fun _ => rfl
  | cons e rest ih =>
    intro times
    rw [List.foldl_cons, ih fun e' he => h e' (List.mem_cons_of_mem _ he), lookup_put,
      if_neg (h e List.mem_cons_self).symm]

/-- **A file that is new or was changed since then is among the changed ones.** -/
theorem mem_changed {before now : Times} (h : now.lookup p = some time)
    (hb : ∀ t, before.lookup p = some t → t < time) : p ∈ changed before now := by
  refine List.mem_filterMap.mpr ⟨(p, time), mem_of_lookup h, ?_⟩
  cases hl : before.lookup p with
  | none => rfl
  | some t => exact if_pos (hb t hl)

theorem changed_self (p : Path) (time : Int) : changed [(p, time)] [(p, time)] = [] := by
  rw [changed, List.filterMap_cons, List.lookup_cons_self]
  dsimp only
  rw [if_neg (Int.lt_irrefl time)]
  rfl

end Times

namespace Watcher

variable {w : Watcher} {d : Disk} {p : Path} {f : File}

/-- What is found below a path is not at the path. -/
theorem ne_of_mem_matching {s : Spot} {pattern : String} {e : Path × File}
    (hs : d.entry? s = some .folder) (he : e ∈ matching d p s pattern) : e.1 ≠ p := by
  obtain ⟨x, hx, hsome⟩ := List.mem_filterMap.mp he
  intro hp
  split at hsome
  · next hpre =>
    obtain rfl := Option.some.inj hsome
    have hdrop : x.1.drop s.length = [] := by
      have hparts : p.parts ++ x.1.drop s.length = p.parts := congrArg Path.parts hp
      exact List.append_right_eq_self.mp hparts
    -- then the file is where the folder is, and a spot with a file is no folder
    have hspot : s = x.1 := (List.isPrefixOf_iff_prefix.mp hpre.1).eq_of_length_le
      (List.drop_eq_nil_iff.mp hdrop)
    have hnone := List.lookup_eq_none_iff.mp (Disk.folder_iff.mp hs).1 x hx
    rw [hspot] at hnone
    simp at hnone
  · cases hsome

/-- All that a watcher of one path sees is the file there. -/
theorem scan_file (hw : w.paths = [p]) (hf : d.read p = .ok f) :
    w.scan d = [(p, f.modified)] := by
  obtain ⟨s, hs, he⟩ := Disk.read_eq_ok_iff.mp hf
  rw [scan, hw, List.flatMap_singleton, filesAt, hs]
  dsimp only
  rw [he]
  rfl

/-- **A watcher of one path sees the time of the file there**, and no other time for the path. -/
theorem lookup_scan (hw : w.paths = [p]) {time : Int} (h : (w.scan d).lookup p = some time) :
    ∃ f, d.read p = .ok f ∧ time = f.modified := by
  have hnone : ∀ found : List (Path × File), w.filesAt d p = found → (∀ e ∈ found, e.1 ≠ p) →
      ∃ f, d.read p = .ok f ∧ time = f.modified := by
    intro found hfound hne
    rw [scan, hw, List.flatMap_singleton, hfound, Times.lookup_foldl_put hne] at h
    cases h
  cases hs : d.find p with
  | error e => exact hnone [] (by rw [filesAt, hs]) fun _ he => nomatch he
  | ok s =>
    cases he : d.entry? s with
    | none => exact hnone [] (by rw [filesAt, hs]; dsimp only; rw [he]) fun _ he => nomatch he
    | some entry =>
      cases entry with
      | file f =>
        have hf := Disk.read_eq_ok_iff.mpr ⟨s, hs, he⟩
        rw [scan_file hw hf, List.lookup_cons_self] at h
        exact ⟨f, hf, (Option.some.inj h).symm⟩
      | folder =>
        refine hnone (w.patterns.flatMap (matching d p s)) ?_ fun e hmem => ?_
        · rw [filesAt, hs]
          dsimp only
          rw [he]
        · obtain ⟨pattern, -, hm⟩ := List.mem_flatMap.mp hmem
          exact ne_of_mem_matching he hm

end Watcher

end Widgetry
