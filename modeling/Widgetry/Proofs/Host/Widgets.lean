import Widgetry.Host.Widgets
import Widgetry.Proofs.Value.Tables

/-!
# The widgets of a host and their tables

How the widgets of a host come about: `ofDefaults` gives each one a new table, `migrate` carries the
values of old widgets over.

> `ofDefaults_made`: the tables are new and all different, and they hold the defaults;
> `get?_carry`: a field that both have keeps its old value, every other field its new one;
> `migrate_migrated`: this is done for each widget that was there before, and to no other table.

The names of widgets are all different, and so are their tables: with that, a write to the table of
one widget is no write to another's (`Widgets.Sound`).
-/

namespace Widgetry

namespace Widgets

variable {ws : Widgets} {σ : Store} {name : String}

/-- Whether widgets have names of their own and tables of their own, which a store has. -/
structure Sound (σ : Store) (ws : Widgets) : Prop where
  names : (ws.map (·.1)).Nodup
  apart : ∀ {n n' : String} {s s' : WidgetState}, ws.get? n = some s → ws.get? n' = some s' →
    s.table = s'.table → n = n'
  has : ∀ {n : String} {s : WidgetState}, ws.get? n = some s → σ.Has s.table

theorem mem_of_get? {s : WidgetState} (h : ws.get? name = some s) : (name, s) ∈ ws :=
  mem_of_lookup h

/-- A widget is found by its name. -/
theorem get?_of_mem (hn : (ws.map (·.1)).Nodup) {s : WidgetState} (h : (name, s) ∈ ws) :
    ws.get? name = some s := by
  induction ws with
  | nil => cases h
  | cons w rest ih =>
    obtain ⟨n, s'⟩ := w
    obtain ⟨hnot, hr⟩ := List.nodup_cons.mp hn
    rcases List.mem_cons.mp h with he | h
    · cases he
      exact List.lookup_cons_self
    · have hne : (name == n) = false := by
        have hin : name ∈ rest.map (·.1) := List.mem_map_of_mem h
        simpa using fun he : name = n => hnot (he ▸ hin)
      rw [get?, List.lookup_cons, hne]
      exact ih hr h

/-- A store with more tables keeps widgets sound. -/
theorem Sound.mono {σ' : Store} (hs : Sound σ ws) (h : σ.tables.size ≤ σ'.tables.size) :
    Sound σ' ws := ⟨hs.names, hs.apart, fun hg => Nat.lt_of_lt_of_le (hs.has hg) h⟩

/-! ## Changing one widget -/

theorem names_modify (f : WidgetState → WidgetState) :
    (ws.modify name f).map (·.1) = ws.map (·.1) := by
  simp only [modify, List.map_map]
  refine List.map_congr_left fun w _ => ?_
  by_cases h : w.1 = name <;> simp [h]

theorem get?_modify (f : WidgetState → WidgetState) (other : String) :
    (ws.modify name f).get? other
      = if other = name then (ws.get? other).map f else ws.get? other := by
  induction ws with
  | nil => simp [modify, get?]
  | cons w rest ih =>
    obtain ⟨n, s⟩ := w
    have hcons : Widgets.modify ((n, s) :: rest) name f
        = (if n = name then (n, f s) else (n, s)) :: Widgets.modify rest name f := rfl
    rw [hcons]
    unfold get? at ih ⊢
    by_cases hn : n = name
    · subst hn
      by_cases ho : other = n
      · subst ho
        simp
      · have hb : (other == n) = false := by simpa using ho
        simp only [if_true, List.lookup_cons, hb, ih, ho, if_false]
    · by_cases ho : other = n
      · subst ho
        simp [hn]
      · have hb : (other == n) = false := by simpa using ho
        simp only [hn, if_false, List.lookup_cons, hb, ih]

/-- A widget that keeps its table, or gets one that is no other widget's, leaves widgets sound. -/
theorem Sound.modify (hs : Sound σ ws) {f : WidgetState → WidgetState}
    (hf : ∀ s, ws.get? name = some s → σ.Has (f s).table ∧ ∀ n' s', n' ≠ name →
      ws.get? n' = some s' → s'.table ≠ (f s).table) : Sound σ (ws.modify name f) := by
  refine ⟨by rw [names_modify]; exact hs.names, ?_, ?_⟩
  · intro n n' s s' h h' ht
    rw [get?_modify] at h h'
    by_cases hn : n = name
    · by_cases hn' : n' = name
      · exact hn.trans hn'.symm
      · rw [if_pos hn] at h
        rw [if_neg hn'] at h'
        obtain ⟨s₀, h₀, rfl⟩ := Option.map_eq_some_iff.mp h
        exact absurd ht.symm ((hf s₀ (hn ▸ h₀)).2 n' s' hn' h')
    · rw [if_neg hn] at h
      by_cases hn' : n' = name
      · rw [if_pos hn'] at h'
        obtain ⟨s₀, h₀, rfl⟩ := Option.map_eq_some_iff.mp h'
        exact absurd ht ((hf s₀ (hn' ▸ h₀)).2 n s hn h)
      · rw [if_neg hn'] at h'
        exact hs.apart h h' ht
  · intro n s h
    rw [get?_modify] at h
    by_cases hn : n = name
    · rw [if_pos hn] at h
      obtain ⟨s₀, h₀, rfl⟩ := Option.map_eq_some_iff.mp h
      exact (hf s₀ (hn ▸ h₀)).1
    · rw [if_neg hn] at h
      exact hs.has h

/-- A widget may change in all but its table. -/
theorem Sound.restate (hs : Sound σ ws) {f : WidgetState → WidgetState}
    (hf : ∀ s, (f s).table = s.table) : Sound σ (ws.modify name f) := by
  refine hs.modify fun s hg => ?_
  rw [hf s]
  exact ⟨hs.has hg, fun n' s' hne hg' he => hne (hs.apart hg' hg he)⟩

/-! ## New widgets -/

/-- What `ofDefaults` makes of a store and some defaults. -/
structure Made (σ : Store) (ds : List (String × Fields)) (ws : Widgets) (σ' : Store) : Prop where
  keeps : σ.Keeps σ'
  contents : ws.map (fun w => (w.1, σ'.get w.2.table)) = ds
  tables : (ws.map (·.2.table)).Nodup
  fresh : ∀ w ∈ ws, ¬ σ.Has w.2.table ∧ σ'.Has w.2.table
  all : ∀ t, σ'.Has t → σ.Has t ∨ ∃ w ∈ ws, w.2.table = t
  state : ∀ w ∈ ws, w.2.cached = none ∧ w.2.dirty = true

theorem ofDefaults_made (ds : List (String × Fields)) :
    ∀ σ : Store, Made σ ds (ofDefaults σ ds).1 (ofDefaults σ ds).2 := by
  induction ds with
  | nil =>
    intro σ
    refine ⟨Store.keeps_refl σ, rfl, List.nodup_nil, ?_, fun _ h => Or.inl h, ?_⟩
    · exact fun _ h => nomatch h
    · exact fun _ h => nomatch h
  | cons d rest ih =>
    intro σ
    obtain ⟨n, fields⟩ := d
    have hr := ih (σ.alloc fields).2
    have hkeeps := (Store.keeps_alloc fields).trans hr.keeps
    have ht : ¬ σ.Has (σ.alloc fields).1 := Nat.lt_irrefl _
    -- the tables that are made later leave this one as it is
    have htable := hr.keeps.get _ (Store.has_alloc fields)
    rw [Store.get_alloc_self] at htable
    show Made σ ((n, fields) :: rest)
      ((n, { table := (σ.alloc fields).1 }) :: (ofDefaults (σ.alloc fields).2 rest).1)
      (ofDefaults (σ.alloc fields).2 rest).2
    refine ⟨hkeeps, ?_, ?_, ?_, ?_, ?_⟩
    · rw [List.map_cons, hr.contents, htable]
    · refine List.nodup_cons.mpr ⟨?_, hr.tables⟩
      intro hm
      obtain ⟨w, hw, he⟩ := List.mem_map.mp hm
      exact (hr.fresh w hw).1 (he ▸ Store.has_alloc fields)
    · intro w hw
      rcases List.mem_cons.mp hw with rfl | hw
      · exact ⟨ht, hr.keeps.has (Store.has_alloc fields)⟩
      · exact ⟨fun h => (hr.fresh w hw).1 ((Store.keeps_alloc fields).has h), (hr.fresh w hw).2⟩
    · intro t ht'
      rcases hr.all t ht' with h | ⟨w, hw, he⟩
      · rcases Store.has_of_alloc h with h | h
        · exact Or.inl h
        · exact Or.inr ⟨_, List.mem_cons_self, h.symm⟩
      · exact Or.inr ⟨w, List.mem_cons_of_mem _ hw, he⟩
    · intro w hw
      rcases List.mem_cons.mp hw with rfl | hw
      · exact ⟨rfl, rfl⟩
      · exact hr.state w hw

namespace Made

variable {σ' : Store} {ds : List (String × Fields)}

theorem names (h : Made σ ds ws σ') : ws.map (·.1) = ds.map (·.1) := by
  rw [← h.contents, List.map_map]
  rfl

/-- New widgets for defaults of different names are sound. -/
theorem sound (h : Made σ ds ws σ') (hd : (ds.map (·.1)).Nodup) : Sound σ' ws where
  names := by rw [h.names]; exact hd
  apart hg hg' ht := congrArg Prod.fst
    (List.inj_on_of_nodup_map h.tables (mem_of_get? hg) (mem_of_get? hg') ht)
  has hg := (h.fresh _ (mem_of_get? hg)).2

/-- The table of a new widget holds its defaults. -/
theorem lookup (h : Made σ ds ws σ') :
    ds.lookup name = (ws.get? name).map fun s => σ'.get s.table := by
  rw [← h.contents, get?]
  generalize ws = l
  induction l with
  | nil => rfl
  | cons w rest ih =>
    obtain ⟨n, s⟩ := w
    rw [List.map_cons, List.lookup_cons, List.lookup_cons, ih]
    cases name == n <;> rfl

/-- Nor does a name stand twice in any table. -/
theorem fields_nodup (h : Made σ ds ws σ') (hd : (ds.map (·.1)).Nodup)
    (hf : ∀ name fs, ds.lookup name = some fs → fs.names.Nodup)
    (hσ : ∀ t, (σ.get t).names.Nodup) (t : TableId) : (σ'.get t).names.Nodup := by
  -- a table was there before, or it was made for a widget, or there is none
  by_cases ht : σ'.Has t
  · rcases h.all t ht with hold | ⟨w, hw, rfl⟩
    · rw [h.keeps.get t hold]
      exact hσ t
    · have hl : ds.lookup w.1 = _ := h.lookup
      rw [get?_of_mem (h.sound hd).names (s := w.2) hw] at hl
      exact hf w.1 _ hl
  · rw [Store.get_of_not_has ht]
    exact List.nodup_nil

end Made

/-! ## Carrying fields over -/

theorem names_carry (old : Fields) : ∀ new : Fields, (carry old new).names = new.names := by
  induction old with
  | nil => exact fun _ => rfl
  | cons f rest ih =>
    intro new
    show (carry rest (if new.has f.1 then new.put f.1 f.2 else new)).names = new.names
    rw [ih]
    split
    · next h => exact Fields.names_put_of_has h f.2
    · rfl

/-- **A field that both have keeps its old value, and every other field its new one.** -/
theorem get?_carry {old : Fields} (hn : old.names.Nodup) (field : String) :
    ∀ new : Fields, (carry old new).get? field
      = if new.has field then (old.get? field).or (new.get? field) else none := by
  induction old with
  | nil =>
    intro new
    cases hg : new.get? field <;> simp [carry, Fields.has, Fields.get?, hg]
  | cons f rest ih =>
    intro new
    obtain ⟨n, v⟩ := f
    obtain ⟨hnot, hr⟩ := List.nodup_cons.mp hn
    show (carry rest (if new.has n then new.put n v else new)).get? field = _
    rw [ih hr]
    by_cases hf : n = field
    · subst hf
      -- no later field has this name, so the value that was put stays
      have hrest : Fields.get? n rest = none := Fields.get?_eq_none.mpr hnot
      cases hh : new.has n with
      | true =>
        have hput : Fields.has n (new.put n v) = true := by simp [Fields.has, Fields.get?_put]
        simp [hput, hrest, Fields.get?_put, Fields.get?]
      | false => simp [hh]
    · have hold : Fields.get? field ((n, v) :: rest) = Fields.get? field rest := by
        simp [Fields.get?, hf]
      have hnew : ∀ fs : Fields, Fields.get? field (Fields.put n v fs) = Fields.get? field fs := by
        intro fs
        rw [Fields.get?_put, if_neg hf]
      have hhas : Fields.has field (Fields.put n v new) = Fields.has field new := by
        simp [Fields.has, hnew]
      rw [hold]
      split
      · rw [hhas, hnew]
      · rfl

/-- The store after the fields of one widget were carried over. -/
def carried (σ : Store) (old : Widgets) (name : String) (s : WidgetState) : Store :=
  match old.get? name with
  | none => σ
  | some previous => σ.set s.table (carry (σ.get previous.table) (σ.get s.table))

theorem carried_size (old : Widgets) (s : WidgetState) :
    (carried σ old name s).tables.size = σ.tables.size := by
  unfold carried
  split
  · rfl
  · exact Store.size_set _

theorem carried_get_of_ne (old : Widgets) {s : WidgetState} {t : TableId} (h : t ≠ s.table) :
    (carried σ old name s).get t = σ.get t := by
  unfold carried
  split
  · rfl
  · exact Store.get_set_of_ne h _

theorem carried_get_self (old : Widgets) {s : WidgetState} (h : σ.Has s.table) :
    (carried σ old name s).get s.table = match old.get? name with
      | none => σ.get s.table
      | some previous => carry (σ.get previous.table) (σ.get s.table) := by
  unfold carried
  split
  · rfl
  · exact Store.get_set_self h _

/-- New widgets are dirty already, and nothing is cached for them. -/
theorem migrate_cons (old : Widgets) {s : WidgetState} (h : s.cached = none ∧ s.dirty = true)
    (rest : Widgets) : migrate σ old ((name, s) :: rest)
      = ((name, s) :: (migrate (carried σ old name s) old rest).1,
        (migrate (carried σ old name s) old rest).2) := by
  obtain ⟨t, cached, dirty⟩ := s
  obtain ⟨rfl, rfl⟩ := h
  unfold carried
  rw [migrate]
  cases hg : old.get? name <;> rfl

/-- What migrating makes of new widgets that share no table with the old ones. -/
structure Migrated (old new : Widgets) (σ : Store) (ws : Widgets) (σ' : Store) : Prop where
  widgets : ws = new
  size : σ'.tables.size = σ.tables.size
  others : ∀ t, (∀ w ∈ new, t ≠ w.2.table) → σ'.get t = σ.get t
  contents : ∀ w ∈ new, σ'.get w.2.table = match old.get? w.1 with
    | none => σ.get w.2.table
    | some previous => carry (σ.get previous.table) (σ.get w.2.table)

theorem migrate_migrated (old : Widgets) :
    ∀ (new : Widgets) (σ : Store), (new.map (·.2.table)).Nodup → (∀ w ∈ new, σ.Has w.2.table) →
      (∀ w ∈ new, w.2.cached = none ∧ w.2.dirty = true) →
      (∀ {n s}, old.get? n = some s → ∀ w ∈ new, s.table ≠ w.2.table) →
      Migrated old new σ (migrate σ old new).1 (migrate σ old new).2 := by
  intro new
  induction new with
  | nil =>
    intro σ _ _ _ _
    exact ⟨rfl, rfl, fun _ _ => rfl, fun _ h => nomatch h⟩
  | cons w rest ih =>
    intro σ hnd hhas hstate hapart
    obtain ⟨n, s⟩ := w
    obtain ⟨hnot, hrest⟩ := List.nodup_cons.mp hnd
    have hne : ∀ w ∈ rest, w.2.table ≠ s.table := fun w hw he =>
      hnot (List.mem_map.mpr ⟨w, hw, he⟩)
    have hmem : ∀ {w}, w ∈ rest → w ∈ (n, s) :: rest := List.mem_cons_of_mem _
    have hr := ih (carried σ old n s) hrest
      (fun w hw => by
        rw [Store.Has, carried_size]
        exact hhas w (hmem hw))
      (fun w hw => hstate w (hmem hw)) (fun hg w hw => hapart hg w (hmem hw))
    rw [migrate_cons old (hstate (n, s) List.mem_cons_self)]
    refine ⟨by rw [hr.widgets], hr.size.trans (carried_size old s), ?_, ?_⟩
    · intro t ht
      rw [hr.others t fun w hw => ht w (hmem hw),
        carried_get_of_ne old (ht (n, s) List.mem_cons_self)]
    · intro w hw
      rcases List.mem_cons.mp hw with rfl | hw
      · rw [hr.others s.table fun w hw he => hne w hw he.symm,
          carried_get_self old (hhas (n, s) List.mem_cons_self)]
      · rw [hr.contents w hw, carried_get_of_ne old (hne w hw)]
        cases hg : old.get? w.1 with
        | none => rfl
        | some previous =>
          -- the table of an old widget is not the one that was just written
          have hp := hapart hg (n, s) List.mem_cons_self
          simp only [carried_get_of_ne old hp]

namespace Migrated

variable {σ' : Store} {old new ws : Widgets}

theorem sound (h : Migrated old new σ ws σ') (hs : Sound σ new) : Sound σ' ws := by
  rw [h.widgets]
  exact hs.mono (Nat.le_of_eq h.size.symm)

theorem fields_nodup (h : Migrated old new σ ws σ') (hσ : ∀ t, (σ.get t).names.Nodup)
    (t : TableId) : (σ'.get t).names.Nodup := by
  by_cases ht : ∃ w ∈ new, t = w.2.table
  · obtain ⟨w, hin, rfl⟩ := ht
    rw [h.contents w hin]
    split
    · exact hσ _
    · rw [names_carry]
      exact hσ _
  · rw [h.others t fun w hin he => ht ⟨w, hin, he⟩]
    exact hσ t

end Migrated

end Widgets

end Widgetry
