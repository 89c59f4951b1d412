import Mathlib.Data.List.Nodup
import Widgetry.Value.Store

/-!
# The laws of fields and tables

What reading a field, a table or a copy of a table gives after a write.

> `keeps_copyTable`: copying a table changes no table that was there;
> `names_copyTable`: the copy has the names of the original.

`Fields.names` is what a program can rely on: no assignment adds or removes a field
(`names_put_of_has`), and no name stands twice in fields that were put one after the other
(`nodup_ofPairs`).
-/

namespace Widgetry

/-! ## Fields -/

namespace Fields

/-- The names of fields, in order. -/
def names (fs : Fields) : List String := fs.map (·.1)

theorem get?_put (name other : String) (v : Value) (fs : Fields) :
    get? other (put name v fs) = if name = other then some v else get? other fs := by
  induction fs with
  | nil => simp [put, get?]
  | cons f rest ih =>
    obtain ⟨n, w⟩ := f
    by_cases h : n = name
    · subst h
      by_cases ho : n = other <;> simp [put, get?, ho]
    · by_cases ho : n = other
      · subst ho
        have hne : name ≠ n := fun he => h he.symm
        simp [put, get?, h, hne]
      · simp [put, get?, h, ho, ih]

theorem has_iff_mem_names {name : String} {fs : Fields} : fs.has name = true ↔ name ∈ fs.names := by
  induction fs with
  | nil => simp [has, get?, names]
  | cons f rest ih =>
    obtain ⟨n, w⟩ := f
    by_cases h : n = name
    · simp [has, get?, names, h]
    · have hr : has name ((n, w) :: rest) = has name rest := by simp [has, get?, h]
      rw [hr, ih, names, names, List.map_cons, List.mem_cons]
      exact ⟨Or.inr, fun hm => hm.resolve_left fun he => h he.symm⟩

theorem names_put (name : String) (v : Value) (fs : Fields) :
    (put name v fs).names = if name ∈ fs.names then fs.names else fs.names ++ [name] := by
  induction fs with
  | nil => simp [put, names]
  | cons f rest ih =>
    obtain ⟨n, w⟩ := f
    by_cases h : n = name
    · simp [put, names, h]
    · have hn : name ≠ n := fun he => h he.symm
      simp only [put, h, if_false]
      rw [show names ((n, w) :: put name v rest) = n :: names (put name v rest) from rfl, ih]
      rw [show names ((n, w) :: rest) = n :: names rest from rfl]
      by_cases hm : name ∈ names rest <;> simp [hm, hn]

/-- A write to a field that is there leaves the names as they are. -/
theorem names_put_of_has {name : String} {fs : Fields} (h : fs.has name = true) (v : Value) :
    (put name v fs).names = fs.names := by
  rw [names_put, if_pos (has_iff_mem_names.mp h)]

theorem nodup_names_put {fs : Fields} (h : fs.names.Nodup) (name : String) (v : Value) :
    (put name v fs).names.Nodup := by
  rw [names_put]
  split
  · exact h
  · next hm => exact h.append (List.nodup_singleton name) (by simpa using hm)

theorem nodup_ofPairs (pairs : List (String × Value)) : (ofPairs pairs).names.Nodup := by
  have hgo : ∀ fs : Fields, fs.names.Nodup →
      (pairs.foldl (fun fs f => put f.1 f.2 fs) fs).names.Nodup := by
    induction pairs with
    | nil => exact fun _ h => h
    | cons f rest ih => exact fun fs h => ih _ (nodup_names_put h f.1 f.2)
  exact hgo [] List.nodup_nil

/-- Fields put one after the other have the names that were put. -/
theorem mem_names_ofPairs {name : String} (pairs : List (String × Value)) :
    name ∈ (ofPairs pairs).names ↔ name ∈ pairs.map (·.1) := by
  have hgo : ∀ fs : Fields, name ∈ (pairs.foldl (fun fs f => put f.1 f.2 fs) fs).names
      ↔ name ∈ fs.names ∨ name ∈ pairs.map (·.1) := by
    induction pairs with
    | nil => simp
    | cons f rest ih =>
      intro fs
      rw [List.foldl_cons, ih, names_put]
      by_cases hm : f.1 ∈ fs.names
      · rw [if_pos hm, List.map_cons, List.mem_cons]
        constructor
        · rintro (h | h)
          · exact Or.inl h
          · exact Or.inr (Or.inr h)
        · rintro (h | rfl | h)
          · exact Or.inl h
          · exact Or.inl hm
          · exact Or.inr h
      · simp [hm, or_assoc]
  simpa [ofPairs, names] using hgo []

theorem get?_eq_none {name : String} {fs : Fields} : fs.get? name = none ↔ name ∉ fs.names := by
  rw [← has_iff_mem_names, has]
  cases fs.get? name <;> simp

/-- A value that is read stands in the fields. -/
theorem mem_of_get? {name : String} {v : Value} {fs : Fields} (h : fs.get? name = some v) :
    (name, v) ∈ fs := by
  induction fs with
  | nil => cases h
  | cons f rest ih =>
    obtain ⟨n, w⟩ := f
    by_cases hn : n = name
    · simp only [get?, hn, if_true, Option.some.injEq] at h
      simp [hn, h]
    · simp only [get?, hn, if_false] at h
      exact List.mem_cons_of_mem _ (ih h)

/-- What stands in fields after a write stood there before or was written. -/
theorem mem_put {name : String} {v : Value} {fs : Fields} {f : String × Value}
    (h : f ∈ put name v fs) : f ∈ fs ∨ f = (name, v) := by
  induction fs with
  | nil => exact Or.inr (List.mem_singleton.mp h)
  | cons g rest ih =>
    obtain ⟨n, w⟩ := g
    by_cases hn : n = name
    · simp only [put, hn, if_true] at h
      rcases List.mem_cons.mp h with rfl | h
      · exact Or.inr rfl
      · exact Or.inl (List.mem_cons_of_mem _ h)
    · simp only [put, hn, if_false] at h
      rcases List.mem_cons.mp h with rfl | h
      · exact Or.inl List.mem_cons_self
      · exact (ih h).imp_left (List.mem_cons_of_mem _)

end Fields

/-! ## Lists that are looked up by name -/

section Lookup

variable {α : Type} {name : String} {entries : List (String × α)}

theorem lookup_isSome : (entries.lookup name).isSome ↔ name ∈ entries.map (·.1) := by
  rw [List.lookup_isSome_iff, List.mem_map]
  exact exists_congr fun e => and_congr_right fun _ => beq_iff_eq.trans eq_comm

theorem mem_of_lookup {κ : Type} [BEq κ] [LawfulBEq κ] {key : κ} {entries : List (κ × α)} {a : α}
    (h : entries.lookup key = some a) : (key, a) ∈ entries := by
  obtain ⟨before, after, rfl, -⟩ := List.lookup_eq_some_iff.mp h
  exact List.mem_append_right _ List.mem_cons_self

end Lookup

/-! ## Tables -/

namespace Store

variable {σ : Store} {t u : TableId}

/-- A table that was made. -/
def Has (σ : Store) (t : TableId) : Prop := t.index < σ.tables.size

theorem get_of_not_has (h : ¬ σ.Has t) : σ.get t = [] := by
  simp [get, Array.getD_eq_getD_getElem?, Array.getElem?_eq_none (Nat.le_of_not_lt h)]

@[simp] theorem size_set (fs : Fields) : (σ.set t fs).tables.size = σ.tables.size := by
  simp [set]

theorem get_set_self (h : σ.Has t) (fs : Fields) : (σ.set t fs).get t = fs := by
  simp [get, set, Array.getD_eq_getD_getElem?, show _ < _ from h]

theorem get_set_of_ne (h : u ≠ t) (fs : Fields) : (σ.set t fs).get u = σ.get u := by
  have hi : t.index ≠ u.index := by
    intro he
    cases t; cases u
    exact h (congrArg TableId.mk he.symm)
  simp [get, set, Array.getD_eq_getD_getElem?, hi]

theorem get_alloc_self (fs : Fields) : (σ.alloc fs).2.get (σ.alloc fs).1 = fs := by
  simp [get, alloc, Array.getD_eq_getD_getElem?]

theorem get_alloc_of_has (h : σ.Has t) (fs : Fields) : (σ.alloc fs).2.get t = σ.get t := by
  simp [get, alloc, Array.getD_eq_getD_getElem?, Array.getElem?_push, Nat.ne_of_lt h]

theorem has_alloc (fs : Fields) : (σ.alloc fs).2.Has (σ.alloc fs).1 := by
  simp [Has, alloc]

theorem has_of_alloc {fs : Fields} (h : (σ.alloc fs).2.Has t) : σ.Has t ∨ t = (σ.alloc fs).1 := by
  have hlt : t.index < σ.tables.size + 1 := by simpa [Has, alloc] using h
  rcases Nat.lt_succ_iff_lt_or_eq.mp hlt with h | h
  · exact Or.inl h
  · exact Or.inr (congrArg TableId.mk h)

/-- Whether a later store has all tables of an earlier one, as they were. -/
structure Keeps (σ σ' : Store) : Prop where
  size : σ.tables.size ≤ σ'.tables.size
  get : ∀ t, σ.Has t → σ'.get t = σ.get t

theorem keeps_refl (σ : Store) : σ.Keeps σ := ⟨Nat.le_refl _, fun _ _ => rfl⟩

theorem Keeps.has {σ' : Store} (h : σ.Keeps σ') (ht : σ.Has t) : σ'.Has t :=
  Nat.lt_of_lt_of_le ht h.size

theorem Keeps.trans {σ₁ σ₂ σ₃ : Store} (h₁ : σ₁.Keeps σ₂) (h₂ : σ₂.Keeps σ₃) : σ₁.Keeps σ₃ where
  size := Nat.le_trans h₁.size h₂.size
  get t ht := (h₂.get t (h₁.has ht)).trans (h₁.get t ht)

theorem keeps_alloc (fs : Fields) : σ.Keeps (σ.alloc fs).2 where
  size := by simp [alloc]
  get _ ht := get_alloc_of_has ht fs

/-! ## Copies -/

/-- The tables that are reached include those that were asked for, which come first. -/
theorem prefix_reachable (fuel : Nat) : ∀ seen : List TableId, seen <+: reachable σ fuel seen := by
  induction fuel with
  | zero => exact fun seen => List.prefix_refl seen
  | succ fuel ih =>
    intro seen
    rw [reachable]
    split
    · exact List.prefix_refl seen
    · exact (List.prefix_append _ _).trans (ih _)

theorem copyTable_size_lt : σ.tables.size < (σ.copyTable t).2.tables.size := by
  obtain ⟨rest, hr⟩ := prefix_reachable (σ := σ) σ.tables.size [t]
  simp only [copyTable, ← hr]
  simp

theorem has_copyTable : (σ.copyTable t).2.Has (σ.copyTable t).1 := copyTable_size_lt

theorem not_has_copyTable : ¬ σ.Has (σ.copyTable t).1 := by
  simp [Has, copyTable]

/-- **A copy leaves all tables as they were.** -/
theorem keeps_copyTable : σ.Keeps (σ.copyTable t).2 where
  size := Nat.le_of_lt copyTable_size_lt
  get u hu := by
    simp [Store.get, copyTable, Array.getD_eq_getD_getElem?, Array.getElem?_append_left hu]

/-- After copying, every table has the names of one that was there before. -/
theorem names_get_copyTable (u : TableId) :
    ∃ w, ((σ.copyTable t).2.get u).names = (σ.get w).names := by
  by_cases hu : σ.Has u
  · exact ⟨u, by rw [keeps_copyTable.get u hu]⟩
  · by_cases hn : (σ.copyTable t).2.Has u
    · have hget : ∀ {copies : List Fields}, (⟨σ.tables ++ copies.toArray⟩ : Store).get u
          = copies[u.index - σ.tables.size]?.getD [] := by
        intro copies
        simp [Store.get, Array.getD_eq_getD_getElem?,
          Array.getElem?_append_right (Nat.le_of_not_lt hu)]
      simp only [copyTable, hget, List.getElem?_map]
      cases (reachable σ σ.tables.size [t])[u.index - σ.tables.size]? with
      | none => exact ⟨u, by rw [get_of_not_has hu]; rfl⟩
      | some w => exact ⟨w, by simp [Fields.names]⟩
    · exact ⟨u, by rw [get_of_not_has hu, get_of_not_has hn]⟩

/-- **A copy has the names of the original.** -/
theorem names_copyTable : ((σ.copyTable t).2.get (σ.copyTable t).1).names = (σ.get t).names := by
  obtain ⟨rest, hr⟩ := prefix_reachable (σ := σ) σ.tables.size [t]
  simp [Store.get, copyTable, ← hr, Fields.names, Array.getD_eq_getD_getElem?]

end Store

end Widgetry
