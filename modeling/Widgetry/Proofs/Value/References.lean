import Mathlib.Data.List.Perm.Subperm
import Widgetry.Proofs.Value.Tables

/-!
# What a value refers to

A value is *within* a set of tables if all its references lead to tables of the set. Two stores
*agree* on a set of tables if the tables are the same in both and refer only to each other.

> `Agree.read_eq`: a value within the set reads the same in both stores.

The stores may differ in size, and so does the number of steps that reading may take: both allow for
reading every table once, and no table is read inside itself, so the steps never run out
(`readTable_eq`).
-/

namespace Widgetry

variable {S : TableId → Prop}

/-- Whether a value refers to some tables only. -/
def Value.Within (S : TableId → Prop) (v : Value) : Prop := ∀ t ∈ Store.liveIn v, S t

/-- Whether all fields refer to some tables only. -/
def Fields.Within (S : TableId → Prop) (fs : Fields) : Prop := ∀ f ∈ fs, f.2.Within S

namespace Value

theorem within_scalar (s : Scalar) : (scalar s).Within S := by
  intro t h
  cases h

theorem within_live {t : TableId} (h : S t) : (live t).Within S := by
  intro u hu
  cases List.mem_singleton.mp hu
  exact h

theorem mem_liveInItems {t : TableId} {vs : List Value} :
    t ∈ Store.liveInItems vs ↔ ∃ v ∈ vs, t ∈ Store.liveIn v := by
  induction vs with
  | nil => simp [Store.liveInItems]
  | cons v rest ih => simp [Store.liveInItems, ih]

theorem mem_liveInEntries {t : TableId} {es : List (Key × Value)} :
    t ∈ Store.liveInEntries es ↔ ∃ e ∈ es, t ∈ Store.liveIn e.2 := by
  induction es with
  | nil => simp [Store.liveInEntries]
  | cons e rest ih =>
    obtain ⟨k, v⟩ := e
    simp [Store.liveInEntries, ih]

theorem mem_liveInNodes {t : TableId} {ns : List Node} :
    t ∈ Store.liveInNodes ns ↔ ∃ n ∈ ns, t ∈ Store.liveInNode n := by
  induction ns with
  | nil => simp [Store.liveInNodes]
  | cons n rest ih => simp [Store.liveInNodes, ih]

theorem within_list {vs : List Value} : (list vs).Within S ↔ ∀ v ∈ vs, v.Within S := by
  simp only [Within, Store.liveIn, mem_liveInItems]
  exact ⟨fun h v hv t ht => h t ⟨v, hv, ht⟩, fun h t ⟨v, hv, ht⟩ => h v hv t ht⟩

theorem within_object {es : List (Key × Value)} :
    (object es).Within S ↔ ∀ e ∈ es, e.2.Within S := by
  simp only [Within, Store.liveIn, mem_liveInEntries]
  exact ⟨fun h e he t ht => h t ⟨e, he, ht⟩, fun h t ⟨e, he, ht⟩ => h e he t ht⟩

/-- A node is within a set if its parts are. -/
theorem within_node {kind : Value} {args : List Value} {props : List (Key × Value)}
    {children : List Node} (hk : kind.Within S) (ha : ∀ v ∈ args, v.Within S)
    (hp : ∀ e ∈ props, e.2.Within S) (hc : ∀ n ∈ children, (node n).Within S) :
    (node (.mk kind args props children)).Within S := by
  intro t ht
  simp only [Store.liveIn, Store.liveInNode, List.mem_append, mem_liveInItems, mem_liveInEntries,
    mem_liveInNodes] at ht
  rcases ht with ((ht | ⟨v, hv, ht⟩) | ⟨e, he, ht⟩) | ⟨n, hn, ht⟩
  · exact hk t ht
  · exact ha v hv t ht
  · exact hp e he t ht
  · exact hc n hn t ht

/-- The properties of a node within a set are within it. -/
theorem Within.props {n : Node} (h : (node n).Within S) : ∀ e ∈ n.props, e.2.Within S := by
  obtain ⟨kind, args, props, children⟩ := n
  intro e he t ht
  refine h t ?_
  simp only [Store.liveIn, Store.liveInNode, List.mem_append, mem_liveInEntries]
  exact Or.inl (Or.inr ⟨e, he, ht⟩)

end Value

/-! ## Entries and fields -/

theorem Entries.mem_of_find? {α : Type} {k : Key} {v : α} {es : List (Key × α)}
    (h : Entries.find? k es = some v) : ∃ e ∈ es, e.2 = v := by
  induction es with
  | nil => cases h
  | cons e rest ih =>
    obtain ⟨k', w⟩ := e
    simp only [Entries.find?] at h
    split at h
    · cases h
      exact ⟨_, List.mem_cons_self, rfl⟩
    · obtain ⟨e, he, hv⟩ := ih h
      exact ⟨e, List.mem_cons_of_mem _ he, hv⟩

/-- A write keeps what holds of all keys and of all values. -/
theorem Entries.forall_put {α : Type} {K : Key → Prop} {V : α → Prop} {k : Key} {v : α}
    {es : List (Key × α)} (hk : K k) (hv : V v) (hes : ∀ e ∈ es, K e.1 ∧ V e.2) :
    ∀ e ∈ Entries.put k v es, K e.1 ∧ V e.2 := by
  induction es with
  | nil => exact List.forall_mem_singleton.mpr ⟨hk, hv⟩
  | cons f rest ih =>
    obtain ⟨hf, hrest⟩ := List.forall_mem_cons.mp hes
    simp only [Entries.put]
    split
    · exact List.forall_mem_cons.mpr ⟨⟨hf.1, hv⟩, hrest⟩
    · exact List.forall_mem_cons.mpr ⟨hf, ih hrest⟩

/-- What holds of all keys and of all values that are put holds of those of the entries. -/
theorem Entries.forall_ofPairs {α : Type} {K : Key → Prop} {V : α → Prop}
    {pairs : List (Key × α)} (h : ∀ e ∈ pairs, K e.1 ∧ V e.2) :
    ∀ e ∈ Entries.ofPairs pairs, K e.1 ∧ V e.2 := by
  have hgo : ∀ (pairs es : List (Key × α)), (∀ e ∈ pairs, K e.1 ∧ V e.2) →
      (∀ e ∈ es, K e.1 ∧ V e.2) →
      ∀ e ∈ pairs.foldl (fun es e => Entries.put e.1 e.2 es) es, K e.1 ∧ V e.2 := by
    intro pairs
    induction pairs with
    | nil => exact fun _ _ hes => hes
    | cons f rest ih =>
      intro es hpairs hes
      obtain ⟨hf, hrest⟩ := List.forall_mem_cons.mp hpairs
      exact ih _ hrest (forall_put hf.1 hf.2 hes)
  exact hgo pairs [] h nofun

/-- Entries put one after the other hold values that were put. -/
theorem Entries.mem_ofPairs {α : Type} {pairs : List (Key × α)} {e : Key × α}
    (h : e ∈ Entries.ofPairs pairs) : ∃ f ∈ pairs, f.2 = e.2 :=
  (forall_ofPairs (K := fun _ => True) (V := fun v => ∃ f ∈ pairs, f.2 = v)
    (fun f hf => ⟨trivial, f, hf, rfl⟩) e h).2

namespace Fields

theorem Within.get? {fs : Fields} {name : String} {v : Value} (h : fs.Within S)
    (hv : fs.get? name = some v) : v.Within S := h _ (mem_of_get? hv)

theorem Within.put {fs : Fields} {v : Value} (h : fs.Within S) (hv : v.Within S) (name : String) :
    (put name v fs).Within S := by
  intro f hf
  rcases mem_put hf with hf | rfl
  · exact h f hf
  · exact hv

theorem within_ofPairs {pairs : List (String × Value)} (h : ∀ f ∈ pairs, f.2.Within S) :
    (ofPairs pairs).Within S := by
  have hgo : ∀ (pairs : List (String × Value)) (fs : Fields), (∀ f ∈ pairs, f.2.Within S) →
      fs.Within S → Within S (pairs.foldl (fun fs f => Fields.put f.1 f.2 fs) fs) := by
    intro pairs
    induction pairs with
    | nil => exact fun _ _ h => h
    | cons f rest ih =>
      intro fs hp h
      exact ih _ (fun g hg => hp g (List.mem_cons_of_mem _ hg))
        (h.put (hp f List.mem_cons_self) f.1)
  exact hgo pairs [] h fun _ hf => nomatch hf

end Fields

/-! ## Replacing references -/

namespace Store

mutual

/-- What references are replaced by matters only for those that the value holds. -/
theorem mapLive_congr {f g : TableId → Value} :
    ∀ v : Value, (∀ t ∈ liveIn v, f t = g t) → mapLive f v = mapLive g v
  | .scalar _, _ => rfl
  | .list items, h => congrArg Value.list (mapLiveItems_congr items h)
  | .object entries, h => congrArg Value.object (mapLiveEntries_congr entries h)
  | .node n, h => congrArg Value.node (mapLiveNode_congr n h)
  | .live t, h => h t List.mem_cons_self

theorem mapLiveItems_congr {f g : TableId → Value} :
    ∀ vs : List Value, (∀ t ∈ liveInItems vs, f t = g t) → mapLiveItems f vs = mapLiveItems g vs
  | [], _ => rfl
  | v :: rest, h => congrArg₂ List.cons
      (mapLive_congr v fun t ht => h t (List.mem_append_left _ ht))
      (mapLiveItems_congr rest fun t ht => h t (List.mem_append_right _ ht))

theorem mapLiveEntries_congr {f g : TableId → Value} :
    ∀ es : List (Key × Value), (∀ t ∈ liveInEntries es, f t = g t) →
      mapLiveEntries f es = mapLiveEntries g es
  | [], _ => rfl
  | (k, v) :: rest, h => congrArg₂ (fun w es => (k, w) :: es)
      (mapLive_congr v fun t ht => h t (List.mem_append_left _ ht))
      (mapLiveEntries_congr rest fun t ht => h t (List.mem_append_right _ ht))

theorem mapLiveNode_congr {f g : TableId → Value} :
    ∀ n : Node, (∀ t ∈ liveInNode n, f t = g t) → mapLiveNode f n = mapLiveNode g n
  | .mk k a p c, h => by
    simp only [liveInNode, List.mem_append] at h
    rw [mapLiveNode, mapLiveNode,
      mapLive_congr k fun t ht => h t (Or.inl (Or.inl (Or.inl ht))),
      mapLiveItems_congr a fun t ht => h t (Or.inl (Or.inl (Or.inr ht))),
      mapLiveEntries_congr p fun t ht => h t (Or.inl (Or.inr ht)),
      mapLiveNodes_congr c fun t ht => h t (Or.inr ht)]

theorem mapLiveNodes_congr {f g : TableId → Value} :
    ∀ ns : List Node, (∀ t ∈ liveInNodes ns, f t = g t) → mapLiveNodes f ns = mapLiveNodes g ns
  | [], _ => rfl
  | n :: rest, h => congrArg₂ List.cons
      (mapLiveNode_congr n fun t ht => h t (List.mem_append_left _ ht))
      (mapLiveNodes_congr rest fun t ht => h t (List.mem_append_right _ ht))

end

/-! ## Stores that agree -/

/-- Whether some tables are the same in two stores and refer only to each other. -/
structure Agree (S : TableId → Prop) (σ₁ σ₂ : Store) : Prop where
  same : ∀ t, S t → σ₁.get t = σ₂.get t
  closed : ∀ t, S t → (σ₁.get t).Within S

/-- Whether references lead from some tables to a table. -/
inductive Reaches (σ : Store) (S : TableId → Prop) : TableId → Prop where
  | root {t : TableId} : S t → Reaches σ S t
  | step {t u : TableId} {f : String × Value} : Reaches σ S t → f ∈ σ.get t → u ∈ liveIn f.2 →
      Reaches σ S u

/-- Stores agree on what can be reached if it is the same in both. -/
theorem Agree.of_reaches {σ₁ σ₂ : Store} (h : ∀ t, σ₁.Reaches S t → σ₂.get t = σ₁.get t) :
    σ₁.Agree (σ₁.Reaches S) σ₂ where
  same t ht := (h t ht).symm
  closed _ ht _ hf _ hu := ht.step hf hu

/-- Tables that were made and are all different are no more than the tables that were made. -/
theorem length_le_size {σ : Store} {ts : List TableId} (hd : ts.Nodup) (h : ∀ t ∈ ts, σ.Has t) :
    ts.length ≤ σ.tables.size := by
  have hinj : (ts.map (·.index)).Nodup :=
    hd.map fun a b he => by cases a; cases b; exact congrArg TableId.mk he
  have hsub : ts.map (·.index) ⊆ List.range σ.tables.size := by
    intro i hi
    obtain ⟨t, ht, rfl⟩ := List.mem_map.mp hi
    exact List.mem_range.mpr (h t ht)
  simpa using (List.subperm_of_subset hinj hsub).length_le

/-- Every step reads one table more, and none of those that are being read: the steps do not run
out before the tables do. -/
theorem readTable_eq {σ₁ σ₂ : Store} (h : Agree S σ₁ σ₂) :
    ∀ (fuel₁ fuel₂ : Nat) (reading : List TableId) (t : TableId), S t → reading.Nodup →
      (∀ u ∈ reading, σ₁.Has u ∧ σ₂.Has u) →
      fuel₁ + reading.length = σ₁.tables.size + 1 →
      fuel₂ + reading.length = σ₂.tables.size + 1 →
      readTable σ₁ fuel₁ reading t = readTable σ₂ fuel₂ reading t := by
  intro fuel₁
  induction fuel₁ with
  | zero =>
    -- as many different tables are being read as there are, and one more
    intro fuel₂ reading t _ hd hr h₁ _
    have hlen := length_le_size hd fun u hu => (hr u hu).1
    omega
  | succ fuel₁ ih =>
    intro fuel₂ reading t ht hd hr h₁ h₂
    cases fuel₂ with
    | zero =>
      have hlen := length_le_size hd fun u hu => (hr u hu).2
      omega
    | succ fuel₂ =>
      rw [readTable, readTable]
      split
      · rfl
      · next hc =>
        have hnot : t ∉ reading := by simpa using hc
        rw [← h.same t ht]
        by_cases hin : σ₁.Has t ∧ σ₂.Has t
        · congr 1
          refine List.map_congr_left fun e he => ?_
          obtain ⟨f, hf, rfl⟩ := List.mem_map.mp he
          refine congrArg _ (mapLive_congr f.2 fun u hu => ?_)
          refine ih fuel₂ (t :: reading) u (h.closed t ht f hf u hu) (hd.cons hnot) ?_
            (by simpa [Nat.add_assoc, Nat.add_comm, Nat.add_left_comm] using h₁)
            (by simpa [Nat.add_assoc, Nat.add_comm, Nat.add_left_comm] using h₂)
          intro w hw
          rcases List.mem_cons.mp hw with rfl | hw
          · exact hin
          · exact hr w hw
        · -- a table that one of the stores does not have is empty in both
          have hempty : σ₁.get t = [] := by
            rcases Classical.not_and_iff_not_or_not.mp hin with hn | hn
            · exact get_of_not_has hn
            · rw [h.same t ht]
              exact get_of_not_has hn
          rw [hempty]
          rfl

/-- **A value reads the same in stores that agree on what it refers to.** -/
theorem Agree.read_eq {σ₁ σ₂ : Store} (h : Agree S σ₁ σ₂) {v : Value} (hv : v.Within S) :
    σ₁.read v = σ₂.read v :=
  mapLive_congr v fun t ht =>
    readTable_eq h _ _ [] t (hv t ht) List.nodup_nil (fun _ hu => nomatch hu) rfl rfl

end Store

end Widgetry
