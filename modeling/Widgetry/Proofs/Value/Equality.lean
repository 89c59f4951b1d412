import Widgetry.Language.Evaluation
import Widgetry.Proofs.Node.Rereading

/-!
# The laws of equality

Truth values count as whole numbers, lists are compared in order and objects by their keys, at every
depth. Without floating-point numbers this is an equivalence, which does not see in which order
entries and properties stand.

> `equality_laws`: so it is for two nodes, for two operands of `==` and `!=`, and for a value and
> the patterns of a choice.

Symmetry and transitivity are one law (`Value.same_euclid`): what is equal to one value is equal to
each other. Its induction is over three values at once, but only the common one is taken apart; the
others follow it, since equal values have one shape.
-/

namespace Widgetry

/-! ## Exact values -/

/-- Whether a scalar is no floating-point number. -/
def Scalar.Exact (s : Scalar) : Prop := ∀ x, s ≠ .float x

/-- Whether keys are texts, and none stands twice. -/
structure Key.Named (keys : List Key) : Prop where
  nodup : keys.Nodup
  text : ∀ k ∈ keys, ∃ name, k = .str name

mutual

/-- Whether a value is made of exact scalars, lists, objects with texts for keys, and nodes. -/
inductive Value.Exact : Value → Prop where
  | scalar {s : Scalar} : s.Exact → Value.Exact (.scalar s)
  | list {items : List Value} : (∀ v ∈ items, v.Exact) → Value.Exact (.list items)
  | object {entries : List (Key × Value)} : Key.Named (entries.map Prod.fst) →
      (∀ e ∈ entries, Value.Exact e.2) → Value.Exact (.object entries)
  | node {n : Node} : n.Exact → Value.Exact (.node n)

inductive Node.Exact : Node → Prop where
  | mk {kind : Value} {args : List Value} {props : List (Key × Value)} {children : List Node} :
      kind.Exact → (∀ v ∈ args, v.Exact) → Key.Named (props.map Prod.fst) →
      (∀ e ∈ props, Value.Exact e.2) → (∀ c ∈ children, c.Exact) →
      Node.Exact (.mk kind args props children)

end

/-! ## Keys and entries -/

/-- Texts are the same key only if they are one text. -/
theorem Key.eq_of_same {k : Key} {name : String} (h : k.same (.str name) = true) :
    k = .str name := by
  cases k with
  | str s => rw [beq_iff_eq.mp h]
  | nil => cases h
  | bool b => cases h
  | int n => cases h
  | float x => cases h

theorem Key.Named.distinct {keys : List Key} (h : Key.Named keys) : Key.Distinct keys where
  proper k hk := by
    obtain ⟨name, rfl⟩ := h.text k hk
    exact Scalar.proper_str name
  apart := by
    refine h.nodup.imp_of_mem fun {k l} _ hl hne => ?_
    obtain ⟨name, rfl⟩ := h.text l hl
    exact Bool.eq_false_iff.mpr fun hsame => hne (Key.eq_of_same hsame)

theorem Key.named_pair {k l : String} (h : k ≠ l) : Key.Named [.str k, .str l] :=
  ⟨by simpa using h, by simp⟩

theorem Key.Named.perm {keys keys' : List Key} (h : Key.Named keys) (hp : keys.Perm keys') :
    Key.Named keys' :=
  ⟨hp.nodup_iff.mp h.nodup, fun k hk => h.text k (hp.mem_iff.mpr hk)⟩

section Entries

variable {es fs gs : List (Key × Value)}

/-- An entry is found under its own key only. -/
theorem Entries.find?_eq_some_iff (h : Key.Named (fs.map Prod.fst)) {k : Key} {w : Value}
    (hk : ∃ name, k = .str name) : Entries.find? k fs = some w ↔ (k, w) ∈ fs := by
  obtain ⟨name, rfl⟩ := hk
  refine ⟨fun hfind => ?_, Entries.find?_of_mem h.distinct _⟩
  clear h
  induction fs with
  | nil => cases hfind
  | cons f rest ih =>
    obtain ⟨l, v⟩ := f
    rw [Entries.find?] at hfind
    split at hfind
    · next hsame =>
      cases hfind
      rw [Key.eq_of_same hsame]
      exact List.mem_cons_self
    · exact List.mem_cons_of_mem _ (ih hfind)

theorem sameEntries_iff_find? : sameEntries es fs = true ↔
    ∀ e ∈ es, ∃ w, Entries.find? e.1 fs = some w ∧ e.2.same w = true := by
  induction es with
  | nil => simp [sameEntries]
  | cons e rest ih =>
    rw [sameEntries, Bool.and_eq_true, ih, List.forall_mem_cons]
    refine and_congr_left fun _ => ?_
    cases Entries.find? e.1 fs with
    | none => simp
    | some w => simp

/-- Whether every entry on the left is related to the one on the right with its key, and there are
no more of them on the right. -/
structure Entries.Matched (R : Value → Value → Prop) (es fs : List (Key × Value)) : Prop where
  length : es.length = fs.length
  found : ∀ e ∈ es, ∃ w, (e.1, w) ∈ fs ∧ R e.2 w

theorem sameEntries_iff (hes : Key.Named (es.map Prod.fst)) (hfs : Key.Named (fs.map Prod.fst)) :
    (es.length == fs.length && sameEntries es fs) = true ↔
      Entries.Matched (fun v w => v.same w = true) es fs := by
  have hfound : ∀ e ∈ es, ∀ w, Entries.find? e.1 fs = some w ↔ (e.1, w) ∈ fs := fun e he w =>
    Entries.find?_eq_some_iff hfs (hes.text _ (List.mem_map_of_mem he))
  rw [Bool.and_eq_true, beq_iff_eq, sameEntries_iff_find?]
  constructor
  · rintro ⟨hlength, h⟩
    refine ⟨hlength, fun e he => ?_⟩
    obtain ⟨w, hw, hsame⟩ := h e he
    exact ⟨w, (hfound e he w).mp hw, hsame⟩
  · rintro ⟨hlength, h⟩
    refine ⟨hlength, fun e he => ?_⟩
    obtain ⟨w, hw, hsame⟩ := h e he
    exact ⟨w, (hfound e he w).mpr hw, hsame⟩

/-- The value with a key is one. -/
theorem Key.Named.value_unique (h : Key.Named (fs.map Prod.fst)) {k : Key} {v w : Value}
    (hv : (k, v) ∈ fs) (hw : (k, w) ∈ fs) : v = w := by
  have hk := h.text k (List.mem_map_of_mem hv)
  rw [← Entries.find?_eq_some_iff h hk] at hv hw
  exact Option.some.inj (hv.symm.trans hw)

/-- Entries that match are as many on both sides, so no key is left over on the right. -/
theorem Entries.Matched.back {R : Value → Value → Prop} (h : Entries.Matched R es fs)
    (hes : Key.Named (es.map Prod.fst)) (hfs : Key.Named (fs.map Prod.fst)) :
    ∀ f ∈ fs, ∃ v, (f.1, v) ∈ es ∧ R v f.2 := by
  have hsub : es.map Prod.fst ⊆ fs.map Prod.fst := by
    intro k hk
    obtain ⟨e, he, rfl⟩ := List.mem_map.mp hk
    obtain ⟨w, hw, -⟩ := h.found e he
    exact List.mem_map.mpr ⟨_, hw, rfl⟩
  have hperm : (es.map Prod.fst).Perm (fs.map Prod.fst) :=
    (List.subperm_of_subset hes.nodup hsub).perm_of_length_le (by simp [h.length])
  intro f hf
  obtain ⟨e, he, hkey⟩ := List.mem_map.mp (hperm.mem_iff.mpr (List.mem_map_of_mem hf))
  obtain ⟨w, hw, hR⟩ := h.found e he
  rw [hkey] at hw
  rw [hfs.value_unique hw hf] at hR
  exact ⟨e.2, hkey ▸ he, hR⟩

end Entries

mutual

theorem Value.Exact.proper {v : Value} : v.Exact → v.Proper
  | .scalar h => .scalar fun x hx => absurd hx (h x)
  | .list h => .list fun v hv => (h v hv).proper
  | .object hkeys h => .object hkeys.distinct fun e he => (h e he).proper
  | .node h => .node h.proper

theorem Node.Exact.proper {n : Node} : n.Exact → n.Proper
  | .mk hkind hargs hkeys hprops hchildren =>
    .mk hkind.proper (fun v hv => (hargs v hv).proper) hkeys.distinct
      (fun e he => (hprops e he).proper) fun c hc => (hchildren c hc).proper

end

/-! ## What is equal to one value -/

/-- A truth value as the whole number that it counts as. -/
def Scalar.counted : Scalar → Scalar
  | .bool b => .int (if b then 1 else 0)
  | s => s

theorem Scalar.same_iff {s t : Scalar} (hs : s.Exact) (ht : t.Exact) :
    s.same t = true ↔ s.counted = t.counted := by
  cases s with
  | float x => exact absurd rfl (hs x)
  | _ =>
    cases t with
    | float y => exact absurd rfl (ht y)
    | _ => simp [Scalar.same, Scalar.counted, Scalar.whole?]

theorem sameItems_iff {us vs : List Value} :
    sameItems us vs = true ↔ List.Forall₂ (fun u v => u.same v = true) us vs := by
  induction us generalizing vs with
  | nil => cases vs <;> simp [sameItems]
  | cons u us ih => cases vs <;> simp [sameItems, ih]

theorem sameNodes_iff {ms ns : List Node} :
    sameNodes ms ns = true ↔ List.Forall₂ (fun m n => m.same n = true) ms ns := by
  induction ms generalizing ns with
  | nil => cases ns <;> simp [sameNodes]
  | cons m ms ih => cases ns <;> simp [sameNodes, ih]

theorem Node.same_iff {kind kind' : Value} {args args' : List Value}
    {props props' : List (Key × Value)} {children children' : List Node}
    (hp : Key.Named (props.map Prod.fst)) (hp' : Key.Named (props'.map Prod.fst)) :
    (Node.mk kind args props children).same (.mk kind' args' props' children') = true ↔
      kind.same kind' = true ∧ List.Forall₂ (fun u v => u.same v = true) args args' ∧
        Entries.Matched (fun v w => v.same w = true) props props' ∧
        List.Forall₂ (fun m n => m.same n = true) children children' := by
  rw [← sameItems_iff, ← sameEntries_iff hp hp', ← sameNodes_iff, Node.same]
  simp only [Bool.and_eq_true, and_assoc]

namespace Value

variable {v : Value}

/-! Equal values have one shape. -/

theorem scalar_same_iff {s : Scalar} :
    (scalar s).same v = true ↔ ∃ t, v = .scalar t ∧ s.same t = true := by
  cases v <;> simp [Value.same]

theorem list_same_iff {us : List Value} :
    (list us).same v = true ↔ ∃ vs, v = .list vs ∧ sameItems us vs = true := by
  cases v <;> simp [Value.same]

theorem object_same_iff {es : List (Key × Value)} : (object es).same v = true ↔
    ∃ fs, v = .object fs ∧ (es.length == fs.length && sameEntries es fs) = true := by
  cases v <;> simp [Value.same]

theorem node_same_iff {m : Node} :
    (node m).same v = true ↔ ∃ n, v = .node n ∧ m.same n = true := by
  cases v <;> simp [Value.same]

end Value

theorem forall₂_euclid {α : Type} {R : α → α → Prop} {us vs ws : List α}
    (h : List.Forall₂ R us vs) (h' : List.Forall₂ R us ws)
    (hR : ∀ u ∈ us, ∀ v ∈ vs, ∀ w ∈ ws, R u v → R u w → R v w) : List.Forall₂ R vs ws := by
  induction h generalizing ws with
  | nil =>
    cases h'
    exact .nil
  | cons huv _ ih =>
    cases h' with
    | cons huw h' =>
      refine .cons (hR _ List.mem_cons_self _ List.mem_cons_self _ List.mem_cons_self huv huw) ?_
      exact ih h' fun u hu v hv w hw => hR u (List.mem_cons_of_mem _ hu) v
        (List.mem_cons_of_mem _ hv) w (List.mem_cons_of_mem _ hw)

theorem Entries.Matched.euclid {R : Value → Value → Prop} {es fs gs : List (Key × Value)}
    (h : Entries.Matched R es fs) (h' : Entries.Matched R es gs)
    (hes : Key.Named (es.map Prod.fst)) (hfs : Key.Named (fs.map Prod.fst))
    (hR : ∀ e ∈ es, ∀ f ∈ fs, ∀ g ∈ gs, R e.2 f.2 → R e.2 g.2 → R f.2 g.2) :
    Entries.Matched R fs gs := by
  refine ⟨h.length.symm.trans h'.length, fun f hf => ?_⟩
  obtain ⟨v, hv, hvf⟩ := h.back hes hfs f hf
  obtain ⟨w, hw, hvw⟩ := h'.found _ hv
  exact ⟨w, hw, hR _ hv f hf _ hw hvf hvw⟩

mutual

/-- **Two values that are equal to a third are equal to each other.** -/
theorem Value.same_euclid {u : Value} : u.Exact → ∀ {v w : Value}, v.Exact → w.Exact →
    u.same v = true → u.same w = true → v.same w = true
  | .scalar hs, v, w, hv, hw, huv, huw => by
    obtain ⟨t, rfl, ht⟩ := Value.scalar_same_iff.mp huv
    obtain ⟨t', rfl, ht'⟩ := Value.scalar_same_iff.mp huw
    cases hv with
    | scalar hv =>
      cases hw with
      | scalar hw =>
        rw [Scalar.same_iff hs hv] at ht
        rw [Scalar.same_iff hs hw] at ht'
        rw [Value.same, Scalar.same_iff hv hw, ← ht, ht']
  | .list hus, v, w, hv, hw, huv, huw => by
    obtain ⟨vs, rfl, hvs⟩ := Value.list_same_iff.mp huv
    obtain ⟨ws, rfl, hws⟩ := Value.list_same_iff.mp huw
    cases hv with
    | list hv =>
      cases hw with
      | list hw =>
        rw [Value.same, sameItems_iff]
        exact forall₂_euclid (sameItems_iff.mp hvs) (sameItems_iff.mp hws)
          fun u hu v hv' w hw' => Value.same_euclid (hus u hu) (hv v hv') (hw w hw')
  | .object hkeys hes, v, w, hv, hw, huv, huw => by
    obtain ⟨fs, rfl, hfs⟩ := Value.object_same_iff.mp huv
    obtain ⟨gs, rfl, hgs⟩ := Value.object_same_iff.mp huw
    cases hv with
    | object hkeys' hv =>
      cases hw with
      | object hkeys'' hw =>
        rw [Value.same, sameEntries_iff hkeys' hkeys'']
        exact Entries.Matched.euclid ((sameEntries_iff hkeys hkeys').mp hfs)
          ((sameEntries_iff hkeys hkeys'').mp hgs) hkeys hkeys'
          fun e he f hf g hg => Value.same_euclid (hes e he) (hv f hf) (hw g hg)
  | .node hm, v, w, hv, hw, huv, huw => by
    obtain ⟨n, rfl, hn⟩ := Value.node_same_iff.mp huv
    obtain ⟨n', rfl, hn'⟩ := Value.node_same_iff.mp huw
    cases hv with
    | node hv =>
      cases hw with
      | node hw =>
        rw [Value.same]
        exact Node.same_euclid hm hv hw hn hn'

theorem Node.same_euclid {m : Node} : m.Exact → ∀ {n n' : Node}, n.Exact → n'.Exact →
    m.same n = true → m.same n' = true → n.same n' = true
  | .mk hkind hargs hkeys hprops hchildren, _, _, .mk hkind' hargs' hkeys' hprops' hchildren',
      .mk hkind'' hargs'' hkeys'' hprops'' hchildren'', hn, hn' => by
    obtain ⟨hk, ha, hp, hc⟩ := (Node.same_iff hkeys hkeys').mp hn
    obtain ⟨hk', ha', hp', hc'⟩ := (Node.same_iff hkeys hkeys'').mp hn'
    refine (Node.same_iff hkeys' hkeys'').mpr ⟨?_, ?_, ?_, ?_⟩
    · exact Value.same_euclid hkind hkind' hkind'' hk hk'
    · exact forall₂_euclid ha ha'
        fun u hu v hv w hw => Value.same_euclid (hargs u hu) (hargs' v hv) (hargs'' w hw)
    · exact hp.euclid hp' hkeys hkeys'
        fun e he f hf g hg => Value.same_euclid (hprops e he) (hprops' f hf) (hprops'' g hg)
    · exact forall₂_euclid hc hc' fun c hc n hn n' hn' =>
        Node.same_euclid (hchildren c hc) (hchildren' n hn) (hchildren'' n' hn')

end

/-! ## The order of entries -/

mutual

/-- Whether two values differ in nothing but the order of entries and properties, at any depth. -/
inductive Value.Rearranged : Value → Value → Prop where
  | scalar (s : Scalar) : Value.Rearranged (.scalar s) (.scalar s)
  | live (t : TableId) : Value.Rearranged (.live t) (.live t)
  | list {us vs : List Value} : RearrangedItems us vs → Value.Rearranged (.list us) (.list vs)
  | object {es fs gs : List (Key × Value)} : RearrangedEntries es fs → fs.Perm gs →
      Value.Rearranged (.object es) (.object gs)
  | node {m n : Node} : m.Rearranged n → Value.Rearranged (.node m) (.node n)

inductive Node.Rearranged : Node → Node → Prop where
  | mk {kind kind' : Value} {args args' : List Value} {es fs gs : List (Key × Value)}
      {children children' : List Node} : kind.Rearranged kind' → RearrangedItems args args' →
      RearrangedEntries es fs → fs.Perm gs → RearrangedNodes children children' →
      Node.Rearranged (.mk kind args es children) (.mk kind' args' gs children')

inductive RearrangedItems : List Value → List Value → Prop where
  | nil : RearrangedItems [] []
  | cons {u v : Value} {us vs : List Value} : u.Rearranged v → RearrangedItems us vs →
      RearrangedItems (u :: us) (v :: vs)

/-- The keys stay where they are. -/
inductive RearrangedEntries : List (Key × Value) → List (Key × Value) → Prop where
  | nil : RearrangedEntries [] []
  | cons {k : Key} {u v : Value} {es fs : List (Key × Value)} : u.Rearranged v →
      RearrangedEntries es fs → RearrangedEntries ((k, u) :: es) ((k, v) :: fs)

inductive RearrangedNodes : List Node → List Node → Prop where
  | nil : RearrangedNodes [] []
  | cons {m n : Node} {ms ns : List Node} : m.Rearranged n → RearrangedNodes ms ns →
      RearrangedNodes (m :: ms) (n :: ns)

end

theorem RearrangedEntries.keys {es fs : List (Key × Value)} :
    RearrangedEntries es fs → es.map Prod.fst = fs.map Prod.fst
  | .nil => rfl
  | .cons _ h => congrArg (_ :: ·) h.keys

/-- Entries that match do so in any order on the right. -/
theorem Entries.Matched.perm {R : Value → Value → Prop} {es fs gs : List (Key × Value)}
    (h : Entries.Matched R es fs) (hp : fs.Perm gs) : Entries.Matched R es gs := by
  refine ⟨h.length.trans hp.length_eq, fun e he => ?_⟩
  obtain ⟨w, hw, hR⟩ := h.found e he
  exact ⟨w, hp.mem_iff.mp hw, hR⟩

theorem Entries.Matched.cons {R : Value → Value → Prop} {k : Key} {v w : Value}
    {es fs : List (Key × Value)} (hR : R v w) (h : Entries.Matched R es fs) :
    Entries.Matched R ((k, v) :: es) ((k, w) :: fs) := by
  refine ⟨congrArg (· + 1) h.length, List.forall_mem_cons.mpr ⟨?_, fun e he => ?_⟩⟩
  · exact ⟨w, List.mem_cons_self, hR⟩
  · obtain ⟨w', hw', hR'⟩ := h.found e he
    exact ⟨w', List.mem_cons_of_mem _ hw', hR'⟩

mutual

/-- **An exact value is equal to every rearrangement of it**, and that is exact too. -/
theorem Value.Rearranged.same {u v : Value} : u.Rearranged v → u.Exact →
    v.Exact ∧ u.same v = true
  | .scalar s, h => ⟨h, Value.same_self h.proper⟩
  | .list hus, .list hexact => by
    obtain ⟨hvs, hsame⟩ := hus.same hexact
    rw [Value.same, sameItems_iff]
    exact ⟨.list hvs, hsame⟩
  | .object hes hperm, .object hnamed hexact => by
    obtain ⟨hfs, hmatched⟩ := hes.same hexact
    have hnamed' := (hes.keys ▸ hnamed).perm (hperm.map Prod.fst)
    rw [Value.same, sameEntries_iff hnamed hnamed']
    exact ⟨.object hnamed' fun g hg => hfs g (hperm.mem_iff.mpr hg), hmatched.perm hperm⟩
  | .node hm, .node hexact => by
    rw [Value.same]
    exact ⟨.node (hm.same hexact).1, (hm.same hexact).2⟩

theorem Node.Rearranged.same {m n : Node} : m.Rearranged n → m.Exact →
    n.Exact ∧ m.same n = true
  | .mk hkind hargs hprops hperm hchildren, .mk hkind' hargs' hnamed hprops' hchildren' => by
    obtain ⟨hk, hksame⟩ := hkind.same hkind'
    obtain ⟨ha, hasame⟩ := hargs.same hargs'
    obtain ⟨hp, hmatched⟩ := hprops.same hprops'
    obtain ⟨hc, hcsame⟩ := hchildren.same hchildren'
    have hnamed' := (hprops.keys ▸ hnamed).perm (hperm.map Prod.fst)
    exact ⟨.mk hk ha hnamed' (fun g hg => hp g (hperm.mem_iff.mpr hg)) hc,
      (Node.same_iff hnamed hnamed').mpr ⟨hksame, hasame, hmatched.perm hperm, hcsame⟩⟩

theorem RearrangedItems.same {us vs : List Value} : RearrangedItems us vs → (∀ u ∈ us, u.Exact) →
    (∀ v ∈ vs, v.Exact) ∧ List.Forall₂ (fun u v => u.same v = true) us vs
  | .nil, h => ⟨h, .nil⟩
  | .cons hu hus, h => by
    obtain ⟨hexact, hexacts⟩ := List.forall_mem_cons.mp h
    obtain ⟨hv, hsame⟩ := hu.same hexact
    obtain ⟨hvs, hsames⟩ := hus.same hexacts
    exact ⟨List.forall_mem_cons.mpr ⟨hv, hvs⟩, .cons hsame hsames⟩

theorem RearrangedEntries.same {es fs : List (Key × Value)} : RearrangedEntries es fs →
    (∀ e ∈ es, Value.Exact e.2) →
    (∀ f ∈ fs, Value.Exact f.2) ∧ Entries.Matched (fun v w => v.same w = true) es fs
  | .nil, h => ⟨h, rfl, List.forall_mem_nil _⟩
  | .cons hu hes, h => by
    obtain ⟨hexact, hexacts⟩ := List.forall_mem_cons.mp h
    obtain ⟨hv, hsame⟩ := hu.same hexact
    obtain ⟨hfs, hmatched⟩ := hes.same hexacts
    exact ⟨List.forall_mem_cons.mpr ⟨hv, hfs⟩, hmatched.cons hsame⟩

theorem RearrangedNodes.same {ms ns : List Node} : RearrangedNodes ms ns → (∀ m ∈ ms, m.Exact) →
    (∀ n ∈ ns, n.Exact) ∧ List.Forall₂ (fun m n => m.same n = true) ms ns
  | .nil, h => ⟨h, .nil⟩
  | .cons hm hms, h => by
    obtain ⟨hexact, hexacts⟩ := List.forall_mem_cons.mp h
    obtain ⟨hn, hsame⟩ := hm.same hexact
    obtain ⟨hns, hsames⟩ := hms.same hexacts
    exact ⟨List.forall_mem_cons.mpr ⟨hn, hns⟩, .cons hsame hsames⟩

end

/-! ## The laws -/

/-- The laws of a test for equality, on values that stand for exact ones. -/
structure IsEquality (test : Value → Value → Bool) (S : Value → Prop) : Prop where
  refl {u : Value} : S u → test u u = true
  symm {u v : Value} : S u → S v → test v u = test u v
  trans {u v w : Value} : S u → S v → S w → test u v = true → test v w = true → test u w = true
  /-- the order of entries and properties does not count, whichever operand they are in -/
  rearranged {u u' v v' : Value} : S u → S v → u.Rearranged u' → v.Rearranged v' →
    test u' v' = test u v

namespace Value

variable {u v w : Value}

theorem same_symm (hu : u.Exact) (hv : v.Exact) (h : u.same v = true) : v.same u = true :=
  same_euclid hu hv hu h (same_self hu.proper)

theorem same_trans (hu : u.Exact) (hv : v.Exact) (hw : w.Exact) (h : u.same v = true)
    (h' : v.same w = true) : u.same w = true :=
  same_euclid hv hu hw (same_symm hu hv h) h'

theorem isEquality_same : IsEquality Value.same Exact where
  refl hu := same_self hu.proper
  symm hu hv := Bool.eq_iff_iff.mpr ⟨same_symm hv hu, same_symm hu hv⟩
  trans := same_trans
  rearranged := by
    intro u u' v v' hu hv hru hrv
    obtain ⟨hu', hsu⟩ := hru.same hu
    obtain ⟨hv', hsv⟩ := hrv.same hv
    refine Bool.eq_iff_iff.mpr ⟨fun h => ?_, fun h => ?_⟩
    · exact same_trans hu hu' hv hsu (same_trans hu' hv' hv h (same_symm hv hv' hsv))
    · exact same_trans hu' hu hv' (same_symm hu hu' hsu) (same_trans hu hv hv' h hsv)

end Value

/-! ## References -/

mutual

theorem Value.rearranged_refl : ∀ v : Value, v.Rearranged v
  | .scalar s => .scalar s
  | .live t => .live t
  | .list vs => .list (rearrangedItems_refl vs)
  | .object es => .object (rearrangedEntries_refl es) (.refl es)
  | .node n => .node n.rearranged_refl

theorem Node.rearranged_refl : ∀ n : Node, n.Rearranged n
  | .mk kind args props children => .mk kind.rearranged_refl (rearrangedItems_refl args)
      (rearrangedEntries_refl props) (.refl props) (rearrangedNodes_refl children)

theorem rearrangedItems_refl : ∀ vs : List Value, RearrangedItems vs vs
  | [] => .nil
  | v :: rest => .cons v.rearranged_refl (rearrangedItems_refl rest)

theorem rearrangedEntries_refl : ∀ es : List (Key × Value), RearrangedEntries es es
  | [] => .nil
  | (_, v) :: rest => .cons v.rearranged_refl (rearrangedEntries_refl rest)

theorem rearrangedNodes_refl : ∀ ns : List Node, RearrangedNodes ns ns
  | [] => .nil
  | n :: rest => .cons n.rearranged_refl (rearrangedNodes_refl rest)

end

namespace Store

section MapLive

variable (f : TableId → Value)

theorem mapLiveEntries_eq_map (es : List (Key × Value)) :
    mapLiveEntries f es = es.map fun e => (e.1, mapLive f e.2) := by
  induction es with
  | nil => rw [mapLiveEntries, List.map_nil]
  | cons e rest ih => rw [mapLiveEntries, ih, List.map_cons]

mutual

/-- Values that are rearranged are so with their references replaced. -/
theorem mapLive_rearranged {u v : Value} : u.Rearranged v →
    (mapLive f u).Rearranged (mapLive f v)
  | .scalar s => by
    rw [mapLive]
    exact .scalar s
  | .live t => Value.rearranged_refl _
  | .list h => by
    rw [mapLive, mapLive]
    exact .list (mapLiveItems_rearranged h)
  | .object h hp => by
    rw [mapLive, mapLive]
    refine .object (mapLiveEntries_rearranged h) ?_
    rw [mapLiveEntries_eq_map, mapLiveEntries_eq_map]
    exact hp.map _
  | .node h => by
    rw [mapLive, mapLive]
    exact .node (mapLiveNode_rearranged h)

theorem mapLiveNode_rearranged {m n : Node} : m.Rearranged n →
    (mapLiveNode f m).Rearranged (mapLiveNode f n)
  | .mk hkind hargs hprops hp hchildren => by
    rw [mapLiveNode, mapLiveNode]
    refine .mk (mapLive_rearranged hkind) (mapLiveItems_rearranged hargs)
      (mapLiveEntries_rearranged hprops) ?_ (mapLiveNodes_rearranged hchildren)
    rw [mapLiveEntries_eq_map, mapLiveEntries_eq_map]
    exact hp.map _

theorem mapLiveItems_rearranged {us vs : List Value} : RearrangedItems us vs →
    RearrangedItems (mapLiveItems f us) (mapLiveItems f vs)
  | .nil => rearrangedItems_refl _
  | .cons hu hus => by
    rw [mapLiveItems, mapLiveItems]
    exact .cons (mapLive_rearranged hu) (mapLiveItems_rearranged hus)

theorem mapLiveEntries_rearranged {es fs : List (Key × Value)} : RearrangedEntries es fs →
    RearrangedEntries (mapLiveEntries f es) (mapLiveEntries f fs)
  | .nil => rearrangedEntries_refl _
  | .cons hu hes => by
    rw [mapLiveEntries, mapLiveEntries]
    exact .cons (mapLive_rearranged hu) (mapLiveEntries_rearranged hes)

theorem mapLiveNodes_rearranged {ms ns : List Node} : RearrangedNodes ms ns →
    RearrangedNodes (mapLiveNodes f ms) (mapLiveNodes f ns)
  | .nil => rearrangedNodes_refl _
  | .cons hm hms => by
    rw [mapLiveNodes, mapLiveNodes]
    exact .cons (mapLiveNode_rearranged hm) (mapLiveNodes_rearranged hms)

end

end MapLive

/-- Whether two values are equal, with what their references stand for. -/
def equal (σ : Store) (u v : Value) : Bool := (σ.read u).same (σ.read v)

theorem isEquality_equal (σ : Store) : IsEquality σ.equal fun v => (σ.read v).Exact where
  refl := Value.isEquality_same.refl
  symm := Value.isEquality_same.symm
  trans := Value.isEquality_same.trans
  rearranged hu hv hru hrv := Value.isEquality_same.rearranged hu hv
    (mapLive_rearranged _ hru) (mapLive_rearranged _ hrv)

end Store

/-! ## Where values are compared -/

/-- A pattern takes a value if the two are equal once the pattern has been worked out. -/
theorem Run.takes_pattern {meaning : Expr → Run Value} {p : Expr} {u v : Value} {m m' : Machine}
    (h : meaning p m = (.ok v, m')) :
    Run.takes meaning u (some p) m = (.ok (m'.store.equal v u), m') := by
  rw [Run.takes, Run.run_bind_ok h]
  rfl

/-- **Equality is an equivalence and does not see the order of entries and properties**: of nodes,
of the operands of `==` and `!=`, which may hold references, and of a value and the patterns that
are tried on it. -/
theorem equality_laws (σ : Store) :
    IsEquality Value.same Value.Exact ∧
    (∀ m n : Node, m.same n = (Value.node m).same (.node n)) ∧
    IsEquality σ.equal (fun v => (σ.read v).Exact) ∧
    (∀ (u v : Value) (line : Option Nat),
      applyBinary σ .eq u v line = .ok (.bool (σ.equal u v)) ∧
      applyBinary σ .ne u v line = .ok (.bool !σ.equal u v)) ∧
    ∀ (meaning : Expr → Run Value) (p : Expr) (u v : Value) (m m' : Machine),
      meaning p m = (.ok v, m') → m'.store = σ →
      Run.takes meaning u (some p) m = (.ok (σ.equal v u), m') := by
  refine ⟨Value.isEquality_same, fun m n => by rw [Value.same], σ.isEquality_equal,
    fun u v line => ⟨rfl, rfl⟩, ?_⟩
  rintro meaning p u v m m' h rfl
  exact Run.takes_pattern h

/-- A list of a node and of the fields of a widget. -/
def shelf (props : List (Key × Value)) : Value :=
  .list [.node (.named "text" [.bool true] props []), .live ⟨0⟩]

/-- A node has its properties, and an object in one of them its entries, the other way round. -/
theorem shelf_equal :
    let σ : Store := ⟨#[[("n", .int 1)]]⟩
    let u := shelf [(.str "a", .object [(.str "x", .nil), (.str "y", .str "")]), (.str "b", .int 2)]
    let v := shelf [(.str "b", .int 2), (.str "a", .object [(.str "y", .str ""), (.str "x", .nil)])]
    (σ.read u).Exact ∧ u.Rearranged v ∧ σ.equal v u = true ∧
      applyBinary σ .ne v u none = .ok (.bool false) := by
  intro σ u v
  have hexact : (σ.read u).Exact := by
    show Value.Exact (.list [.node (.named "text" [.bool true] [(.str "a", .object
      [(.str "x", .nil), (.str "y", .str "")]), (.str "b", .int 2)] []), .object [(.str "n", .int 1)]])
    refine .list (List.forall_mem_cons.mpr ⟨.node (.mk (.scalar nofun)
      (List.forall_mem_singleton.mpr (.scalar nofun)) (Key.named_pair (by decide))
      (List.forall_mem_cons.mpr ⟨?_, List.forall_mem_singleton.mpr (.scalar nofun)⟩) nofun),
      List.forall_mem_singleton.mpr (.object ⟨by simp, by simp⟩
        (List.forall_mem_singleton.mpr (.scalar nofun)))⟩)
    exact .object (Key.named_pair (by decide)) (List.forall_mem_cons.mpr
      ⟨.scalar nofun, List.forall_mem_singleton.mpr (.scalar nofun)⟩)
  have hinner : RearrangedEntries [(.str "a", .object [(.str "x", .nil), (.str "y", .str "")]),
      (.str "b", .int 2)] [(.str "a", .object [(.str "y", .str ""), (.str "x", .nil)]),
      (.str "b", .int 2)] :=
    .cons (.object (rearrangedEntries_refl _) (.swap _ _ _)) (rearrangedEntries_refl _)
  have hrearranged : u.Rearranged v :=
    .list (.cons (.node (.mk (Value.rearranged_refl _) (rearrangedItems_refl _) hinner
      (.swap _ _ _) .nil)) (rearrangedItems_refl _))
  obtain ⟨-, -, hlaws, happly, -⟩ := equality_laws σ
  have hequal : σ.equal v u = true :=
    (hlaws.rearranged hexact hexact hrearranged u.rearranged_refl).trans (hlaws.refl hexact)
  refine ⟨hexact, hrearranged, hequal, ?_⟩
  rw [(happly v u none).2, hequal]
  rfl

end Widgetry
