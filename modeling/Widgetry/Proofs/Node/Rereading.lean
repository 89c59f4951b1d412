import Widgetry.Generation.Error
import Widgetry.Node.Dictionary
import Widgetry.Proofs.Value.References

/-!
# Reading nodes that were written

A node is written with the nodes among its values wrapped, each in an object whose only key is
`$node`. An object that looks like such a wrapping would be read as a node, so a node can be read
back only if none of its values has one: if it is `Plain`.

> `Node.rereads`: a plain node is read back as it was, and every node that was read from data is
> plain, whatever the data looked like.

Reading takes the same data for a value, for a node, or for the arguments, properties or children of
one, each with its own leniency. The induction on the data is on all five at once (`ReadsPlain`).
-/

namespace Widgetry

/-! ## Plain values -/

mutual

/-- Whether no object in a value looks like a wrapped node, and each node in it has a kind. -/
inductive Value.Plain : Value → Prop where
  | scalar (s : Scalar) : Value.Plain (.scalar s)
  | live (t : TableId) : Value.Plain (.live t)
  | list {items : List Value} : (∀ v ∈ items, v.Plain) → Value.Plain (.list items)
  | object {entries : List (Key × Value)} : wrapped? entries = none →
      (∀ e ∈ entries, Value.Plain e.2) → Value.Plain (.object entries)
  | node {n : Node} : n.Plain → Value.Plain (.node n)

/-- Properties are never taken for a wrapping, and the kind is left as it is. -/
inductive Node.Plain : Node → Prop where
  | mk {kind : Value} {args : List Value} {props : List (Key × Value)} {children : List Node} :
      kind.isBlank = false → (∀ v ∈ args, v.Plain) → (∀ e ∈ props, Value.Plain e.2) →
      (∀ c ∈ children, c.Plain) → Node.Plain (.mk kind args props children)

end

/-- Whether all nodes in a value are plain. A document has no nodes in it. -/
inductive Value.PlainNodes : Value → Prop where
  | scalar (s : Scalar) : Value.PlainNodes (.scalar s)
  | live (t : TableId) : Value.PlainNodes (.live t)
  | list {items : List Value} : (∀ v ∈ items, v.PlainNodes) → Value.PlainNodes (.list items)
  | object {entries : List (Key × Value)} : (∀ e ∈ entries, Value.PlainNodes e.2) →
      Value.PlainNodes (.object entries)
  | node {n : Node} : n.Plain → Value.PlainNodes (.node n)

/-! ## Proper values -/

/-- Whether a scalar is no NaN. -/
def Scalar.Proper (s : Scalar) : Prop := ∀ x, s = .float x → (x == x) = true

theorem Scalar.proper_str (s : String) : (Scalar.str s).Proper := nofun

/-- Whether keys are told apart. -/
structure Key.Distinct (keys : List Key) : Prop where
  proper : ∀ k ∈ keys, k.Proper
  apart : keys.Pairwise fun k l => k.same l = false

mutual

/-- Whether no NaN is in a value, and no key stands twice in an object. -/
inductive Value.Proper : Value → Prop where
  | scalar {s : Scalar} : s.Proper → Value.Proper (.scalar s)
  | live (t : TableId) : Value.Proper (.live t)
  | list {items : List Value} : (∀ v ∈ items, v.Proper) → Value.Proper (.list items)
  | object {entries : List (Key × Value)} : Key.Distinct (entries.map Prod.fst) →
      (∀ e ∈ entries, Value.Proper e.2) → Value.Proper (.object entries)
  | node {n : Node} : n.Proper → Value.Proper (.node n)

inductive Node.Proper : Node → Prop where
  | mk {kind : Value} {args : List Value} {props : List (Key × Value)} {children : List Node} :
      kind.Proper → (∀ v ∈ args, v.Proper) → Key.Distinct (props.map Prod.fst) →
      (∀ e ∈ props, Value.Proper e.2) → (∀ c ∈ children, c.Proper) →
      Node.Proper (.mk kind args props children)

end

theorem Value.Proper.items {items : List Value} (h : (Value.list items).Proper) :
    ∀ v ∈ items, v.Proper := by
  cases h with
  | list h => exact h

theorem Value.Proper.entries {entries : List (Key × Value)} (h : (Value.object entries).Proper) :
    Key.Distinct (entries.map Prod.fst) ∧ ∀ e ∈ entries, Value.Proper e.2 := by
  cases h with
  | object hkeys h => exact ⟨hkeys, h⟩

theorem Scalar.same_self {s : Scalar} (h : s.Proper) : s.same s = true := by
  cases s with
  | nil => rfl
  | bool b => cases b <;> rfl
  | int n => exact beq_self_eq_true n
  | float x => exact h x rfl
  | str s => exact beq_self_eq_true s

theorem Entries.find?_of_mem {α : Type} {es : List (Key × α)}
    (h : Key.Distinct (es.map Prod.fst)) : ∀ e ∈ es, Entries.find? e.1 es = some e.2 := by
  induction es with
  | nil => exact nofun
  | cons f rest ih =>
    obtain ⟨hf, hrest⟩ := List.forall_mem_cons.mp h.proper
    obtain ⟨hapart, hpair⟩ := List.pairwise_cons.mp h.apart
    intro e he
    rcases List.mem_cons.mp he with rfl | he
    · rw [Entries.find?, if_pos (Scalar.same_self hf)]
    · rw [Entries.find?, if_neg (Bool.not_eq_true _ ▸ hapart e.1 (List.mem_map_of_mem he))]
      exact ih ⟨hrest, hpair⟩ e he

theorem sameItems_self {vs : List Value} (h : ∀ v ∈ vs, v.same v = true) :
    sameItems vs vs = true := by
  induction vs with
  | nil => rw [sameItems]
  | cons v rest ih =>
    obtain ⟨hv, hrest⟩ := List.forall_mem_cons.mp h
    rw [sameItems, hv, ih hrest]
    rfl

theorem sameNodes_self {ns : List Node} (h : ∀ n ∈ ns, n.same n = true) :
    sameNodes ns ns = true := by
  induction ns with
  | nil => rw [sameNodes]
  | cons n rest ih =>
    obtain ⟨hn, hrest⟩ := List.forall_mem_cons.mp h
    rw [sameNodes, hn, ih hrest]
    rfl

theorem sameEntries_self {es : List (Key × Value)} (hk : Key.Distinct (es.map Prod.fst))
    (h : ∀ e ∈ es, e.2.same e.2 = true) : sameEntries es es = true := by
  -- the entries that are left to compare are some of those that are looked up
  suffices hsome : ∀ left : List (Key × Value), (∀ e ∈ left, e ∈ es) →
      sameEntries left es = true from hsome es fun _ he => he
  intro left hleft
  induction left with
  | nil => rw [sameEntries]
  | cons e rest ih =>
    obtain ⟨he, hrest⟩ := List.forall_mem_cons.mp hleft
    rw [sameEntries, Entries.find?_of_mem hk e he, ih hrest]
    exact Bool.and_eq_true _ _ |>.mpr ⟨h e he, rfl⟩

mutual

theorem Value.same_self {v : Value} : v.Proper → v.same v = true
  | .scalar h => by
    rw [Value.same]
    exact Scalar.same_self h
  | .live t => by
    rw [Value.same]
    exact beq_self_eq_true t
  | .list h => by
    rw [Value.same]
    exact sameItems_self fun v hv => Value.same_self (h v hv)
  | .object hk h => by
    rw [Value.same, beq_self_eq_true, Bool.true_and]
    exact sameEntries_self hk fun e he => Value.same_self (h e he)
  | .node h => by
    rw [Value.same]
    exact Node.same_self h

theorem Node.same_self {n : Node} : n.Proper → n.same n = true
  | .mk hkind hargs hkeys hprops hchildren => by
    rw [Node.same, Value.same_self hkind,
      sameItems_self fun v hv => Value.same_self (hargs v hv),
      sameEntries_self hkeys fun e he => Value.same_self (hprops e he),
      sameNodes_self fun c hc => Node.same_self (hchildren c hc), beq_self_eq_true]
    rfl

end

/-! ## What was written -/

theorem itemsOfData_toData {items : List Value} (h : ∀ v ∈ items, v.toData.ofData = .ok v) :
    itemsOfData (itemsToData items) = .ok items := by
  induction items with
  | nil => rw [itemsToData, itemsOfData]
  | cons v rest ih =>
    obtain ⟨hv, hrest⟩ := List.forall_mem_cons.mp h
    rw [itemsToData, itemsOfData, hv, ih hrest]
    rfl

theorem entriesOfData_toData {entries : List (Key × Value)}
    (h : ∀ e ∈ entries, e.2.toData.ofData = .ok e.2) :
    entriesOfData (entriesToData entries) = .ok entries := by
  induction entries with
  | nil => rw [entriesToData, entriesOfData]
  | cons e rest ih =>
    obtain ⟨he, hrest⟩ := List.forall_mem_cons.mp h
    rw [entriesToData, entriesOfData, he, ih hrest]
    rfl

theorem nodesOfData_toData {nodes : List Node} (h : ∀ n ∈ nodes, Node.ofData n.toData = .ok n) :
    nodesOfData (nodesToData nodes) = .ok nodes := by
  induction nodes with
  | nil => rw [nodesToData, nodesOfData]
  | cons n rest ih =>
    obtain ⟨hn, hrest⟩ := List.forall_mem_cons.mp h
    rw [nodesToData, nodesOfData, hn, ih hrest]
    rfl

/-- Whether an object looks like a wrapping shows in its keys. -/
theorem wrapped?_eq_none_iff {entries : List (Key × Value)} :
    wrapped? entries = none ↔ entries.map Prod.fst ≠ [.str nodeKey] := by
  unfold wrapped?
  split
  · next k v =>
    rw [ite_eq_right_iff]
    simp
  · next hshape =>
    refine ⟨fun _ hkeys => ?_, fun _ => rfl⟩
    obtain ⟨⟨k, v⟩, rest, rfl, hk, hrest⟩ := List.map_eq_cons_iff.mp hkeys
    cases List.map_eq_nil_iff.mp hrest
    exact hshape _ _ (by rw [← hk])

theorem keys_entriesToData (entries : List (Key × Value)) :
    (entriesToData entries).map Prod.fst = entries.map Prod.fst := by
  induction entries with
  | nil => rw [entriesToData]
  | cons e rest ih => rw [entriesToData, List.map_cons, List.map_cons, ih]

theorem ofData_wrapped {entries : List (Key × Value)} {data : Value}
    (h : wrapped? entries = some data) :
    (Value.object entries).ofData = (Node.ofData data).map Value.node := by
  rw [Value.ofData]
  split
  · next d hd =>
    cases h.symm.trans hd
    rfl
  · next hd => cases h.symm.trans hd

theorem ofData_unwrapped {entries : List (Key × Value)} (h : wrapped? entries = none) :
    (Value.object entries).ofData = (entriesOfData entries).map Value.object := by
  rw [Value.ofData]
  split
  · next hd => cases h.symm.trans hd
  · rfl

/-- A part of a node that is missing among the entries is empty. -/
theorem argsAmong_eq (entries : List (Key × Value)) : argsAmong entries =
    (Entries.find? (.str "args") entries).elim (.ok []) argsOfData := by
  rw [argsAmong]
  split
  · next h => rw [h]; rfl
  · next h => rw [h]; rfl

theorem propsAmong_eq (entries : List (Key × Value)) : propsAmong entries =
    (Entries.find? (.str "props") entries).elim (.ok []) propsOfData := by
  rw [propsAmong]
  split
  · next h => rw [h]; rfl
  · next h => rw [h]; rfl

theorem childrenAmong_eq (entries : List (Key × Value)) : childrenAmong entries =
    (Entries.find? (.str "children") entries).elim (.ok []) childrenOfData := by
  rw [childrenAmong]
  split
  · next h => rw [h]; rfl
  · next h => rw [h]; rfl

/-- The object of a node is read part by part. -/
theorem Node.ofData_object {kind : Value} {args children : List Value}
    {props : List (Key × Value)} (hkind : kind.isBlank = false) :
    Node.ofData (.object [(.str "kind", kind), (.str "args", .list args),
      (.str "props", .object props), (.str "children", .list children)]) = (do
        let args ← itemsOfData args
        let props ← entriesOfData props
        let children ← nodesOfData children
        return .mk kind args props children) := by
  rw [Node.ofData, argsAmong_eq, propsAmong_eq, childrenAmong_eq]
  show (if kind.isBlank then _ else argsOfData (.list args) >>= fun _ =>
    propsOfData (.object props) >>= fun _ => childrenOfData (.list children) >>= _) = _
  rw [if_neg (Bool.not_eq_true _ ▸ hkind), argsOfData, propsOfData, childrenOfData]

mutual

theorem Value.ofData_toData {v : Value} : v.Plain → v.toData.ofData = .ok v
  | .scalar s => by rw [Value.toData, Value.ofData] <;> exact nofun
  | .live t => by rw [Value.toData, Value.ofData] <;> exact nofun
  | .list h => by
    rw [Value.toData, Value.ofData, itemsOfData_toData fun v hv => Value.ofData_toData (h v hv)]
    rfl
  | .object hw h => by
    have hw' := wrapped?_eq_none_iff.mpr (keys_entriesToData _ ▸ wrapped?_eq_none_iff.mp hw)
    rw [Value.toData, ofData_unwrapped hw',
      entriesOfData_toData fun e he => Value.ofData_toData (h e he)]
    rfl
  | .node h => by
    rw [Value.toData, ofData_wrapped rfl, Node.ofData_toData h]
    rfl

theorem Node.ofData_toData {n : Node} : n.Plain → Node.ofData n.toData = .ok n
  | .mk hkind hargs hprops hchildren => by
    rw [Node.toData, Node.ofData_object hkind,
      itemsOfData_toData fun v hv => Value.ofData_toData (hargs v hv),
      entriesOfData_toData fun e he => Value.ofData_toData (hprops e he),
      nodesOfData_toData fun c hc => Node.ofData_toData (hchildren c hc)]
    rfl

end

/-! ## What was read -/

/-- Whether reading some data makes plain values of it, and proper ones under a condition. -/
structure Value.ReadsPlain (data : Value) (P : Prop) : Prop where
  value {v : Value} : data.ofData = .ok v → v.Plain ∧ (P → v.Proper)
  node {n : Node} : Node.ofData data = .ok n → n.Plain ∧ (P → n.Proper)
  args {vs : List Value} : argsOfData data = .ok vs → ∀ v ∈ vs, v.Plain ∧ (P → v.Proper)
  props {es : List (Key × Value)} : propsOfData data = .ok es →
    (∀ e ∈ es, Value.Plain e.2 ∧ (P → Value.Proper e.2)) ∧ (P → Key.Distinct (es.map Prod.fst))
  children {ns : List Node} : childrenOfData data = .ok ns → ∀ n ∈ ns, n.Plain ∧ (P → n.Proper)

theorem map_eq_ok {ε α β : Type} {x : Except ε α} {f : α → β} {b : β} :
    x.map f = .ok b ↔ ∃ a, x = .ok a ∧ f a = b := by
  cases x with
  | error e => exact iff_of_false nofun nofun
  | ok a => simp [Except.map]

theorem mem_of_wrapped? {entries : List (Key × Value)} {data : Value}
    (h : wrapped? entries = some data) : ∃ e ∈ entries, e.2 = data := by
  unfold wrapped? at h
  split at h
  · next k v =>
    split at h
    · cases h
      exact ⟨_, List.mem_cons_self, rfl⟩
    · cases h
  · cases h

/-- What is read from an entry, or empty without the entry. -/
theorem among_cases {α : Type} {f : Value → Except DataFault (List α)} {k : Key} {as : List α}
    {entries : List (Key × Value)}
    (h : (Entries.find? k entries).elim (.ok []) f = .ok as) :
    as = [] ∨ ∃ e ∈ entries, f e.2 = .ok as := by
  cases hf : Entries.find? k entries with
  | none =>
    rw [hf] at h
    cases h
    exact .inl rfl
  | some v =>
    rw [hf] at h
    obtain ⟨e, he, rfl⟩ := Entries.mem_of_find? hf
    exact .inr ⟨e, he, h⟩

/-- The parts of a node that was read from an object, and where they come from. -/
theorem node_of_entries {entries : List (Key × Value)} {kind : Value} {args : List Value}
    {props : List (Key × Value)} {children : List Node}
    (h : Node.ofData (.object entries) = .ok (.mk kind args props children)) :
    Entries.find? (.str "kind") entries = some kind ∧ kind.isBlank = false ∧
      argsAmong entries = .ok args ∧ propsAmong entries = .ok props ∧
      childrenAmong entries = .ok children := by
  rw [Node.ofData] at h
  split at h
  · cases h
  · next kind' hkind =>
    split at h
    · cases h
    · next hblank =>
      obtain ⟨_, hargs, h⟩ := bind_eq_ok.mp h
      obtain ⟨_, hprops, h⟩ := bind_eq_ok.mp h
      obtain ⟨_, hchildren, h⟩ := bind_eq_ok.mp h
      cases h
      exact ⟨hkind, Bool.not_eq_true _ ▸ hblank, hargs, hprops, hchildren⟩

theorem mem_itemsOfData {items vs : List Value} (hr : itemsOfData items = .ok vs) :
    ∀ v ∈ vs, ∃ d ∈ items, d.ofData = .ok v := by
  induction items generalizing vs with
  | nil =>
    rw [itemsOfData] at hr
    cases hr
    exact List.forall_mem_nil _
  | cons d rest ih =>
    rw [itemsOfData] at hr
    obtain ⟨v, hv, hr⟩ := bind_eq_ok.mp hr
    obtain ⟨vs, hvs, hr⟩ := bind_eq_ok.mp hr
    cases hr
    refine List.forall_mem_cons.mpr ⟨⟨d, List.mem_cons_self, hv⟩, fun w hw => ?_⟩
    obtain ⟨d', hd', hw⟩ := ih hvs w hw
    exact ⟨d', List.mem_cons_of_mem _ hd', hw⟩

theorem mem_nodesOfData {items : List Value} {ns : List Node} (hr : nodesOfData items = .ok ns) :
    ∀ n ∈ ns, ∃ d ∈ items, Node.ofData d = .ok n := by
  induction items generalizing ns with
  | nil =>
    rw [nodesOfData] at hr
    cases hr
    exact List.forall_mem_nil _
  | cons d rest ih =>
    rw [nodesOfData] at hr
    obtain ⟨n, hn, hr⟩ := bind_eq_ok.mp hr
    obtain ⟨ns, hns, hr⟩ := bind_eq_ok.mp hr
    cases hr
    refine List.forall_mem_cons.mpr ⟨⟨d, List.mem_cons_self, hn⟩, fun m hm => ?_⟩
    obtain ⟨d', hd', hm⟩ := ih hns m hm
    exact ⟨d', List.mem_cons_of_mem _ hd', hm⟩

/-- The values of entries are read, and their keys stay. -/
theorem mem_entriesOfData {entries es : List (Key × Value)} (hr : entriesOfData entries = .ok es) :
    es.map Prod.fst = entries.map Prod.fst ∧
      ∀ e ∈ es, ∃ d ∈ entries, Value.ofData d.2 = .ok e.2 := by
  induction entries generalizing es with
  | nil =>
    rw [entriesOfData] at hr
    cases hr
    exact ⟨rfl, List.forall_mem_nil _⟩
  | cons d rest ih =>
    rw [entriesOfData] at hr
    obtain ⟨v, hv, hr⟩ := bind_eq_ok.mp hr
    obtain ⟨es, hes, hr⟩ := bind_eq_ok.mp hr
    cases hr
    obtain ⟨hkeys, hvalues⟩ := ih hes
    refine ⟨by rw [List.map_cons, List.map_cons, hkeys],
      List.forall_mem_cons.mpr ⟨⟨d, List.mem_cons_self, hv⟩, fun e he => ?_⟩⟩
    obtain ⟨d', hd', he⟩ := hvalues e he
    exact ⟨d', List.mem_cons_of_mem _ hd', he⟩

namespace Value.ReadsPlain

variable {P Q : Prop}

theorem mono {data : Value} (h : data.ReadsPlain P) (hPQ : Q → P) : data.ReadsPlain Q where
  value hv := (h.value hv).imp_right (· ∘ hPQ)
  node hn := (h.node hn).imp_right (· ∘ hPQ)
  args ha v hv := (h.args ha v hv).imp_right (· ∘ hPQ)
  props hp := ⟨fun e he => ((h.props hp).1 e he).imp_right (· ∘ hPQ), (h.props hp).2 ∘ hPQ⟩
  children hc n hn := (h.children hc n hn).imp_right (· ∘ hPQ)

/-- What has no parts can only be read as the value that it is. -/
theorem of_atom {data : Value} (hvalue : data.ofData = .ok data) (hplain : data.Plain)
    (hlist : ∀ items, data ≠ .list items) (hobject : ∀ entries, data ≠ .object entries)
    (htext : ∀ s, data ≠ .str s) : data.ReadsPlain data.Proper where
  value h := by
    cases hvalue.symm.trans h
    exact ⟨hplain, id⟩
  node h := by
    rw [Node.ofData] at h
    · cases h
    · exact hobject
  args h := by
    rw [argsOfData] at h
    · cases h
    · exact hlist
    · exact htext
    · exact hobject
  props h := by
    rw [propsOfData] at h
    · cases h
    · exact hobject
  children h := by
    rw [childrenOfData] at h
    · cases h
    · exact hlist
    · exact htext
    · exact hobject

/-- A text may stand for its characters. -/
theorem text (s : String) : (Value.str s).ReadsPlain (Value.str s).Proper where
  value h := by
    rw [Value.ofData] at h
    · cases h
      exact ⟨.scalar _, id⟩
    · rintro _ ⟨⟩
    · rintro _ ⟨⟩
  node h := by
    rw [Node.ofData] at h
    · cases h
    · rintro _ ⟨⟩
  args h := by
    rw [argsOfData] at h
    cases h
    intro v hv
    obtain ⟨c, -, rfl⟩ := List.mem_map.mp hv
    exact ⟨.scalar _, fun _ => .scalar (Scalar.proper_str _)⟩
  props h := by
    rw [propsOfData] at h
    · cases h
    · rintro _ ⟨⟩
  children h := by
    rw [childrenOfData] at h
    split at h
    · cases h
      exact List.forall_mem_nil _
    · cases h

theorem list {items : List Value} (ih : ∀ d ∈ items, d.ReadsPlain d.Proper) :
    (Value.list items).ReadsPlain (Value.list items).Proper := by
  replace ih : ∀ d ∈ items, d.ReadsPlain (Value.list items).Proper := fun d hd =>
    (ih d hd).mono fun h => h.items d hd
  have hitems : ∀ {vs}, itemsOfData items = .ok vs →
      ∀ v ∈ vs, v.Plain ∧ ((Value.list items).Proper → v.Proper) := by
    intro vs h v hv
    obtain ⟨d, hd, hv⟩ := mem_itemsOfData h v hv
    exact (ih d hd).value hv
  refine ⟨fun h => ?_, fun h => ?_, fun h => ?_, fun h => ?_, fun h => ?_⟩
  · rw [Value.ofData] at h
    obtain ⟨vs, hvs, h⟩ := bind_eq_ok.mp h
    cases h
    exact ⟨.list fun v hv => (hitems hvs v hv).1,
      fun hp => .list fun v hv => (hitems hvs v hv).2 hp⟩
  · rw [Node.ofData] at h
    · cases h
    · rintro _ ⟨⟩
  · rw [argsOfData] at h
    exact hitems h
  · rw [propsOfData] at h
    · cases h
    · rintro _ ⟨⟩
  · rw [childrenOfData] at h
    intro n hn
    obtain ⟨d, hd, hn⟩ := mem_nodesOfData h n hn
    exact (ih d hd).node hn

section Object

variable {entries es : List (Key × Value)}

/-- Entries are read value by value, and the keys are told apart as before. -/
theorem entries_plain (ih : ∀ e ∈ entries, Value.ReadsPlain e.2 P)
    (hkeys : P → Key.Distinct (entries.map Prod.fst)) (h : entriesOfData entries = .ok es) :
    (∀ e ∈ es, Value.Plain e.2 ∧ (P → Value.Proper e.2)) ∧
      (P → Key.Distinct (es.map Prod.fst)) := by
  obtain ⟨hsame, hvalues⟩ := mem_entriesOfData h
  refine ⟨fun e he => ?_, fun hp => hsame ▸ hkeys hp⟩
  obtain ⟨d, hd, he⟩ := hvalues e he
  exact (ih d hd).value he

/-- An object with a kind is read as a node. -/
theorem object_node (ih : ∀ e ∈ entries, Value.ReadsPlain e.2 P)
    (hvalues : P → ∀ e ∈ entries, Value.Proper e.2) {n : Node}
    (h : Node.ofData (.object entries) = .ok n) : n.Plain ∧ (P → n.Proper) := by
  obtain ⟨kind, args, props, children⟩ := n
  obtain ⟨hkind, hblank, hargs, hprops, hchildren⟩ := node_of_entries h
  rw [argsAmong_eq] at hargs
  rw [propsAmong_eq] at hprops
  rw [childrenAmong_eq] at hchildren
  have hargs : ∀ v ∈ args, v.Plain ∧ (P → v.Proper) := by
    rcases among_cases hargs with rfl | ⟨e, he, hargs⟩
    · exact nofun
    · exact (ih e he).args hargs
  have hprops : (∀ e ∈ props, Value.Plain e.2 ∧ (P → Value.Proper e.2)) ∧
      (P → Key.Distinct (props.map Prod.fst)) := by
    rcases among_cases hprops with rfl | ⟨e, he, hprops⟩
    · exact ⟨nofun, fun _ => ⟨nofun, .nil⟩⟩
    · exact (ih e he).props hprops
  have hchildren : ∀ c ∈ children, c.Plain ∧ (P → c.Proper) := by
    rcases among_cases hchildren with rfl | ⟨e, he, hchildren⟩
    · exact nofun
    · exact (ih e he).children hchildren
  refine ⟨.mk hblank (fun v hv => (hargs v hv).1) (fun e he => (hprops.1 e he).1)
    fun c hc => (hchildren c hc).1, fun hp => ?_⟩
  obtain ⟨k, hk, rfl⟩ := Entries.mem_of_find? hkind
  exact .mk (hvalues hp k hk) (fun v hv => (hargs v hv).2 hp) (hprops.2 hp)
    (fun e he => (hprops.1 e he).2 hp) fun c hc => (hchildren c hc).2 hp

/-- An object is read as a node or as the object that it is, if it stands for a value. -/
theorem object_value (ih : ∀ e ∈ entries, Value.ReadsPlain e.2 P)
    (hkeys : P → Key.Distinct (entries.map Prod.fst)) {v : Value}
    (h : (Value.object entries).ofData = .ok v) : v.Plain ∧ (P → v.Proper) := by
  cases hw : wrapped? entries with
  | some data =>
    rw [ofData_wrapped hw] at h
    obtain ⟨n, hn, rfl⟩ := map_eq_ok.mp h
    obtain ⟨e, he, rfl⟩ := mem_of_wrapped? hw
    obtain ⟨hplain, hproper⟩ := (ih e he).node hn
    exact ⟨.node hplain, fun hp => .node (hproper hp)⟩
  | none =>
    rw [ofData_unwrapped hw] at h
    obtain ⟨es, hes, rfl⟩ := map_eq_ok.mp h
    obtain ⟨hentries, hdistinct⟩ := entries_plain ih hkeys hes
    have hw' := wrapped?_eq_none_iff.mpr
      ((mem_entriesOfData hes).1 ▸ wrapped?_eq_none_iff.mp hw)
    exact ⟨.object hw' fun e he => (hentries e he).1,
      fun hp => .object (hdistinct hp) fun e he => (hentries e he).2 hp⟩

theorem object (ih : ∀ e ∈ entries, Value.ReadsPlain e.2 (Value.Proper e.2)) :
    (Value.object entries).ReadsPlain (Value.object entries).Proper := by
  have hkeys : (Value.object entries).Proper → Key.Distinct (entries.map Prod.fst) :=
    fun h => h.entries.1
  have hvalues : (Value.object entries).Proper → ∀ e ∈ entries, Value.Proper e.2 :=
    fun h => h.entries.2
  replace ih : ∀ e ∈ entries, Value.ReadsPlain e.2 (Value.object entries).Proper :=
    fun e he => (ih e he).mono fun hp => hvalues hp e he
  refine ⟨object_value ih hkeys, object_node ih hvalues, fun h => ?_, fun h => ?_, fun h => ?_⟩
  · rw [argsOfData] at h
    cases h
    intro v hv
    obtain ⟨e, he, rfl⟩ := List.mem_map.mp hv
    exact ⟨.scalar _, fun hp => .scalar ((hkeys hp).proper _ (List.mem_map_of_mem he))⟩
  · rw [propsOfData] at h
    exact entries_plain ih hkeys h
  · rw [childrenOfData] at h
    split at h
    · cases h
      exact List.forall_mem_nil _
    · cases h

end Object

end Value.ReadsPlain

theorem Value.PlainNodes.readsPlain {data : Value} :
    data.PlainNodes → data.ReadsPlain data.Proper
  | .scalar s => by
    cases s with
    | str s => exact .text s
    | _ => exact .of_atom (by rw [Value.ofData] <;> exact nofun) (.scalar _) nofun nofun nofun
  | .live t => .of_atom (by rw [Value.ofData] <;> exact nofun) (.live t) nofun nofun nofun
  | .list h => .list fun d hd => (h d hd).readsPlain
  | .object h => .object fun e he => (h e he).readsPlain
  | .node h => .of_atom (by rw [Value.ofData] <;> exact nofun) (.node h) nofun nofun nofun

/-- **A plain node is read back as it was, and every node that was read is plain**, so that it is
read back in its turn. Without NaN a node is the same as itself, and reading brings in none. -/
theorem Node.rereads :
    (∀ n : Node, n.Plain → Node.ofData n.toData = .ok n ∧ (n.Proper → n.same n = true)) ∧
    ∀ (data : Value) (n : Node), data.PlainNodes → Node.ofData data = .ok n →
      n.Plain ∧ Node.ofData n.toData = .ok n ∧
        (data.Proper → n.Proper ∧ n.same n = true) := by
  refine ⟨fun n h => ⟨Node.ofData_toData h, Node.same_self⟩, fun data n hdata h => ?_⟩
  obtain ⟨hplain, hproper⟩ := hdata.readsPlain.node h
  exact ⟨hplain, Node.ofData_toData hplain, fun hp => ⟨hproper hp, Node.same_self (hproper hp)⟩⟩

/-- A node with a node in a list, and with a property that is called like a wrapping. -/
def captioned : Node :=
  .named "list" [.list [.node (.named "text" [.float 0.5] [] [])]] [(.str nodeKey, .bool true)] []

/-- Data with the characters of a text for arguments, a wrapping for the properties, and no
children. -/
def looseData : Value :=
  .object [(.str "kind", .int 5), (.str "args", .str "ab"),
    (.str "props", .object [(.str nodeKey, .object [(.str nodeKey, .object [(.str "kind",
      .str "col")])])])]

/-- The first is read back, and so is what the second was read as. -/
theorem captioned_reread : captioned.Plain ∧ captioned.Proper ∧
    Node.ofData captioned.toData = .ok captioned ∧ captioned.same captioned = true ∧
    looseData.PlainNodes ∧ looseData.Proper ∧ ∃ n, Node.ofData looseData = .ok n ∧ n.Plain ∧
      Node.ofData n.toData = .ok n ∧ n.Proper ∧ n.same n = true := by
  have hone : ∀ k : Key, k.Proper → Key.Distinct [k] :=
    fun k hk => ⟨List.forall_mem_singleton.mpr hk, List.pairwise_singleton _ k⟩
  have hhalf : Scalar.Proper (.float 0.5) := fun x hx => by
    cases hx
    decide
  have hplain : captioned.Plain :=
    .mk rfl (List.forall_mem_singleton.mpr (.list (List.forall_mem_singleton.mpr
      (.node (.mk rfl (List.forall_mem_singleton.mpr (.scalar _)) nofun nofun)))))
      (List.forall_mem_singleton.mpr (.scalar _)) nofun
  have hproper : captioned.Proper :=
    .mk (.scalar nofun) (List.forall_mem_singleton.mpr (.list (List.forall_mem_singleton.mpr
      (.node (.mk (.scalar nofun) (List.forall_mem_singleton.mpr (.scalar hhalf)) ⟨nofun, .nil⟩
        nofun nofun)))))
      (hone _ nofun) (List.forall_mem_singleton.mpr (.scalar nofun)) nofun
  have hnodes : looseData.PlainNodes :=
    .object (List.forall_mem_cons.mpr ⟨.scalar _, List.forall_mem_cons.mpr ⟨.scalar _,
      List.forall_mem_singleton.mpr (.object (List.forall_mem_singleton.mpr
        (.object (List.forall_mem_singleton.mpr (.object (List.forall_mem_singleton.mpr
          (.scalar _)))))))⟩⟩)
  have hdata : looseData.Proper :=
    .object ⟨by simp [Scalar.Proper], by decide⟩ (List.forall_mem_cons.mpr ⟨.scalar nofun,
      List.forall_mem_cons.mpr ⟨.scalar nofun, List.forall_mem_singleton.mpr
        (.object (hone _ nofun) (List.forall_mem_singleton.mpr (.object (hone _ nofun)
          (List.forall_mem_singleton.mpr (.object (hone _ nofun) (List.forall_mem_singleton.mpr
            (.scalar nofun)))))))⟩⟩)
  obtain ⟨n, hn⟩ := exists_of_isOk (r := Node.ofData looseData) (by decide +kernel)
  obtain ⟨hback, hsame⟩ := Node.rereads.1 captioned hplain
  obtain ⟨hread, hagain, hself⟩ := Node.rereads.2 looseData n hnodes hn
  exact ⟨hplain, hproper, hback, hsame hproper, hnodes, hdata, n, hn, hread, hagain, hself hdata⟩

end Widgetry
