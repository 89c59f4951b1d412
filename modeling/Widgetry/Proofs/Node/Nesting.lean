import Mathlib
import Widgetry.Command.Run

/-!
# How deep a written node is nested

A document is measured in the lists and objects around its innermost value, a node in the nodes
around its innermost child. Writing a node down adds two levels for each level of nodes, an object
and the list of the children, and within a node the list of the arguments or the object of the
properties:

> `Node.nesting_le`: if the values of a node have at most `k` levels, then its document has at most
> `2 * depth + k` of them;
>
> `Node.two_mul_depth_le`: whatever the values are, the document has at least `2 * depth - 1`.

A command that converts a node refuses documents by the first measure before it converts, and the
conversion refuses nodes by the second. `Node.nesting_fits` compares the two limits.
-/

namespace Widgetry

/-! ## Levels -/

/-- Whether a value is a scalar, or lists and objects of scalars in at most so many levels. -/
inductive Value.Levels : Nat → Value → Prop where
  | scalar {k : Nat} (s : Scalar) : Value.Levels k (.scalar s)
  | list {k : Nat} {items : List Value} : (∀ v ∈ items, v.Levels k) →
      Value.Levels (k + 1) (.list items)
  | object {k : Nat} {entries : List (Key × Value)} : (∀ e ∈ entries, Value.Levels k e.2) →
      Value.Levels (k + 1) (.object entries)

/-- Whether a node and the nodes below it have names for kinds, and values of at most so many
levels. -/
inductive Node.Levels (k : Nat) : Node → Prop where
  | mk {name : String} {args : List Value} {props : List (Key × Value)} {children : List Node} :
      (∀ v ∈ args, v.Levels k) → (∀ e ∈ props, Value.Levels k e.2) →
      (∀ c ∈ children, c.Levels k) → Node.Levels k (.named name args props children)

/-! ## The nesting of lists and entries -/

section

open Json

variable {k : Nat}

theorem nestingItems_toData_le {items : List Value} (h : ∀ v ∈ items, nesting v.toData ≤ k) :
    nestingItems (itemsToData items) ≤ k + 1 := by
  induction items with
  | nil => exact Nat.zero_le _
  | cons v rest ih =>
    obtain ⟨hv, hrest⟩ := List.forall_mem_cons.mp h
    rw [itemsToData, nestingItems]
    exact Nat.max_le.mpr ⟨Nat.succ_le_succ hv, ih hrest⟩

theorem nestingEntries_toData_le {entries : List (Key × Value)}
    (h : ∀ e ∈ entries, nesting (Value.toData e.2) ≤ k) :
    nestingEntries (entriesToData entries) ≤ k + 1 := by
  induction entries with
  | nil => exact Nat.zero_le _
  | cons e rest ih =>
    obtain ⟨he, hrest⟩ := List.forall_mem_cons.mp h
    rw [entriesToData, nestingEntries]
    exact Nat.max_le.mpr ⟨Nat.succ_le_succ he, ih hrest⟩

theorem nestingItems_nodesToData_le {nodes : List Node}
    (h : ∀ n ∈ nodes, nesting n.toData ≤ 2 * n.depth + k) :
    nestingItems (nodesToData nodes) ≤ 2 * Node.depthBelow nodes + k + 1 := by
  induction nodes with
  | nil => exact Nat.zero_le _
  | cons n rest ih =>
    obtain ⟨hn, hrest⟩ := List.forall_mem_cons.mp h
    rw [nodesToData, nestingItems, Node.depthBelow]
    have := ih hrest
    omega

/-- A node is an object of its kind, two containers for its values, and the list of its children. -/
theorem nesting_toData (kind : Value) (args : List Value) (props : List (Key × Value))
    (children : List Node) :
    nesting (Node.mk kind args props children).toData =
      max (nesting kind + 1) (max (nestingItems (itemsToData args) + 1)
        (max (nestingEntries (entriesToData props) + 1)
          (nestingItems (nodesToData children) + 1))) := by
  rw [Node.toData]
  simp only [nesting, nestingEntries, Nat.max_zero]

/-! ## The two measures -/

theorem Value.Levels.nesting_le {k : Nat} {v : Value} (h : v.Levels k) : nesting v.toData ≤ k := by
  induction h with
  | scalar s =>
    rw [Value.toData]
    exact Nat.zero_le _
  | list h ih =>
    rw [Value.toData, nesting]
    exact nestingItems_toData_le ih
  | object h ih =>
    rw [Value.toData, nesting]
    exact nestingEntries_toData_le ih

theorem Node.nesting_le {n : Node} (h : n.Levels k) : nesting n.toData ≤ 2 * n.depth + k := by
  induction h with
  | mk hargs hprops _ ih =>
    have hargs := nestingItems_toData_le fun v hv => (hargs v hv).nesting_le
    have hprops := nestingEntries_toData_le fun e he => (hprops e he).nesting_le
    have hchildren := nestingItems_nodesToData_le ih
    have hkind : ∀ name : String, nesting (.str name) = 0 := fun _ => rfl
    rw [Node.named, nesting_toData, Node.depth, hkind]
    omega

mutual

theorem Node.two_mul_depth_le (n : Node) : 2 * n.depth ≤ nesting n.toData + 1 := by
  obtain ⟨kind, args, props, children⟩ := n
  have hchildren := two_mul_depthBelow_le children
  rw [nesting_toData, Node.depth]
  omega

theorem two_mul_depthBelow_le (nodes : List Node) :
    2 * Node.depthBelow nodes ≤ nestingItems (nodesToData nodes) := by
  cases nodes with
  | nil => exact Nat.zero_le _
  | cons n rest =>
    have hn := Node.two_mul_depth_le n
    have hrest := two_mul_depthBelow_le rest
    rw [nodesToData, nestingItems, Node.depthBelow]
    omega

end

end

/-! ## The two limits -/

section

open Json

variable {limit : Int} {n : Node}

theorem checkNesting_ok {v : Value} (h : (nesting v : Int) ≤ limit) :
    checkNesting limit v = .ok () :=
  if_neg (Int.not_lt.mpr h)

theorem checkNesting_tooDeep {v : Value} (hlimit : 0 ≤ limit) (h : limit < nesting v) :
    checkNesting limit v = .error (.tooDeep (limit + 1) limit) := by
  rw [checkNesting, if_pos h, Int.max_eq_right (by omega)]

/-- A document of a node is checked as the node is. -/
theorem readObject_node {bytes : List UInt8} (hread : read bytes = .ok n.toData) :
    readObject bytes limit = (checkNesting limit n.toData).map fun _ => n.toData := by
  obtain ⟨kind, args, props, children⟩ := n
  rw [readObject, hread]
  rw [Node.toData]
  rfl

/-- **The limit on documents fits the limit on nodes.** A document of a node that is no deeper than
the limit, with no more than two levels in its values, is converted if the node in it is; and a
document of a node that is deeper by two levels or more is refused. -/
theorem Node.nesting_fits (D : Int) (n : Node) (hD : 1 ≤ D) :
    (n.Levels 2 → n.depth ≤ D →
      checkNesting (2 * D + 2) n.toData = .ok () ∧
      ∀ (s : Settings) (bytes : List UInt8) (policy : Option Policy) (m : Node) (v : View String),
        s.maxViewDepth = D → read bytes = .ok n.toData → Node.ofData n.toData = .ok m →
        m.toView ⟨policy.getD s.converterPolicy, D⟩ = .ok v →
        Command.converted s bytes policy = .ok (.ok v)) ∧
    (D + 2 ≤ n.depth →
      checkNesting (2 * D + 2) n.toData = .error (.tooDeep (2 * D + 3) (2 * D + 2)) ∧
      ∀ (s : Settings) (bytes : List UInt8) (policy : Option Policy),
        s.maxViewDepth = D → read bytes = .ok n.toData →
        Command.converted s bytes policy = .ok (.error ("JSON nesting depth " ++
          toString (2 * D + 3) ++ " exceeds maximum " ++ toString (2 * D + 2)))) := by
  refine ⟨fun hlevels hdepth => ?_, fun hdepth => ?_⟩
  · have hle := Node.nesting_le hlevels
    have hcheck : checkNesting (2 * D + 2) n.toData = .ok () := checkNesting_ok (by omega)
    refine ⟨hcheck, fun s bytes policy m v hs hread hdata hview => ?_⟩
    rw [Command.converted, hs, readObject_node hread, hcheck]
    simp only [Except.map, hdata, hview]
  · have hle := n.two_mul_depth_le
    have hcheck : checkNesting (2 * D + 2) n.toData =
        .error (.tooDeep (2 * D + 2 + 1) (2 * D + 2)) :=
      checkNesting_tooDeep (by omega) (by omega)
    rw [Int.add_assoc] at hcheck
    refine ⟨hcheck, fun s bytes policy hs hread => ?_⟩
    rw [Command.converted, hs, readObject_node hread, hcheck]
    rfl

end

/-- A text in two lists. -/
def boxed : Node := .named "text" [.list [.list [.int 1]]] [] []

def boxedBytes : List UInt8 :=
  Text.encode "\x7b\"kind\":\"text\",\"args\":[[[1]]],\"props\":\x7b\x7d,\"children\":[]\x7d"

/-- Columns in three levels. -/
def columns : Node := .named "col" [] [] [.named "col" [] [] [.named "col" [] [] []]]

/-- The first is converted if one level is allowed, and no document of the second is. -/
theorem boxed_fits :
    (Json.checkNesting 4 boxed.toData = .ok () ∧
      ∃ v, Command.converted { maxViewDepth := 1 } boxedBytes none = .ok (.ok v)) ∧
    Json.checkNesting 4 columns.toData = .error (.tooDeep 5 4) ∧
    ∀ bytes, Json.read bytes = .ok columns.toData →
      Command.converted { maxViewDepth := 1 } bytes none =
        .ok (.error "JSON nesting depth 5 exceeds maximum 4") := by
  have hlevels : boxed.Levels 2 :=
    .mk (List.forall_mem_singleton.mpr (.list (List.forall_mem_singleton.mpr
      (.list (List.forall_mem_singleton.mpr (.scalar _)))))) nofun nofun
  obtain ⟨v, hv⟩ := exists_of_isOk (r := boxed.toView ⟨.strict, 1⟩) (by decide +kernel)
  obtain ⟨hcheck, hconverted⟩ := (Node.nesting_fits 1 boxed (by decide)).1 hlevels (by decide)
  obtain ⟨hdeep, hrefused⟩ := (Node.nesting_fits 1 columns (by decide)).2 (by decide)
  exact ⟨⟨hcheck, v, hconverted { maxViewDepth := 1 } boxedBytes none boxed v rfl (by cbv)
    (by cbv) hv⟩, hdeep, fun bytes hread => hrefused { maxViewDepth := 1 } bytes none rfl hread⟩

/-- A text in three lists. -/
def crated : Node := .named "text" [.list [.list [.list [.int 1]]]] [] []

def cratedBytes : List UInt8 :=
  Text.encode "\x7b\"kind\":\"text\",\"args\":[[[[1]]]],\"props\":\x7b\x7d,\"children\":[]\x7d"

/-- Of values with more levels the limit takes no account, even though a text shows any of them. -/
theorem crated_refused :
    ¬ ∀ (s : Settings) (bytes : List UInt8) (policy : Option Policy) (n : Node) (v : View String),
      1 ≤ s.maxViewDepth → n.depth ≤ s.maxViewDepth → Json.read bytes = .ok n.toData →
      Node.ofData n.toData = .ok n →
      n.toView ⟨policy.getD s.converterPolicy, s.maxViewDepth⟩ = .ok v →
      Command.converted s bytes policy = .ok (.ok v) := by
  intro hall
  obtain ⟨v, hv⟩ := exists_of_isOk (r := crated.toView ⟨.strict, 1⟩) (by decide +kernel)
  have hread : Json.read cratedBytes = .ok crated.toData := by cbv
  have hconverted := hall { maxViewDepth := 1 } cratedBytes none crated v (by decide) (by decide)
    hread (by cbv) hv
  rw [Command.converted, readObject_node hread] at hconverted
  cases hconverted

end Widgetry
