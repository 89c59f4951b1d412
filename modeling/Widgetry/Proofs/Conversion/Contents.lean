import Widgetry.Conversion.Convert
import Widgetry.Generation.Error

/-!
# What a view shows of its nodes

A view shows contents: texts, labels and states, and the messages that come with them. They stand in
the tree of nodes already, as arguments and properties, and a conversion only takes them over.

> `toView_contents`: the contents of a view, from its first element to its last, are those of the
> nodes that are drawn, each once and in their order; under the strict policy, every node that is
> drawn is of a known kind.

Which nodes are drawn is said by `Node.visits`, without any view. A row draws all of its children and
a container its first one; a table draws its headers, and then the children of its rows.
-/

namespace Widgetry

/-! ## Contents -/

/-- What an element shows, whatever it looks like. -/
inductive Content where
  | text (content : String)
  | button (label onclick : String)
  | input (placeholder value : String) (onChange : Option String)
  | checkbox (checked : Bool) (label : String) (onToggle : Option String)
  | radio (selected : Bool) (label : String) (onSelect : Option String)
  | select (options : List String) (selected : Option Int) (onSelect : Option String)
deriving DecidableEq, Repr

mutual

/-- The contents of a view, from its first element to its last. -/
def View.contents : View String → List Content
  | .text t => [.text t.content]
  | .button b => [.button b.label b.onclick]
  | .input i => [.input i.placeholder i.value i.onChange]
  | .checkbox c => [.checkbox c.checked c.label c.onToggle]
  | .radio r => [.radio r.selected r.label r.onSelect]
  | .select s => [.select s.options s.selected s.onSelect]
  | .row ⟨children, _, _, _⟩ | .column ⟨children, _, _, _⟩ => contentsEach children
  | .container ⟨child, _, _, _, _, _, _⟩ => child.contents
  | .scrollable ⟨child, _, _, _⟩ => child.contents
  | .list ⟨items, _, _⟩ => contentsEach items
  | .table ⟨headers, rows, _, _, _⟩ => contentsEach headers ++ contentsRows rows
  | .tabs ⟨_, contents, _, _, _, _⟩ => contentsEach contents
  | .accordion ⟨items, _, _, _⟩ => contentsSections items
  | .sidebar ⟨content, _, _, _, _, _⟩ => content.contents
  | .empty | .slider _ | .progressBar _ | .navigationRail _ => []

def contentsEach : List (View String) → List Content
  | [] => []
  | v :: rest => v.contents ++ contentsEach rest

def contentsRows : List (List (View String)) → List Content
  | [] => []
  | row :: rest => contentsEach row ++ contentsRows rest

def contentsSections : List (AccordionItem String) → List Content
  | [] => []
  | ⟨_, _, _, children⟩ :: rest => contentsEach children ++ contentsSections rest

end

/-! ## Data of a node -/

namespace Value

/-- The text that is shown for a value. -/
def shown : Value → String
  | .nil => ""
  | .bool b => if b then "true" else "false"
  | v => v.plain.toOption.getD ""

def text? : Value → Option String
  | .str s => some s
  | _ => none

def truth? : Value → Option Bool
  | .bool b => some b
  | _ => none

/-- A whole number, as such or as a floating-point number without fraction. -/
def count? : Value → Option Int
  | .int n => some n
  | .float x => Binary64.toInt? x
  | _ => none

/-- The texts in a list. -/
def texts : Value → List String
  | .list items => items.filterMap text?
  | _ => []

end Value

namespace Node

/-- The text of the first argument. -/
def label (n : Node) : String := (n.mainArg?.map Value.shown).getD ""

def textAt? (n : Node) (key : String) : Option String := (n.prop? key).bind Value.text?

def truthAt (n : Node) (key : String) : Bool := ((n.prop? key).bind Value.truth?).getD false

def countAt? (n : Node) (key : String) : Option Int := (n.prop? key).bind Value.count?

def textsAt (n : Node) (key : String) : List String := ((n.prop? key).map Value.texts).getD []

end Node

/-- A node that is drawn, and the element that it is drawn as. -/
structure Visit where
  element? : Option Element
  node : Node

namespace Visit

/-- The content of an element, read off its node. -/
def contents (x : Visit) : List Content :=
  match x.element? with
  | some .text => [.text x.node.label]
  | some .button => [.button x.node.label ((x.node.textAt? "onclick").getD "")]
  | some .input =>
    [.input x.node.label ((x.node.textAt? "value").getD "") (x.node.textAt? "on_change")]
  | some .checkbox =>
    [.checkbox (x.node.truthAt "is_checked") x.node.label (x.node.textAt? "on_toggle")]
  | some .radio =>
    [.radio (x.node.truthAt "is_selected") x.node.label (x.node.textAt? "on_select")]
  | some .select =>
    [.select (x.node.textsAt "options") (x.node.countAt? "selected_index")
      (x.node.textAt? "on_select")]
  | _ => []

end Visit

mutual

/-- The nodes that are drawn, in the order in which they come. A header without children is drawn
as a text. -/
def Node.visits : Node → List Visit
  | .mk kind args props children =>
    ⟨Element.ofKind? kind, .mk kind args props children⟩ :: match Element.ofKind? kind with
      | some .center | some .container | some .scrollable => visitsFirst [] children
      | some .column | some .row | some .list => visitsEach children
      | some .table => visitsHeaders children ++ visitsRows children
      | _ => []

def visitsEach : List Node → List Visit
  | [] => []
  | n :: rest => n.visits ++ visitsEach rest

/-- The nodes drawn for a first child, and what is drawn without one. -/
def visitsFirst (otherwise : List Visit) : List Node → List Visit
  | [] => otherwise
  | n :: _ => n.visits

def visitsHeaders : List Node → List Visit
  | [] => []
  | .mk kind args props children :: rest =>
    if kind.same (.str "header") then
      visitsFirst [⟨some .text, .mk kind args props children⟩] children ++ visitsHeaders rest
    else visitsHeaders rest

def visitsRows : List Node → List Visit
  | [] => []
  | .mk kind _ _ children :: rest =>
    if kind.same (.str "row") then visitsEach children ++ visitsRows rest
    else visitsRows rest

end

/-! ## What is read is what stands there -/

theorem refuse_ne_ok {α : Type} {kind : Value} {cause : ConversionCause} {a : α} :
    refuse kind cause ≠ .ok a := by
  unfold refuse
  split <;> exact nofun

namespace Node

variable {n : Node} {key : String}

/-- A property that counts as absent is absent, or it is the absent value. -/
theorem given?_eq_none (h : n.given? key = none) : n.prop? key = none ∨ n.prop? key = some .nil := by
  unfold given? at h
  split at h
  · next hp => exact .inr hp
  · exact .inl h

theorem given?_eq_some {v : Value} (h : n.given? key = some v) : n.prop? key = some v := by
  unfold given? at h
  split at h
  · cases h
  · exact h

/-- What is read of a property that counts as absent is what is read of no property. -/
theorem bind_absent {α : Type} {read : Value → Option α} (hnil : read .nil = none)
    (h : n.given? key = none) : (n.prop? key).bind read = none := by
  rcases given?_eq_none h with hp | hp
  · rw [hp]
    rfl
  · rw [hp]
    exact hnil

theorem strProp?_eq {s : Option String} (h : n.strProp? key = .ok s) : s = n.textAt? key := by
  unfold strProp? at h
  split at h
  · next hp =>
    cases h
    exact (bind_absent rfl hp).symm
  · next hp =>
    cases h
    rw [textAt?, given?_eq_some hp]
    rfl
  · exact absurd h refuse_ne_ok

theorem boolProp?_eq {b : Option Bool} (h : n.boolProp? key = .ok b) :
    b.getD false = n.truthAt key := by
  unfold boolProp? at h
  split at h
  · next hp =>
    cases h
    rw [truthAt, bind_absent rfl hp]
  · next hp =>
    cases h
    rw [truthAt, given?_eq_some hp]
    rfl
  · exact absurd h refuse_ne_ok

theorem intProp?_eq {k : Option Int} (h : n.intProp? key = .ok k) : k = n.countAt? key := by
  unfold intProp? at h
  split at h
  · next hp =>
    cases h
    exact (bind_absent rfl hp).symm
  · next hp =>
    cases h
    rw [countAt?, given?_eq_some hp]
    rfl
  · next x hp =>
    split at h
    · next hx =>
      cases h
      rw [countAt?, given?_eq_some hp]
      exact hx.symm
    · exact absurd h refuse_ne_ok
  · exact absurd h refuse_ne_ok

theorem textItems_eq : ∀ {items : List Value} {ss : List String}, n.textItems key items = .ok ss →
    ss = items.filterMap Value.text?
  | [], _, h => by
    cases h
    rfl
  | .str s :: rest, _, h => by
    obtain ⟨ss, hss, h⟩ := bind_eq_ok.mp h
    cases h
    rw [textItems_eq hss]
    rfl
  | .nil :: _, _, h | .bool _ :: _, _, h | .int _ :: _, _, h | .float _ :: _, _, h
  | .list _ :: _, _, h | .object _ :: _, _, h | .node _ :: _, _, h | .live _ :: _, _, h =>
    absurd h refuse_ne_ok

theorem strsProp_eq {ss : List String} (h : n.strsProp key = .ok ss) : ss = n.textsAt key := by
  unfold strsProp at h
  split at h
  · next hp =>
    cases h
    rcases given?_eq_none hp with hp | hp
    · rw [textsAt, hp]
      rfl
    · rw [textsAt, hp]
      rfl
  · next items hp =>
    rw [textsAt, given?_eq_some hp]
    exact textItems_eq h
  · exact absurd h refuse_ne_ok

theorem messageProp?_eq {s : Option String} (h : n.messageProp? key = .ok s) :
    s = n.textAt? key := by
  unfold messageProp? at h
  split at h
  · next hp =>
    cases h
    exact (bind_absent rfl hp).symm
  · next hp =>
    cases h
    rw [textAt?, given?_eq_some hp]
    rfl
  · exact absurd h refuse_ne_ok

theorem messageProp_eq {s : String} (h : n.messageProp key = .ok s) : n.textAt? key = some s := by
  obtain ⟨m, hm, h⟩ := bind_eq_ok.mp h
  cases m with
  | none => exact absurd h refuse_ne_ok
  | some t =>
    cases h
    exact (messageProp?_eq hm).symm

theorem mainText_eq {s : String} (h : n.mainText "" = .ok s) : s = n.label := by
  unfold mainText at h
  rw [label]
  split at h
  · next hp =>
    cases h
    rw [hp]
    rfl
  · next hp =>
    cases h
    rw [hp]
    rfl
  · exact absurd h refuse_ne_ok
  · next hp =>
    cases h
    rw [hp]
    rfl
  · next v hnil hnode hbool hp =>
    rw [hp, Option.map_some, Option.getD_some]
    unfold Value.shown
    split
    · exact absurd rfl hnil
    · exact absurd rfl (hbool _)
    · cases hplain : v.plain with
      | ok t =>
        rw [hplain] at h
        cases h
        rfl
      | error f =>
        rw [hplain] at h
        cases h

end Node

/-! ## Elements without children -/

/-- Whether some contents are those of the nodes that are drawn, all of them of known kinds. -/
structure DrawnFrom (cs : List Content) (xs : List Visit) : Prop where
  contents : cs = xs.flatMap Visit.contents
  known : ∀ x ∈ xs, x.element?.isSome = true

theorem DrawnFrom.nil : DrawnFrom [] [] := ⟨rfl, nofun⟩

theorem DrawnFrom.append {cs ds : List Content} {xs ys : List Visit} (h : DrawnFrom cs xs)
    (h' : DrawnFrom ds ys) : DrawnFrom (cs ++ ds) (xs ++ ys) := by
  refine ⟨?_, List.forall_mem_append.mpr ⟨h.known, h'.known⟩⟩
  rw [h.contents, h'.contents, List.flatMap_append]

theorem DrawnFrom.leaf {e : Element} {n : Node} :
    DrawnFrom (Visit.contents ⟨some e, n⟩) [⟨some e, n⟩] :=
  ⟨(List.flatMap_singleton _ _).symm, List.forall_mem_singleton.mpr rfl⟩

/-- An element that only holds others. -/
theorem DrawnFrom.below {e : Element} {n : Node} {cs : List Content} {xs : List Visit}
    (hown : Visit.contents ⟨some e, n⟩ = []) (h : DrawnFrom cs xs) :
    DrawnFrom cs (⟨some e, n⟩ :: xs) := by
  have hall := (DrawnFrom.leaf (e := e) (n := n)).append h
  rwa [hown] at hall

namespace Node

variable {n : Node} {v : View String}

theorem textView_contents (h : n.textView = .ok v) :
    v.contents = Visit.contents ⟨some .text, n⟩ := by
  obtain ⟨content, hcontent, h⟩ := bind_eq_ok.mp h
  obtain ⟨style, -, h⟩ := bind_eq_ok.mp h
  cases h
  rw [mainText_eq hcontent]
  rfl

theorem buttonView_contents (h : n.buttonView = .ok v) :
    v.contents = Visit.contents ⟨some .button, n⟩ := by
  obtain ⟨onclick, honclick, h⟩ := bind_eq_ok.mp h
  obtain ⟨label, hlabel, h⟩ := bind_eq_ok.mp h
  obtain ⟨style, -, h⟩ := bind_eq_ok.mp h
  cases h
  rw [View.contents, Visit.contents, mainText_eq hlabel, messageProp_eq honclick]
  rfl

theorem inputView_contents (h : n.inputView = .ok v) :
    v.contents = Visit.contents ⟨some .input, n⟩ := by
  obtain ⟨placeholder, hplaceholder, h⟩ := bind_eq_ok.mp h
  obtain ⟨value, hvalue, h⟩ := bind_eq_ok.mp h
  obtain ⟨onChange, honChange, h⟩ := bind_eq_ok.mp h
  obtain ⟨width, -, h⟩ := bind_eq_ok.mp h
  obtain ⟨password, -, h⟩ := bind_eq_ok.mp h
  obtain ⟨style, -, h⟩ := bind_eq_ok.mp h
  cases h
  rw [View.contents, mainText_eq hplaceholder, strProp?_eq hvalue, messageProp?_eq honChange]
  rfl

theorem checkboxView_contents (h : n.checkboxView = .ok v) :
    v.contents = Visit.contents ⟨some .checkbox, n⟩ := by
  obtain ⟨checked, hchecked, h⟩ := bind_eq_ok.mp h
  obtain ⟨label, hlabel, h⟩ := bind_eq_ok.mp h
  obtain ⟨onToggle, honToggle, h⟩ := bind_eq_ok.mp h
  obtain ⟨style, -, h⟩ := bind_eq_ok.mp h
  cases h
  rw [View.contents, boolProp?_eq hchecked, mainText_eq hlabel, messageProp?_eq honToggle]
  rfl

theorem radioView_contents (h : n.radioView = .ok v) :
    v.contents = Visit.contents ⟨some .radio, n⟩ := by
  obtain ⟨selected, hselected, h⟩ := bind_eq_ok.mp h
  obtain ⟨label, hlabel, h⟩ := bind_eq_ok.mp h
  obtain ⟨onSelect, honSelect, h⟩ := bind_eq_ok.mp h
  obtain ⟨style, -, h⟩ := bind_eq_ok.mp h
  cases h
  rw [View.contents, boolProp?_eq hselected, mainText_eq hlabel, messageProp?_eq honSelect]
  rfl

theorem selectView_contents (h : n.selectView = .ok v) :
    v.contents = Visit.contents ⟨some .select, n⟩ := by
  obtain ⟨options, hoptions, h⟩ := bind_eq_ok.mp h
  obtain ⟨selected, hselected, h⟩ := bind_eq_ok.mp h
  obtain ⟨onSelect, honSelect, h⟩ := bind_eq_ok.mp h
  obtain ⟨style, -, h⟩ := bind_eq_ok.mp h
  cases h
  rw [View.contents, strsProp_eq hoptions, intProp?_eq hselected, messageProp?_eq honSelect]
  rfl

end Node

/-! ## Trees -/

/-- A node that was converted under the strict policy has an element. -/
theorem elementOf_eq {kind : Value} {e? : Option Element} (h : elementOf kind = .ok e?) :
    e? = Element.ofKind? kind := by
  unfold elementOf at h
  split at h
  · cases h
  · cases h
  · cases h
    rfl

section

variable {o : ConversionOptions}

mutual

theorem convert_contents (ho : o.policy = .strict) : ∀ (n : Node) {depth : Nat} {v : View String},
    convert o depth n = .ok v → DrawnFrom v.contents n.visits
  | .mk kind args props children, depth, v, h => by
    have hfirst : ∀ {v}, convertFirst o depth children = .ok v →
        DrawnFrom v.contents (visitsFirst [] children) := convertFirst_contents ho children
    have heach : ∀ {vs}, convertEach o depth children = .ok vs →
        DrawnFrom (contentsEach vs) (visitsEach children) := convertEach_contents ho children
    rw [convert] at h
    split at h
    · exact absurd h refuse_ne_ok
    obtain ⟨e?, he, h⟩ := bind_eq_ok.mp h
    rw [Node.visits, ← elementOf_eq he]
    cases e? with
    | none =>
      rw [ho] at h
      exact absurd h refuse_ne_ok
    | some e =>
      cases e with
      | text => exact Node.textView_contents h ▸ .leaf
      | button => exact Node.buttonView_contents h ▸ .leaf
      | input => exact Node.inputView_contents h ▸ .leaf
      | checkbox => exact Node.checkboxView_contents h ▸ .leaf
      | radio => exact Node.radioView_contents h ▸ .leaf
      | select => exact Node.selectView_contents h ▸ .leaf
      | center =>
        obtain ⟨child, hchild, h⟩ := bind_eq_ok.mp h
        cases h
        have hdrawn := hfirst hchild
        exact .below rfl hdrawn
      | column | row =>
        obtain ⟨spacing, -, h⟩ := bind_eq_ok.mp h
        obtain ⟨padding, -, h⟩ := bind_eq_ok.mp h
        obtain ⟨style, -, h⟩ := bind_eq_ok.mp h
        obtain ⟨views, hviews, h⟩ := bind_eq_ok.mp h
        cases h
        exact .below rfl (heach hviews)
      | container =>
        obtain ⟨child, hchild, h⟩ := bind_eq_ok.mp h
        obtain ⟨padding, -, h⟩ := bind_eq_ok.mp h
        obtain ⟨width, -, h⟩ := bind_eq_ok.mp h
        obtain ⟨height, -, h⟩ := bind_eq_ok.mp h
        obtain ⟨centerX, -, h⟩ := bind_eq_ok.mp h
        obtain ⟨centerY, -, h⟩ := bind_eq_ok.mp h
        obtain ⟨style, -, h⟩ := bind_eq_ok.mp h
        cases h
        have hdrawn := hfirst hchild
        exact .below rfl hdrawn
      | scrollable =>
        obtain ⟨child, hchild, h⟩ := bind_eq_ok.mp h
        obtain ⟨width, -, h⟩ := bind_eq_ok.mp h
        obtain ⟨height, -, h⟩ := bind_eq_ok.mp h
        obtain ⟨style, -, h⟩ := bind_eq_ok.mp h
        cases h
        have hdrawn := hfirst hchild
        exact .below rfl hdrawn
      | list =>
        obtain ⟨views, hviews, h⟩ := bind_eq_ok.mp h
        obtain ⟨spacing, -, h⟩ := bind_eq_ok.mp h
        obtain ⟨style, -, h⟩ := bind_eq_ok.mp h
        cases h
        exact .below rfl (heach hviews)
      | table =>
        obtain ⟨headers, hheaders, h⟩ := bind_eq_ok.mp h
        obtain ⟨rows, hrows, h⟩ := bind_eq_ok.mp h
        obtain ⟨spacing, -, h⟩ := bind_eq_ok.mp h
        obtain ⟨colSpacing, -, h⟩ := bind_eq_ok.mp h
        obtain ⟨style, -, h⟩ := bind_eq_ok.mp h
        cases h
        exact .below rfl ((convertHeaders_contents ho children hheaders).append
          (convertRows_contents ho children hrows))

theorem convertEach_contents (ho : o.policy = .strict) : ∀ (ns : List Node) {depth : Nat}
    {vs : List (View String)}, convertEach o depth ns = .ok vs →
      DrawnFrom (contentsEach vs) (visitsEach ns)
  | [], depth, vs, h => by
    cases h
    exact .nil
  | n :: rest, depth, vs, h => by
    obtain ⟨v, hv, h⟩ := bind_eq_ok.mp h
    obtain ⟨vs', hvs, h⟩ := bind_eq_ok.mp h
    cases h
    exact (convert_contents ho n hv).append (convertEach_contents ho rest hvs)

theorem convertFirst_contents (ho : o.policy = .strict) : ∀ (ns : List Node) {depth : Nat}
    {v : View String}, convertFirst o depth ns = .ok v → DrawnFrom v.contents (visitsFirst [] ns)
  | [], depth, v, h => by
    cases h
    exact .nil
  | n :: _, depth, v, h => convert_contents ho n h

theorem convertHeaders_contents (ho : o.policy = .strict) : ∀ (ns : List Node) {depth : Nat}
    {vs : List (View String)}, convertHeaders o depth ns = .ok vs →
      DrawnFrom (contentsEach vs) (visitsHeaders ns)
  | [], depth, vs, h => by
    cases h
    exact .nil
  | .mk kind args props children :: rest, depth, vs, h => by
    have hrest : ∀ {vs}, convertHeaders o depth rest = .ok vs →
        DrawnFrom (contentsEach vs) (visitsHeaders rest) := convertHeaders_contents ho rest
    by_cases hkind : kind.same (.str "header")
    · rw [visitsHeaders, if_pos hkind]
      cases children with
      | nil =>
        rw [convertHeaders, if_pos hkind] at h
        obtain ⟨v, hv, h⟩ := bind_eq_ok.mp h
        obtain ⟨vs', hvs, h⟩ := bind_eq_ok.mp h
        cases h
        exact (Node.textView_contents hv ▸ DrawnFrom.leaf).append (hrest hvs)
      | cons n others =>
        rw [convertHeaders, if_pos hkind] at h
        obtain ⟨v, hv, h⟩ := bind_eq_ok.mp h
        obtain ⟨vs', hvs, h⟩ := bind_eq_ok.mp h
        cases h
        exact (convert_contents ho n hv).append (hrest hvs)
    · rw [convertHeaders, if_neg hkind] at h
      rw [visitsHeaders, if_neg hkind]
      exact hrest h

theorem convertRows_contents (ho : o.policy = .strict) : ∀ (ns : List Node) {depth : Nat}
    {rows : List (List (View String))}, convertRows o depth ns = .ok rows →
      DrawnFrom (contentsRows rows) (visitsRows ns)
  | [], depth, rows, h => by
    cases h
    exact .nil
  | .mk kind _ _ children :: rest, depth, rows, h => by
    have hrest : ∀ {rows}, convertRows o depth rest = .ok rows →
        DrawnFrom (contentsRows rows) (visitsRows rest) := convertRows_contents ho rest
    rw [convertRows] at h
    rw [visitsRows]
    split at h
    · next hkind =>
      rw [if_pos hkind]
      obtain ⟨row, hrow, h⟩ := bind_eq_ok.mp h
      obtain ⟨rows', hrows, h⟩ := bind_eq_ok.mp h
      cases h
      exact (convertEach_contents ho children hrow).append (hrest hrows)
    · next hkind =>
      rw [if_neg hkind]
      exact hrest h

end

end

/-- **A conversion loses, doubles and moves nothing.** Under the strict policy the contents of a view
are those of the nodes that are drawn, and all of these are of known kinds. -/
theorem Node.toView_contents {n : Node} {o : ConversionOptions} {v : View String}
    (ho : o.policy = .strict) (h : n.toView o = .ok v) :
    v.contents = n.visits.flatMap Visit.contents ∧ ∀ x ∈ n.visits, x.element?.isSome = true := by
  have hdrawn := convert_contents ho n h
  exact ⟨hdrawn.contents, hdrawn.known⟩

/-- A table whose row stands before its headers, and a container with two children. -/
def sheet : Node :=
  .named "col" [] [] [
    .named "table" [] [] [
      .named "row" [] [] [
        .named "text" [.int 1] [] [],
        .named "button" [.str "+"] [(.str "onclick", .str "Sheet.Add")] []],
      .named "header" [.str "Number"] [] [],
      .named "header" [] [] [.named "label" [.bool true] [] [], .named "text" [.str "unseen"] [] []]],
    .named "center" [] [] [
      .named "checkbox" [.str "all"] [(.str "is_checked", .bool true)] [],
      .named "text" [.str "unseen"] [] []]]

/-- The headers come first, and of the container the first child only. -/
theorem sheet_contents : ∃ v, sheet.toView {} = .ok v ∧
    v.contents = [.text "Number", .text "true", .text "1", .button "+" "Sheet.Add",
      .checkbox true "all" none] := by
  have hruns : (sheet.toView {}).isOk = true := by decide +kernel
  obtain ⟨v, hv⟩ := exists_of_isOk hruns
  obtain ⟨hcontents, -⟩ := Node.toView_contents rfl hv
  refine ⟨v, hv, hcontents.trans ?_⟩
  decide +kernel

end Widgetry
