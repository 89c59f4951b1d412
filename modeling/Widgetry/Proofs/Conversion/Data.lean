import Widgetry.Proofs.Conversion.Contents
import Widgetry.Proofs.Value.Equality

/-!
# The data of a view tell what it is

A view is written as plain data for whoever draws it. Data are compared as an object is, where the
order of entries does not count and truth values count as numbers.

> `toView_data`: two views made from nodes have equal data only if they are the same view, child for
> child and message for message.

An entry names the kind of a view, so that views of two kinds never have equal data; views of one
kind have the same entries, and each entry tells what it was written for.
-/

namespace Widgetry

/-! ## Entries in one order -/

section Settings

variable {es fs : List (String × Value)}

theorem sameEntries_aligned {gs : List (Key × Value)} (hkeys : es.map Prod.fst = fs.map Prod.fst)
    (hfind : ∀ f ∈ fs, Entries.find? (.str f.1) gs = some f.2) :
    sameEntries (es.map fun e => (.str e.1, e.2)) gs = true ↔
      List.Forall₂ (fun e f => e.2.same f.2 = true) es fs := by
  induction es generalizing fs with
  | nil =>
    cases fs with
    | nil => simp [sameEntries]
    | cons f fs => cases hkeys
  | cons e es ih =>
    cases fs with
    | nil => cases hkeys
    | cons f fs =>
      obtain ⟨hkey, hkeys⟩ := List.cons.inj hkeys
      obtain ⟨hf, hfs⟩ := List.forall_mem_cons.mp hfind
      have hk : e.1 = f.1 := hkey
      rw [List.map_cons, sameEntries, Bool.and_eq_true, ih hkeys hfs, List.forall₂_cons]
      simp only [hk, hf]

/-- Settings with the same names in the same order are compared one by one. -/
theorem settings_same_iff (hkeys : es.map Prod.fst = fs.map Prod.fst)
    (hnodup : (es.map Prod.fst).Nodup) :
    (View.settings es).same (View.settings fs) = true ↔
      List.Forall₂ (fun e f => e.2.same f.2 = true) es fs := by
  have hnamed : Key.Named ((fs.map fun f => ((.str f.1, f.2) : Key × Value)).map Prod.fst) := by
    have hmap : (fs.map fun f => ((.str f.1, f.2) : Key × Value)).map Prod.fst
        = (fs.map Prod.fst).map Scalar.str := by simp
    rw [hmap, ← hkeys]
    refine ⟨hnodup.map fun _ _ h => Scalar.str.inj h, fun k hk => ?_⟩
    obtain ⟨name, -, rfl⟩ := List.mem_map.mp hk
    exact ⟨name, rfl⟩
  have hlength : es.length = fs.length := by simpa using congrArg List.length hkeys
  rw [View.settings, View.settings, Value.same]
  simp only [List.length_map, hlength, beq_self_eq_true, Bool.true_and]
  refine sameEntries_aligned hkeys fun f hf => ?_
  exact (Entries.find?_eq_some_iff hnamed ⟨_, rfl⟩).mpr (List.mem_map_of_mem hf)

end Settings

/-! ## What single data tell -/

namespace View

@[simp] theorem str_same {a b : String} : (Value.str a).same (.str b) = true ↔ a = b := by
  simp [Value.same, Scalar.same]

@[simp] theorem int_same {a b : Int} : (Value.int a).same (.int b) = true ↔ a = b := by
  simp [Value.same, Scalar.same, Scalar.whole?]

@[simp] theorem bool_same {a b : Bool} : (Value.bool a).same (.bool b) = true ↔ a = b := by
  cases a <;> cases b <;> simp [Value.same, Scalar.same, Scalar.whole?]

@[simp] theorem optionalText_same {a b : Option String} :
    (optionalText a).same (optionalText b) = true ↔ a = b := by
  cases a <;> cases b <;> simp [optionalText, Value.same, Scalar.same, Scalar.whole?]

@[simp] theorem optionalWhole_same {a b : Option Int} :
    (optionalWhole a).same (optionalWhole b) = true ↔ a = b := by
  cases a <;> cases b <;> simp [optionalWhole, Value.same, Scalar.same, Scalar.whole?]

@[simp] theorem optionalMessage_same {a b : Option String} :
    (optionalMessage .str a).same (optionalMessage .str b) = true ↔ a = b := by
  cases a <;> cases b <;> simp [optionalMessage, Value.same, Scalar.same, Scalar.whole?]

section Lists

variable {α : Type} {f : α → Value}

/-- Whether the data of something tell it from all else. -/
def Tells (f : α → Value) (a : α) : Prop := ∀ b, (f a).same (f b) = true ↔ a = b

theorem Tells.list {as : List α} (h : ∀ a ∈ as, Tells f a) :
    Tells (fun as => .list (as.map f)) as := by
  intro bs
  dsimp only
  rw [Value.same]
  induction as generalizing bs with
  | nil => cases bs <;> simp [sameItems]
  | cons a as ih =>
    obtain ⟨ha, has⟩ := List.forall_mem_cons.mp h
    cases bs with
    | nil => simp [sameItems]
    | cons b bs =>
      rw [List.map_cons, List.map_cons, sameItems, Bool.and_eq_true, ha b, ih has bs,
        List.cons.injEq]

end Lists

@[simp] theorem textList_same {as bs : List String} :
    (textList as).same (textList bs) = true ↔ as = bs :=
  Tells.list (fun _ _ _ => str_same) bs

theorem listData_eq_map (vs : List (View String)) : listData .str vs = vs.map data := by
  induction vs with
  | nil => rfl
  | cons v rest ih => rw [listData, ih, List.map_cons, data]

theorem rowsData_eq_map (rows : List (List (View String))) :
    rowsData .str rows = rows.map fun r => .list (r.map data) := by
  induction rows with
  | nil => rfl
  | cons r rest ih => rw [rowsData, ih, List.map_cons, listData_eq_map]

/-! ## Kinds -/

/-- The first entry of a view's data names its kind. -/
theorem data_eq_settings : ∀ v : View String,
    ∃ rest, v.data = settings (("type", .str v.kind) :: rest)
  | .empty | .text _ | .button _ | .input _ | .checkbox _ | .radio _ | .select _ | .slider _
  | .progressBar _ | .navigationRail _ => ⟨_, rfl⟩
  | .row ⟨_, _, _, _⟩ | .column ⟨_, _, _, _⟩ => ⟨_, rfl⟩
  | .container ⟨_, _, _, _, _, _, _⟩ | .scrollable ⟨_, _, _, _⟩ => ⟨_, rfl⟩
  | .list ⟨_, _, _⟩ | .table ⟨_, _, _, _, _⟩ => ⟨_, rfl⟩
  | .tabs ⟨_, _, _, _, _, _⟩ | .accordion ⟨_, _, _, _⟩ | .sidebar ⟨_, _, _, _, _, _⟩ => ⟨_, rfl⟩

theorem kind_eq_of_same {v w : View String} (h : v.data.same w.data = true) : v.kind = w.kind := by
  obtain ⟨rest, hv⟩ := data_eq_settings v
  obtain ⟨rest', hw⟩ := data_eq_settings w
  rw [hv, hw, settings, settings, Value.same, List.map_cons, List.map_cons, sameEntries,
    Entries.find?, if_pos (by simp [Scalar.same])] at h
  simp only [Bool.and_eq_true] at h
  exact str_same.mp h.2.1

/-! ## Drawn views -/

/-- Whether a view and all within it are of the kinds that nodes are converted to. -/
inductive Drawn : View String → Prop where
  | empty : Drawn .empty
  | text (t : TextView) : Drawn (.text t)
  | button (b : Button String) : Drawn (.button b)
  | input (i : Input String) : Drawn (.input i)
  | checkbox (c : Checkbox String) : Drawn (.checkbox c)
  | radio (r : Radio String) : Drawn (.radio r)
  | select (s : Select String) : Drawn (.select s)
  | row {l : Layout String} : (∀ v ∈ l.children, v.Drawn) → Drawn (.row l)
  | column {l : Layout String} : (∀ v ∈ l.children, v.Drawn) → Drawn (.column l)
  | container {c : Container String} : c.child.Drawn → Drawn (.container c)
  | scrollable {s : Scrollable String} : s.child.Drawn → Drawn (.scrollable s)
  | list {l : Listing String} : (∀ v ∈ l.items, v.Drawn) → Drawn (.list l)
  | table {t : Table String} : (∀ v ∈ t.headers, v.Drawn) → (∀ row ∈ t.rows, ∀ v ∈ row, v.Drawn) →
      Drawn (.table t)

theorem same_iff_of_kind_ne {v w : View String} (h : v.kind ≠ w.kind) :
    v.data.same w.data = true ↔ v = w :=
  iff_of_false (fun hsame => h (kind_eq_of_same hsame)) fun he => h (he ▸ rfl)

theorem tells_listData {vs : List (View String)} (h : ∀ v ∈ vs, Tells data v) :
    Tells (fun vs => .list (listData .str vs)) vs := by
  intro ws
  simp only [listData_eq_map]
  exact Tells.list h ws

theorem tells_rowsData {rows : List (List (View String))}
    (h : ∀ row ∈ rows, ∀ v ∈ row, Tells data v) :
    Tells (fun rows => .list (rowsData .str rows)) rows := by
  intro rows'
  simp only [rowsData_eq_map]
  exact Tells.list (fun row hrow => Tells.list (h row hrow)) rows'

/-- **The data of a drawn view tell it from every other.** -/
theorem Drawn.tells {v : View String} : v.Drawn → Tells data v
  -- a view of another kind has another first entry; one of the same kind is compared entry by entry
  | .empty, w => by
    cases w with
    | empty => simp [data, toData, settings_same_iff]
    | _ => exact same_iff_of_kind_ne (by simp [kind])
  | .text ⟨content, style⟩, w => by
    cases w with
    | text other =>
      obtain ⟨content', style'⟩ := other
      simp [data, toData, settings_same_iff]
    | _ => exact same_iff_of_kind_ne (by simp [kind])
  | .button ⟨label, onclick, style⟩, w => by
    cases w with
    | button other =>
      obtain ⟨label', onclick', style'⟩ := other
      simp [data, toData, settings_same_iff]
    | _ => exact same_iff_of_kind_ne (by simp [kind])
  | .input ⟨placeholder, value, onChange, width, password, style⟩, w => by
    cases w with
    | input other =>
      obtain ⟨placeholder', value', onChange', width', password', style'⟩ := other
      simp [data, toData, settings_same_iff]
    | _ => exact same_iff_of_kind_ne (by simp [kind])
  | .checkbox ⟨checked, label, onToggle, style⟩, w => by
    cases w with
    | checkbox other =>
      obtain ⟨checked', label', onToggle', style'⟩ := other
      simp [data, toData, settings_same_iff]
    | _ => exact same_iff_of_kind_ne (by simp [kind])
  | .radio ⟨selected, label, onSelect, style⟩, w => by
    cases w with
    | radio other =>
      obtain ⟨selected', label', onSelect', style'⟩ := other
      simp [data, toData, settings_same_iff]
    | _ => exact same_iff_of_kind_ne (by simp [kind])
  | .select ⟨options, selected, onSelect, style⟩, w => by
    cases w with
    | select other =>
      obtain ⟨options', selected', onSelect', style'⟩ := other
      simp [data, toData, settings_same_iff]
    | _ => exact same_iff_of_kind_ne (by simp [kind])
  | .row (l := ⟨children, spacing, padding, style⟩) h, w => by
    cases w with
    | row other =>
      obtain ⟨children', spacing', padding', style'⟩ := other
      have hchildren := tells_listData (fun v hv => (h v hv).tells) children'
      simp [data, toData, settings_same_iff, hchildren]
    | _ => exact same_iff_of_kind_ne (by simp [kind])
  | .column (l := ⟨children, spacing, padding, style⟩) h, w => by
    cases w with
    | column other =>
      obtain ⟨children', spacing', padding', style'⟩ := other
      have hchildren := tells_listData (fun v hv => (h v hv).tells) children'
      simp [data, toData, settings_same_iff, hchildren]
    | _ => exact same_iff_of_kind_ne (by simp [kind])
  | .container (c := ⟨child, padding, width, height, centerX, centerY, style⟩) h, w => by
    cases w with
    | container other =>
      obtain ⟨child', padding', width', height', centerX', centerY', style'⟩ := other
      have hchild : (toData .str child).same (toData .str child') = true ↔ child = child' :=
        h.tells child'
      simp [data, toData, settings_same_iff, hchild]
    | _ => exact same_iff_of_kind_ne (by simp [kind])
  | .scrollable (s := ⟨child, width, height, style⟩) h, w => by
    cases w with
    | scrollable other =>
      obtain ⟨child', width', height', style'⟩ := other
      have hchild : (toData .str child).same (toData .str child') = true ↔ child = child' :=
        h.tells child'
      simp [data, toData, settings_same_iff, hchild]
    | _ => exact same_iff_of_kind_ne (by simp [kind])
  | .list (l := ⟨items, spacing, style⟩) h, w => by
    cases w with
    | list other =>
      obtain ⟨items', spacing', style'⟩ := other
      have hitems := tells_listData (fun v hv => (h v hv).tells) items'
      simp [data, toData, settings_same_iff, hitems]
    | _ => exact same_iff_of_kind_ne (by simp [kind])
  | .table (t := ⟨headers, rows, spacing, colSpacing, style⟩) h h', w => by
    cases w with
    | table other =>
      obtain ⟨headers', rows', spacing', colSpacing', style'⟩ := other
      have hheaders := tells_listData (fun v hv => (h v hv).tells) headers'
      have hrows := tells_rowsData (fun row hrow v hv => (h' row hrow v hv).tells) rows'
      simp [data, toData, settings_same_iff, hheaders, hrows]
    | _ => exact same_iff_of_kind_ne (by simp [kind])

end View

/-! ## Views of nodes -/

/-- Whether a conversion, if it gives anything, gives something of a kind. -/
def Gives {α : Type} (P : α → Prop) (r : Except ConversionFault α) : Prop := ∀ a, r = .ok a → P a

namespace Gives

variable {α β : Type} {P : α → Prop} {Q : β → Prop}

theorem pure {a : α} (h : P a) : Gives P (Pure.pure a) := by
  rintro _ ⟨⟩
  exact h

theorem bind {r : Except ConversionFault α} {f : α → Except ConversionFault β} (h : Gives P r)
    (hf : ∀ a, P a → Gives Q (f a)) : Gives Q (r >>= f) := by
  intro b hb
  obtain ⟨a, ha, hb⟩ := bind_eq_ok.mp hb
  exact hf a (h a ha) b hb

/-- What a step gives does not matter if all that follows from it is of the kind. -/
theorem behind {r : Except ConversionFault α} {f : α → Except ConversionFault β}
    (hf : ∀ a, Gives Q (f a)) : Gives Q (r >>= f) :=
  bind (P := fun _ => True) (fun _ _ => trivial) fun a _ => hf a

theorem refuse {kind : Value} {cause : ConversionCause} : Gives P (refuse kind cause) :=
  fun _ h => absurd h refuse_ne_ok

end Gives

namespace Node

variable {n : Node}

theorem textView_drawn : Gives View.Drawn n.textView :=
  .behind fun _ => .behind fun _ => .pure (.text _)

theorem buttonView_drawn : Gives View.Drawn n.buttonView :=
  .behind fun _ => .behind fun _ => .behind fun _ => .pure (.button _)

theorem inputView_drawn : Gives View.Drawn n.inputView :=
  .behind fun _ => .behind fun _ => .behind fun _ => .behind fun _ => .behind fun _ =>
    .behind fun _ => .pure (.input _)

theorem checkboxView_drawn : Gives View.Drawn n.checkboxView :=
  .behind fun _ => .behind fun _ => .behind fun _ => .behind fun _ => .pure (.checkbox _)

theorem radioView_drawn : Gives View.Drawn n.radioView :=
  .behind fun _ => .behind fun _ => .behind fun _ => .behind fun _ => .pure (.radio _)

theorem selectView_drawn : Gives View.Drawn n.selectView :=
  .behind fun _ => .behind fun _ => .behind fun _ => .behind fun _ => .pure (.select _)

end Node

section

variable {o : ConversionOptions}

mutual

theorem convert_drawn : ∀ (n : Node) (depth : Nat), Gives View.Drawn (convert o depth n)
  | .mk kind args props children, depth => by
    have hfirst := convertFirst_drawn children depth
    have heach := convertEach_drawn children depth
    rw [convert]
    split
    · exact .refuse
    -- of all that is read only the views of the children matter
    refine .behind fun e? => ?_
    cases e? with
    | none =>
      cases o.policy with
      | permissive => exact .pure .empty
      | strict => exact .refuse
    | some e =>
      cases e with
      | text => exact Node.textView_drawn
      | button => exact Node.buttonView_drawn
      | input => exact Node.inputView_drawn
      | checkbox => exact Node.checkboxView_drawn
      | radio => exact Node.radioView_drawn
      | select => exact Node.selectView_drawn
      | center => exact hfirst.bind fun child hchild => .pure (.container hchild)
      | column =>
        exact .behind fun _ => .behind fun _ => .behind fun _ =>
          heach.bind fun views hviews => .pure (.column hviews)
      | row =>
        exact .behind fun _ => .behind fun _ => .behind fun _ =>
          heach.bind fun views hviews => .pure (.row hviews)
      | container =>
        exact hfirst.bind fun child hchild => .behind fun _ => .behind fun _ => .behind fun _ =>
          .behind fun _ => .behind fun _ => .behind fun _ => .pure (.container hchild)
      | scrollable =>
        exact hfirst.bind fun child hchild => .behind fun _ => .behind fun _ => .behind fun _ =>
          .pure (.scrollable hchild)
      | list =>
        exact heach.bind fun views hviews => .behind fun _ => .behind fun _ => .pure (.list hviews)
      | table =>
        exact (convertHeaders_drawn children depth).bind fun headers hheaders =>
          (convertRows_drawn children depth).bind fun rows hrows => .behind fun _ =>
            .behind fun _ => .behind fun _ => .pure (.table hheaders hrows)

theorem convertEach_drawn : ∀ (ns : List Node) (depth : Nat),
    Gives (fun vs => ∀ v ∈ vs, View.Drawn v) (convertEach o depth ns)
  | [], depth => .pure (by exact nofun)
  | n :: rest, depth => by
    rw [convertEach]
    exact (convert_drawn n _).bind fun v hv => (convertEach_drawn rest depth).bind fun vs hvs =>
      .pure (List.forall_mem_cons.mpr ⟨hv, hvs⟩)

theorem convertFirst_drawn : ∀ (ns : List Node) (depth : Nat),
    Gives View.Drawn (convertFirst o depth ns)
  | [], _ => .pure .empty
  | n :: _, _ => convert_drawn n _

theorem convertHeaders_drawn : ∀ (ns : List Node) (depth : Nat),
    Gives (fun vs => ∀ v ∈ vs, View.Drawn v) (convertHeaders o depth ns)
  | [], depth => .pure (by exact nofun)
  | .mk kind args props children :: rest, depth => by
    have hrest := convertHeaders_drawn rest depth
    by_cases hkind : kind.same (.str "header")
    · cases children with
      | nil =>
        rw [convertHeaders, if_pos hkind]
        exact Node.textView_drawn.bind fun v hv => hrest.bind fun vs hvs =>
          .pure (List.forall_mem_cons.mpr ⟨hv, hvs⟩)
      | cons n others =>
        rw [convertHeaders, if_pos hkind]
        exact (convert_drawn n _).bind fun v hv => hrest.bind fun vs hvs =>
          .pure (List.forall_mem_cons.mpr ⟨hv, hvs⟩)
    · rw [convertHeaders, if_neg hkind]
      exact hrest

theorem convertRows_drawn : ∀ (ns : List Node) (depth : Nat),
    Gives (fun rows => ∀ row ∈ rows, ∀ v ∈ row, View.Drawn v) (convertRows o depth ns)
  | [], depth => .pure (by exact nofun)
  | .mk kind _ _ children :: rest, depth => by
    have hrest := convertRows_drawn rest depth
    rw [convertRows]
    split
    · exact (convertEach_drawn children _).bind fun row hrow => hrest.bind fun rows hrows =>
        .pure (List.forall_mem_cons.mpr ⟨hrow, hrows⟩)
    · exact hrest

end

end

/-- **A view of nodes is known by its data.** No other view has equal data, wherever that one comes
from. -/
theorem Node.toView_data {n : Node} {o : ConversionOptions} {v : View String}
    (h : n.toView o = .ok v) (w : View String) : v.data.same w.data = true ↔ v = w :=
  (convert_drawn n 1 v h).tells w

/-- A table, and what it stands in. -/
def grid (kind : String) (props : List (Key × Value)) : Node :=
  .named kind [] props [.named "table" [] [(.str "spacing", .int 1)] [
    .named "header" [.str "Number"] [] [],
    .named "row" [] [] [
      .named "text" [.int 1] [] [],
      .named "button" [.str "+"] [(.str "onclick", .str "Grid.Add")] []]]]

def bothWays : List (Key × Value) := [(.str "center_y", .bool true), (.str "center_x", .bool true)]

/-- What is centred is a container that centres both ways, and their data say so. -/
theorem grid_data : ∃ v w, (grid "center" []).toView {} = .ok v ∧
    (grid "container" bothWays).toView {} = .ok w ∧ v.data.same w.data = true ∧ v = w := by
  have hruns : ((grid "center" []).toView {}).isOk = true := by decide +kernel
  obtain ⟨v, hv⟩ := exists_of_isOk hruns
  have hruns' : ((grid "container" bothWays).toView {}).isOk = true := by decide +kernel
  obtain ⟨w, hw⟩ := exists_of_isOk hruns'
  have hsame : (((grid "center" []).toView {}).toOption.bind fun v =>
      ((grid "container" bothWays).toView {}).toOption.map fun w =>
        v.data.same w.data) = some true := by decide +kernel
  rw [hv, hw] at hsame
  have hdata : v.data.same w.data = true := Option.some.inj hsame
  exact ⟨v, w, hv, hw, hdata, (Node.toView_data hv w).mp hdata⟩

end Widgetry
