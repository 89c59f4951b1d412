import Widgetry.Proofs.Generation.Variants
import Widgetry.Proofs.Generation.Wholeness
import Mathlib.Data.List.Forall2
import Mathlib.Data.List.Sort

/-!
# What a unit is put together from

All components of a unit are written into one sink, and yet none of them depends on the others.

> `ofCode_eq_ok_iff`: a unit is generated exactly if each of its components is, and then holds what
> each of these leaves in a sink of its own, with the lines that import what any of them imports.

`Sink.Adds` says what an operation does to every sink, whatever that holds and however far in it is:
the lines that come to the body, the paths that come to the imports, and that all else is kept.
-/

namespace Widgetry

/-! ## Imports -/

theorem Text.sortedSet_sorted (texts : List String) : (sortedSet texts).Pairwise (· < ·) := by
  have hfold : ∀ set : List String, set.Pairwise (· < ·) →
      (texts.foldl (fun set s => insertSorted s set) set).Pairwise (· < ·) := by
    induction texts with
    | nil => exact fun _ h => h
    | cons s rest ih => exact fun _ h => ih _ (insertSorted_sorted h)
  exact hfold [] .nil

/-- Sorted texts with the same members are the same. -/
theorem Text.sortedSet_congr {texts texts' : List String} (h : ∀ t, t ∈ texts ↔ t ∈ texts') :
    sortedSet texts = sortedSet texts' := by
  refine (sortedSet_sorted texts).eq_of_mem_iff (sortedSet_sorted texts') fun t => ?_
  rw [mem_sortedSet, mem_sortedSet, h]

namespace Import

/-- The order of the paths, and how often each stands there, does not matter. -/
theorem lines_congr {paths paths' : List String} (h : ∀ p, p ∈ paths ↔ p ∈ paths') :
    lines paths = lines paths' := by
  have himports : ∀ i, i ∈ paths.map ofPath ↔ i ∈ paths'.map ofPath := by
    intro i
    rw [List.mem_map, List.mem_map]
    exact exists_congr fun p => and_congr_left' (h p)
  have hany : ∀ f : Import → Bool, (paths.map ofPath).any f = (paths'.map ofPath).any f := by
    intro f
    rw [Bool.eq_iff_iff, List.any_eq_true, List.any_eq_true]
    exact exists_congr fun i => and_congr_left' (himports i)
  have hsources : Text.sortedSet ((paths.map ofPath).map (·.source))
      = Text.sortedSet ((paths'.map ofPath).map (·.source)) := by
    refine Text.sortedSet_congr fun s => ?_
    rw [List.mem_map, List.mem_map]
    exact exists_congr fun i => and_congr_left' (himports i)
  have hnames : ∀ source, namesFrom (paths.map ofPath) source
      = namesFrom (paths'.map ofPath) source := by
    intro source
    refine Text.sortedSet_congr fun n => ?_
    rw [List.mem_filterMap, List.mem_filterMap]
    exact exists_congr fun i => and_congr_left' (himports i)
  have hlines : linesOf (paths.map ofPath) = linesOf (paths'.map ofPath) := by
    funext source
    unfold linesOf
    rw [hnames, hany, hany]
  unfold lines
  dsimp only
  rw [hsources, hlines]

theorem lines_ne_nil {paths : List String} {p : String} (h : p ∈ paths) : lines paths ≠ [] := by
  have hi : ofPath p ∈ paths.map ofPath := List.mem_map_of_mem h
  have hsource : (ofPath p).source ∈ Text.sortedSet ((paths.map ofPath).map (·.source)) :=
    Text.mem_sortedSet.mpr (List.mem_map_of_mem hi)
  have hline : linesOf (paths.map ofPath) (ofPath p).source ≠ [] := by
    unfold linesOf
    dsimp only
    cases hname : (ofPath p).name with
    | none =>
      have hwhole : (paths.map ofPath).any
          (fun i => i.source = (ofPath p).source ∧ i.name.isNone) = true :=
        List.any_eq_true.mpr ⟨_, hi, by simp [hname]⟩
      rw [if_pos hwhole]
      exact List.append_ne_nil_of_right_ne_nil _ (List.cons_ne_nil _ _)
    | some n =>
      have hnamed : (paths.map ofPath).any
          (fun i => i.source = (ofPath p).source ∧ i.name.isSome) = true :=
        List.any_eq_true.mpr ⟨_, hi, by simp [hname]⟩
      rw [if_pos hnamed]
      exact List.append_ne_nil_of_left_ne_nil (List.cons_ne_nil _ _) _
  intro hnil
  exact hline (List.flatMap_eq_nil_iff.mp hnil _ hsource)

end Import

/-! ## What an operation adds to a sink -/

namespace Sink

/-- Lines as they are written into a sink. -/
def rendered (s : Sink) (ls : List Line) : List String :=
  ls.map fun l => { l with level := s.level + l.level }.render s.indentWidth

theorem rendered_append (s : Sink) (ls ms : List Line) :
    s.rendered (ls ++ ms) = s.rendered ls ++ s.rendered ms := List.map_append

/-- A line that is no further in than the margin. -/
theorem render_at0 (width : Int) (text : String) : (Line.at0 text).render width = text := by
  unfold Line.render Line.at0
  split
  · next hempty => exact hempty.symm
  · apply String.toList_injective
    simp

/-- Whether an operation adds lines and imports to every sink, and does nothing else to it. -/
structure Adds (f : Sink → Sink) (ls : List Line) (paths : List String) : Prop where
  body : ∀ s, (f s).body = s.body ++ s.rendered ls
  imports : ∀ s p, p ∈ (f s).imports ↔ p ∈ paths ∨ p ∈ s.imports
  level : ∀ s, (f s).level = s.level
  indentWidth : ∀ s, (f s).indentWidth = s.indentWidth
  header : ∀ s, (f s).header = s.header

variable {f g : Sink → Sink} {ls ms : List Line} {paths paths' : List String} {s : Sink}

theorem Adds.rendered (h : Adds f ls paths) (s : Sink) (ms : List Line) :
    (f s).rendered ms = s.rendered ms := by
  rw [Sink.rendered, Sink.rendered, h.level, h.indentWidth]

theorem adds_nothing : Adds id [] [] where
  body s := (List.append_nil s.body).symm
  imports _ _ := (or_iff_right List.not_mem_nil).symm
  level _ := rfl
  indentWidth _ := rfl
  header _ := rfl

/-- One operation after another. -/
theorem Adds.andThen (hf : Adds f ls paths) (hg : Adds g ms paths') :
    Adds (fun s => g (f s)) (ls ++ ms) (paths ++ paths') where
  body s := by
    rw [hg.body, hf.body, hf.rendered, List.append_assoc, rendered_append]
  imports s p := by
    rw [hg.imports, hf.imports, List.mem_append]
    exact or_left_comm.trans or_assoc.symm
  level s := (hg.level _).trans (hf.level s)
  indentWidth s := (hg.indentWidth _).trans (hf.indentWidth s)
  header s := (hg.header _).trans (hf.header s)

theorem adds_put (l : Line) : Adds (·.put l) [l] [] where
  body _ := rfl
  imports _ _ := (or_iff_right List.not_mem_nil).symm
  level _ := rfl
  indentWidth _ := rfl
  header _ := rfl

theorem adds_addImport (path : String) : Adds (·.addImport path) [] [path] where
  body s := (List.append_nil s.body).symm
  imports s p := by
    rw [List.mem_singleton]
    exact Text.mem_insertSorted
  level _ := rfl
  indentWidth _ := rfl
  header _ := rfl

/-- A run of operations, each of which adds what belongs to it. -/
theorem adds_foldl {α : Type} {op : Sink → α → Sink} {lines : α → List Line}
    {imports : α → List String} (h : ∀ a, Adds (op · a) (lines a) (imports a)) :
    ∀ as : List α, Adds (as.foldl op ·) (as.flatMap lines) (as.flatMap imports)
  | [] => adds_nothing
  | a :: as => (h a).andThen (adds_foldl h as)

theorem adds_putAll (ls : List Line) : Adds (·.putAll ls) ls [] := by
  have hall := adds_foldl adds_put ls
  have hnone : ls.flatMap (fun _ => ([] : List String)) = [] :=
    List.flatMap_eq_nil_iff.mpr fun _ _ => rfl
  rwa [List.flatMap_singleton', hnone] at hall

theorem adds_addImports (paths : List String) : Adds (paths.foldl addImport ·) [] paths := by
  have hall := adds_foldl adds_addImport paths
  have hnone : paths.flatMap (fun _ => ([] : List Line)) = [] :=
    List.flatMap_eq_nil_iff.mpr fun _ _ => rfl
  rwa [List.flatMap_singleton', hnone] at hall

theorem adds_addComponent (c : Component) : Adds (·.addComponent c) c.lines c.imports := by
  have hboth := (adds_addImports c.imports).andThen (adds_putAll c.lines)
  rwa [List.append_nil] at hboth

/-- Adds a component with two empty lines behind it. -/
def place (s : Sink) (c : Component) : Sink := (s.addComponent c).putAll [.blank, .blank]

theorem adds_place (c : Component) :
    Adds (place · c) (c.lines ++ [.blank, .blank]) c.imports := by
  have hboth := (adds_addComponent c).andThen (adds_putAll [.blank, .blank])
  rwa [List.append_nil] at hboth

/-- A sink with nothing but a component in it. -/
def alone (width : Int) (c : Component) : Sink := ({ indentWidth := width } : Sink).addComponent c

/-- In a sink of its own a component leaves the lines that it adds to any other. -/
theorem alone_body (width : Int) (c : Component) :
    (alone width c).body = ({ indentWidth := width } : Sink).rendered c.lines :=
  ((adds_addComponent c).body _).trans (List.nil_append _)

theorem mem_alone_imports {width : Int} {c : Component} {p : String} :
    p ∈ (alone width c).imports ↔ p ∈ c.imports :=
  ((adds_addComponent c).imports _ p).trans (or_iff_left List.not_mem_nil)

/-- All components in one sink leave what each leaves in its own. -/
theorem placed_body (width : Int) (top : List String) (cs : List Component) :
    (cs.foldl place { indentWidth := width, header := top }).body
      = (cs.map (alone width)).flatMap fun s => s.body ++ ["", ""] := by
  rw [(adds_foldl adds_place cs).body, List.nil_append, List.flatMap_map]
  unfold rendered
  rw [List.map_flatMap]
  refine congrArg (cs.flatMap ·) (funext fun c => ?_)
  rw [alone_body, List.map_append]
  rfl

theorem mem_placed_imports {width : Int} {top : List String} {cs : List Component} {p : String} :
    p ∈ (cs.foldl place { indentWidth := width, header := top }).imports ↔
      p ∈ (cs.map (alone width)).flatMap (·.imports) := by
  rw [(adds_foldl adds_place cs).imports, or_iff_left List.not_mem_nil, List.flatMap_map,
    List.mem_flatMap, List.mem_flatMap]
  exact exists_congr fun c => and_congr_right' mem_alone_imports.symm

theorem trimmed_ne_nil {body : List String} {l : String} (hl : l ∈ body) (hne : l ≠ "") :
    trimmed body ≠ [] := by
  have hkept : ∀ {ls : List String}, l ∈ ls → l ∈ ls.dropWhile (· == "") := by
    intro ls hmem
    rw [← List.takeWhile_append_dropWhile (p := (· == "")) (l := ls), List.mem_append] at hmem
    obtain hmem | hmem := hmem
    · have hempty := List.all_eq_true.mp List.all_takeWhile _ hmem
      exact absurd (beq_iff_eq.mp hempty) hne
    · exact hmem
  intro hnil
  have hmem : l ∈ trimmed body := List.mem_reverse.mpr (hkept (List.mem_reverse.mpr (hkept hl)))
  rw [hnil] at hmem
  cases hmem

/-- The text of a sink in which there is something of each kind. -/
theorem text_eq (hheader : s.header ≠ []) (himports : Import.lines s.imports ≠ [])
    (hbody : trimmed s.body ≠ []) :
    s.text = "\n".intercalate (s.header ++ "" :: Import.lines s.imports ++
      "" :: "" :: trimmed s.body) ++ "\n" := by
  have htop : s.topLines = s.header ++ "" :: Import.lines s.imports := by
    rw [topLines, if_neg (by rwa [List.isEmpty_iff]), if_neg (by rwa [List.isEmpty_iff])]
    rfl
  have hall : s.allLines = s.topLines ++ "" :: "" :: trimmed s.body := by
    rw [allLines, if_neg (by rwa [List.isEmpty_iff]),
      if_neg (by rw [List.isEmpty_iff]; exact topLines_ne_nil hheader)]
  rw [← htop, ← hall]
  rfl

end Sink

/-! ## Units -/

namespace Generation

theorem component_lines {w : Widget} {types : TypeMap} {messages : String} {c : Component}
    (h : w.component types messages = .ok c) :
    ∃ rest, c.lines = .at0 ("class " ++ messages ++ "(Enum):") :: rest := by
  obtain ⟨_, _, -, -, -, -, rfl⟩ := Widget.component_parts h
  exact ⟨_, rfl⟩

/-- The components of some widgets, each by itself. -/
def Components (o : GenerationOptions) (messages : Widget → String) :
    List Widget → List Component → Prop :=
  List.Forall₂ fun w c => w.component o.types (messages w) = .ok c

/-- The messages of some widgets, each with its component, in the order of their names. -/
def variantsOf (ws : List Widget) (cs : List Component) (table : List (String × List String)) :
    List (String × List String) :=
  (ws.zip cs).foldl (fun table p => putVariants p.1.name p.2.variants table) table

variable {o : GenerationOptions} {messages : Widget → String}

theorem widgetsOf_eq_ok_iff {file : Option String} : ∀ {decls : List TypeDecl} {ws : List Widget},
    widgetsOf o file decls = .ok ws ↔
      List.Forall₂ (fun d w => Widget.ofType d o.policy file = .ok w) decls ws
  | [], ws => by
    constructor
    · intro h
      cases h
      exact .nil
    · intro h
      cases h
      rfl
  | d :: rest, ws => by
    constructor
    · intro h
      obtain ⟨w, hw, h⟩ := bind_eq_ok.mp h
      obtain ⟨ws', hws, h⟩ := bind_eq_ok.mp h
      cases h
      exact .cons hw (widgetsOf_eq_ok_iff.mp hws)
    · intro h
      cases h with
      | cons hw hws =>
        exact bind_eq_ok.mpr ⟨_, hw, bind_eq_ok.mpr ⟨_, widgetsOf_eq_ok_iff.mpr hws, rfl⟩⟩

theorem emitAll_eq_ok_iff : ∀ {ws : List Widget} {s : Sink} {table : List (String × List String)}
    {r : Sink × List (String × List String)},
    emitAll o messages ws s table = .ok r ↔
      ∃ cs, Components o messages ws cs ∧ r = (cs.foldl Sink.place s, variantsOf ws cs table)
  | [], s, table, r => by
    constructor
    · intro h
      cases h
      exact ⟨[], .nil, rfl⟩
    · rintro ⟨cs, hcs, rfl⟩
      cases hcs
      rfl
  | w :: rest, s, table, r => by
    constructor
    · intro h
      obtain ⟨c, hc, h⟩ := bind_eq_ok.mp h
      obtain ⟨cs, hcs, rfl⟩ := emitAll_eq_ok_iff.mp h
      exact ⟨c :: cs, .cons hc hcs, rfl⟩
    · rintro ⟨cs, hcs, rfl⟩
      cases hcs with
      | cons hc hcs => exact bind_eq_ok.mpr ⟨_, hc, emitAll_eq_ok_iff.mpr ⟨_, hcs, rfl⟩⟩

/-- With all components in it, a sink has something of each kind. -/
theorem placed_text {ws : List Widget} {cs : List Component} (hcs : Components o messages ws cs)
    (hne : ws ≠ []) {top : List String} (htop : top ≠ []) :
    (cs.foldl Sink.place { indentWidth := o.indentWidth, header := top }).text
      = "\n".intercalate (top ++
          "" :: Import.lines ((cs.map (Sink.alone o.indentWidth)).flatMap (·.imports)) ++
          "" :: "" :: Sink.trimmed
            ((cs.map (Sink.alone o.indentWidth)).flatMap fun s => s.body ++ ["", ""])) ++ "\n" := by
  have hheader := (Sink.adds_foldl Sink.adds_place cs).header
    { indentWidth := o.indentWidth, header := top }
  have himports : Import.lines (cs.foldl Sink.place
      { indentWidth := o.indentWidth, header := top }).imports
      = Import.lines ((cs.map (Sink.alone o.indentWidth)).flatMap (·.imports)) :=
    Import.lines_congr fun _ => Sink.mem_placed_imports
  rw [← Sink.placed_body o.indentWidth top cs, ← himports]
  cases hcs with
  | nil => exact absurd rfl hne
  | @cons w c _ cs hc hcs =>
    obtain ⟨rest, hrest⟩ := component_lines hc
    have hpath : "enum.Enum" ∈ c.imports := by
      rw [component_imports hc, Widget.importsFor]
      split <;> simp [Widget.commonImports]
    rw [Sink.text_eq, hheader]
    · rwa [hheader]
    · refine Import.lines_ne_nil (p := "enum.Enum") (Sink.mem_placed_imports.mpr ?_)
      rw [List.map_cons, List.flatMap_cons]
      exact List.mem_append_left _ (Sink.mem_alone_imports.mpr hpath)
    · refine Sink.trimmed_ne_nil (l := "class " ++ messages w ++ "(Enum):") ?_ ?_
      · rw [Sink.placed_body, List.map_cons, List.flatMap_cons, Sink.alone_body, hrest]
        refine List.mem_append_left _ (List.mem_append_left _ (List.mem_map.mpr ?_))
        exact ⟨_, List.mem_cons_self, Sink.render_at0 _ _⟩
      · intro he
        have hlength := congrArg String.length he
        simp at hlength

end Generation

end Widgetry
