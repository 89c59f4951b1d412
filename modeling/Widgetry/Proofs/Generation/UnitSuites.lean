import Widgetry.Proofs.Generation.Classes
import Widgetry.Proofs.Generation.Suites

/-!
# The blocks of a generated unit

Everything that is generated for a widget stands in blocks: its two classes, its methods, and what
its handlers and methods choose and repeat. They are read here off the text of the unit, line by
line, with the blanks in front of a line for its level.

> `unit_blocks_filled_iff`: each line that opens a block is followed by a line of code that stands
> one step further in, exactly if every choice in the generated statements has an arm.

A choice without arms is generated all the same (`armless_choice_unfilled`).
-/

namespace Widgetry

open Lexical

/-! ## Lines of a text -/

namespace Line

/-- The line that some characters are, with the blanks in front for its level. -/
def ofChars (cs : List Char) : Line :=
  ⟨(cs.takeWhile (· == ' ')).length, String.ofList (cs.dropWhile (· == ' '))⟩

/-- What some characters are as a line of code. -/
def code? (cs : List Char) : Option Line := (some (ofChars cs)).filter isCode

/-- A line as far in as it is written, with so many blanks for each level. -/
def scaled (width : Nat) (l : Line) : Line := { l with level := l.level * width }

/-- A written line is read as it is. -/
theorem code?_render {l : Line} (hspace : l.text.toList.head? ≠ some ' ') (width : Nat) :
    code? (l.render width).toList = (some (l.scaled width)).filter isCode := by
  unfold render
  split
  · next hempty =>
    have hscaled : (l.scaled width).isCode = false := by
      show l.text.toList.head?.any (· != '#') = false
      rw [hempty]
      rfl
    rw [Option.filter_some, hscaled]
    rfl
  · have htake : l.text.toList.takeWhile (· == ' ') = [] := by
      cases hcs : l.text.toList with
      | nil => rfl
      | cons c cs =>
        rw [hcs] at hspace
        exact List.takeWhile_cons_of_neg fun hc => hspace (congrArg some (beq_iff_eq.mp hc))
    have hdrop : l.text.toList.dropWhile (· == ' ') = l.text.toList := by
      conv_rhs => rw [← List.takeWhile_append_dropWhile (p := (· == ' ')) (l := l.text.toList)]
      rw [htake, List.nil_append]
    have hblanks : ∀ c ∈ List.replicate (l.level * width) ' ', (c == ' ') = true :=
      fun c hc => beq_iff_eq.mpr (List.eq_of_mem_replicate hc)
    rw [code?, ofChars, String.toList_append, String.toList_ofList,
      show ((l.level : Int) * (width : Int)).toNat = l.level * width from rfl,
      List.takeWhile_append_of_pos hblanks, List.dropWhile_append_of_pos hblanks, htake, hdrop,
      List.append_nil, List.length_replicate, String.ofList_toList]
    rfl

end Line

theorem filled_scaled {width : Nat} (hwidth : 1 ≤ width) (ls : List Line) :
    filled width (ls.map (Line.scaled width)) = filled 1 ls := by
  induction ls with
  | nil => rfl
  | cons l rest ih =>
    have hhead : (rest.map (Line.scaled width)).head?.any (·.level == l.level * width + width)
        = rest.head?.any (·.level == l.level + 1) := by
      cases rest with
      | nil => rfl
      | cons m rest =>
        show (m.level * width == l.level * width + width) = (m.level == l.level + 1)
        rw [Bool.eq_iff_iff, beq_iff_eq, beq_iff_eq, ← Nat.succ_mul,
          Nat.mul_left_inj (Nat.one_le_iff_ne_zero.mp hwidth)]
    show ((!l.opens || (rest.map (Line.scaled width)).head?.any
      (·.level == l.level * width + width)) && filled width (rest.map (Line.scaled width))) = _
    rw [hhead, ih]
    rfl

/-! ## Components -/

namespace Widget

/-- Whether every choice in the statements that are generated for a widget has an arm. -/
def armed (w : Widget) : Bool :=
  (w.helpers.all fun fn => Stmt.bodyArmed fn.body) &&
    (w.handled w.drawnVariants).all Stmt.bodyArmed

theorem pass_body : Body true [.at0 "pass"] := .line ⟨rfl, rfl⟩

/-- A line with a word in front of what it says. -/
theorem plain_line {before behind : String} (hbefore : Begins before) (hbehind : Ends behind) :
    Plain (before ++ behind) :=
  Begins.plain (hbefore.append behind) (hbehind.behind before)

theorem enumLines_body (messages : String) {variants : List String}
    (hvs : ∀ v ∈ variants, Text.isIdentifier v = true) :
    Body true (enumLines messages variants) := by
  have hhead : Header ("class " ++ messages ++ "(Enum):") :=
    ((leads_fixed rfl).append messages).header rfl
  refine Body.below ?_ hhead
  cases variants with
  | nil => exact pass_body
  | cons v rest =>
    exact body_map fun v hv =>
      plain_line ((begins_identifier (hvs v hv)).append _) (quoted_edges v).2

/-- The line of a field is no header, whatever its hint: its first word has a colon. -/
theorem field_plain {name : String} (hname : Named name) (hint : String) :
    Plain (name ++ ": " ++ hint) := by
  have hword : (name ++ ": ").toList.takeWhile (· != ' ') = name.toList ++ [':'] := by
    have hblank : ∀ c ∈ name.toList, (c != ' ') = true :=
      fun c hc => bne_iff_ne.mpr (apart_of_nameChar (hname c hc)).1
    rw [String.toList_append, List.takeWhile_append_of_pos hblank]
    rfl
  refine Begins.plain_append (Begins.named hname (first_fixed rfl)) ?_ ?_ hint
  · rw [String.toList_append]
    exact List.mem_append_right _ (by decide)
  · have hall : Line.headerWords.all (!·.contains ':') = true := by decide +kernel
    refine Bool.eq_false_iff.mpr fun hmem => ?_
    rw [hword] at hmem
    have hcolon := List.all_eq_true.mp hall _ (List.contains_iff_mem.mp hmem)
    rw [Bool.not_eq_true', ← Bool.not_eq_true, List.contains_iff_mem] at hcolon
    exact hcolon (List.mem_append_right _ List.mem_cons_self)

variable {hints : List (String × String)}

theorem fieldLines_placed (h : ∀ a ∈ hints, Named a.1) : Placed true (fieldLines hints) := by
  cases hints with
  | nil => exact .nil
  | cons a rest => exact (body_map fun a ha => field_plain (h a ha) a.2).toPlaced.append .blank

theorem constructorLines_body (h : ∀ a ∈ hints, Named a.1) :
    Body true (constructorLines hints) := by
  have hhead : Header ("def __init__(self" ++
      String.join (hints.map fun a => ", " ++ a.1 ++ ": " ++ a.2) ++ ") -> None:") :=
    ((leads_fixed rfl).append _).header rfl
  refine Body.below ?_ hhead
  cases hints with
  | nil => exact pass_body
  | cons a rest =>
    refine body_map fun a ha => ?_
    have hfront : Begins ("self." ++ a.1 ++ " = ") := ((first_fixed rfl).append _).append _
    exact Begins.plain (hfront.append a.1) (((ends_fixed rfl).behind _).named (h a ha))

theorem defaultLines_body (name : String) (literals : List String) :
    Body true (defaultLines name literals) := by
  have hhead : Header ("def default(cls) -> \"" ++ name ++ "\":") :=
    ((leads_fixed rfl).append name).header rfl
  have hcall : Plain ("return cls(" ++ commaSeparated literals ++ ")") :=
    plain_line ((first_fixed rfl).append _) rfl
  have hmethod : Body true [.at0 "@classmethod"] := .line ⟨rfl, rfl⟩
  exact hmethod.append ((Body.line hcall).below hhead).toPlaced

variable {g : Naming} {w : Widget}

theorem helperBody_body (hg : Named g.messages) : ∀ (ss : List Stmt) (locals : List String),
    WordedBody ss → Body (Stmt.bodyArmed ss) (helperBody g locals ss)
  | [], _, _ => pass_body
  | [s], locals, h => by
    have hs := h s List.mem_cons_self
    rw [Stmt.bodyArmed, Stmt.bodyArmed, Bool.and_true]
    cases s with
    | expr e l =>
      cases hs with
      | expr he => exact .line (plain_line (first_fixed rfl) (e.source_edges locals hg he).2)
    | _ => exact Stmt.lines_body hg _ locals hs
  | s :: s' :: rest, locals, h => by
    have hrest := helperBody_body hg (s' :: rest) (s.localsAfter locals)
      fun s hs => h s (List.mem_cons_of_mem _ hs)
    rw [helperBody_cons]
    exact (Stmt.lines_body hg s locals (h s List.mem_cons_self)).append hrest.toPlaced

theorem helpersLines_placed (hg : Named g.messages) {helpers : List FnDecl}
    (h : ∀ fn ∈ helpers, WordedBody fn.body) :
    Placed (helpers.all fun fn => Stmt.bodyArmed fn.body) (helpersLines g helpers) := by
  refine placed_flatMap fun fn hfn => ?_
  have hhead : Header ("def " ++ fn.name ++ "(self" ++
      String.join (fn.paramNames.map (", " ++ ·)) ++ "):") :=
    ((((leads_fixed rfl).append _).append _).append _).header rfl
  have hbody := (helperBody_body hg fn.body (Text.sortedSet fn.paramNames) (h fn hfn)).below hhead
  have hfn' := hbody.toPlaced.append .blank
  rwa [Bool.and_true] at hfn'

/-- There is a case for each thing that is handled. -/
theorem cases_body (hg : Named g.messages) (locals : List String)
    {c : String × List Stmt} {rest : List (String × List Stmt)}
    (h : ∀ d ∈ c :: rest, WordedBody d.2) :
    Body (((c :: rest).map (·.2)).all Stmt.bodyArmed)
      ((c :: rest).flatMap (caseLines g locals)) := by
  have hcase : ∀ d ∈ c :: rest, Body (Stmt.bodyArmed d.2) (caseLines g locals d) := fun d hd =>
    (Stmt.blockLines_body hg d.2 locals (h d hd)).below (Stmt.case_header d.1)
  rw [List.all_map, List.all_cons, List.flatMap_cons]
  exact (hcase c List.mem_cons_self).append
    (placed_flatMap fun d hd => (hcase d (List.mem_cons_of_mem _ hd)).toPlaced)

theorem eventLines_body (hg : Named g.messages) (hw : w.Worded) {variants : List String}
    (hvs : ∀ v ∈ variants, Named v) :
    Body ((w.handled variants).all Stmt.bodyArmed) (eventLines g w variants) := by
  have hhead : Header ("def on(self, " ++ w.eventName ++ ": " ++ g.messages ++ ") -> None:") :=
    ((((leads_fixed rfl).append _).append _).append _).header rfl
  have hremark (v : String) :
      ("# no view event references " ++ g.messages ++ "." ++ v).toList.head? = some '#' := by
    rw [String.append_assoc, String.append_assoc, String.toList_append]
    rfl
  have hremarks := placed_comments hremark (w.unreferenced variants)
  obtain ⟨hhandled, hcases⟩ := cases_worded hw hg hvs
  rw [← hhandled]
  refine Body.below (Body.behind ?_ hremarks) hhead
  cases hcs : w.cases g.messages variants with
  | nil => exact pass_body
  | cons c rest =>
    have hsubject : Header ("match " ++ w.eventName ++ ":") :=
      ((leads_fixed rfl).append _).header rfl
    rw [hcs] at hcases
    exact (cases_body hg [w.eventName] fun d hd => (hcases d hd).2).below hsubject

theorem viewLines_body {ls : List Line} (h : viewLines g w = .ok ls) : Body true ls := by
  obtain ⟨body, hbody, h⟩ := bind_eq_ok.mp h
  cases h
  have hhead : Header ("def view(self) -> View[" ++ g.messages ++ "]:") :=
    ((leads_fixed rfl).append _).header rfl
  have hreturn : Starts "return " := rfl
  exact (Template.lines_body (fun s _ => hreturn.append s) hbody).below hhead

theorem classLines_body (hg : Named g.messages) (hw : w.Worded) (hn : w.NamedParts)
    {types : TypeMap} {variants : List String} (hvs : ∀ v ∈ variants, Named v) {ls : List Line}
    (h : classLines g w types variants = .ok ls) :
    Body ((w.helpers.all fun fn => Stmt.bodyArmed fn.body) &&
      (w.handled variants).all Stmt.bodyArmed) ls := by
  obtain ⟨literals, -, h⟩ := bind_eq_ok.mp h
  obtain ⟨view, hview, h⟩ := bind_eq_ok.mp h
  cases h
  have hhead : Header ("class " ++ w.name ++ "(Component[" ++ g.messages ++ "]):") :=
    ((((leads_fixed rfl).append _).append _).append _).header rfl
  have hhints : ∀ a ∈ w.hints types, Named a.1 := by
    intro a ha
    obtain ⟨f, hf, rfl⟩ := List.mem_map.mp ha
    exact hn.fields f hf
  have hfields := (constructorLines_body hhints).behind (fieldLines_placed hhints)
  have hdefault := Placed.blank.append (defaultLines_body w.name literals).toPlaced
  have hhelpers := Placed.blank.append (helpersLines_placed hg hw.helpers)
  have hevents := (eventLines_body hg hw hvs).toPlaced
  have hview' := Placed.blank.append (viewLines_body hview).toPlaced
  have hall := ((hfields.append hdefault).append hhelpers).append (hevents.append hview')
  simpa [Line.blank] using hall.below hhead

/-- **The blocks in the source of a widget have lines exactly if every choice that is generated has
an arm.** -/
theorem component_body (hw : w.Worded) {types : TypeMap} {messages : String} (hm : Named messages)
    {c : Component} (h : w.component types messages = .ok c) : Body w.armed c.lines := by
  obtain ⟨symbols, lines, hdeclared, hsymbols, hvariants, hlines, rfl⟩ := component_parts h
  have hclass := classLines_body (g := w.naming messages) hm hw
    (declaredNames_named (checkNames_named hdeclared)) (checkNames_named hvariants) hlines
  have henum := enumLines_body messages (checkNames_identifiers hvariants)
  have hall := henum.append ((Placed.blank.append .blank).append hclass.toPlaced)
  unfold armed
  rw [drawnVariants_eq hsymbols]
  simpa using hall

end Widget

/-! ## The text of a unit -/

namespace Generation

/-- The lines of a text that are neither empty nor comments. -/
def codeLines (text : String) : List Line := (text.toList.splitOnP isBreak).filterMap Line.code?

/-- Whether each line that opens a block is followed, among the lines that are neither empty nor
comments, by one that is indented by one width more. -/
def blocksFilled (width : Nat) (text : String) : Bool := filled width (codeLines text)

/-- The line of code that a text is. -/
def lineCode? (line : String) : Option Line := Line.code? line.toList

theorem rendered_code {width : Nat} {ls : List Line}
    (h : ∀ l ∈ ls, l.text.toList.head? ≠ some ' ') :
    (({ indentWidth := width } : Sink).rendered ls).filterMap lineCode?
      = (ls.filter Line.isCode).map (Line.scaled width) := by
  induction ls with
  | nil => rfl
  | cons l rest ih =>
    obtain ⟨hl, hrest⟩ := List.forall_mem_cons.mp h
    have hline : lineCode? ({ l with level := 0 + l.level }.render width)
        = (some (l.scaled width)).filter Line.isCode := by
      rw [Nat.zero_add]
      exact Line.code?_render hl width
    rw [Sink.rendered, List.map_cons, List.filterMap_cons]
    dsimp only
    rw [hline, Option.filter_some]
    have hcode : (l.scaled width).isCode = l.isCode := rfl
    rw [hcode]
    cases hc : l.isCode with
    | true =>
      rw [List.filter_cons_of_pos hc, List.map_cons, ← ih hrest]
      rfl
    | false =>
      rw [List.filter_cons_of_neg (by rw [hc]; decide), ← ih hrest]
      rfl

/-- A line at the margin is read as it is. -/
theorem lineCode?_at0 {line : String} (h : line.toList.head? ≠ some ' ') :
    lineCode? line = (some (Line.at0 line)).filter Line.isCode := by
  have hcode := Line.code?_render (l := .at0 line) h 0
  rwa [show (Line.at0 line).render (0 : Nat) = line from Sink.render_at0 _ line] at hcode

/-- The lines in front of the imports are comments. -/
theorem header_code (file : Option String) : (header file).filterMap lineCode? = [] := by
  have hsource (name : String) : lineCode? ("# Source: " ++ name) = none := by
    have hhead : ("# Source: " ++ name).toList.head? = some '#' := by
      rw [String.toList_append]
      rfl
    have hcode : (Line.at0 ("# Source: " ++ name)).isCode = false := by
      show ("# Source: " ++ name).toList.head?.any (· != '#') = false
      rw [hhead]
      rfl
    rw [lineCode?_at0 (by rw [hhead]; decide), Option.filter_some, hcode]
    rfl
  cases file with
  | none => rfl
  | some f =>
    rw [header, List.filterMap_cons_none rfl, List.filterMap_cons_none (hsource _)]
    rfl

/-- Imports open no blocks. -/
theorem importLines_code (paths : List String) :
    ∀ l ∈ (Import.lines paths).filterMap lineCode?, l.opens = false := by
  intro l hl
  obtain ⟨line, hline, hl⟩ := List.mem_filterMap.mp hl
  have hplain : Plain line := by
    obtain ⟨p, -, rfl | ⟨names, -, rfl⟩⟩ := Import.mem_lines hline
    · exact Begins.plain_append (first_fixed rfl) (by decide) (by decide +kernel) _
    · rw [String.append_assoc, String.append_assoc]
      exact Begins.plain_append (first_fixed rfl) (by decide) (by decide +kernel) _
  rw [lineCode?_at0 hplain.begins.unspaced] at hl
  obtain ⟨hl, -⟩ := Option.filter_eq_some_iff.mp hl
  cases hl
  exact hplain.closed

/-- All components of a unit have their blocks filled exactly if each has. -/
theorem components_placed {o : GenerationOptions} {messages : Widget → String} {ws : List Widget}
    {cs : List Component} (h : Components o messages ws cs)
    (hws : ∀ w ∈ ws, w.Worded ∧ Named (messages w)) :
    Placed (ws.all Widget.armed) (cs.flatMap fun c => c.lines ++ [.blank, .blank]) := by
  induction h with
  | nil => exact .nil
  | @cons w c ws cs hc _ ih =>
    obtain ⟨hw, hm⟩ := hws w List.mem_cons_self
    have hempty : Placed true [Line.blank, Line.blank] := Placed.blank.append .blank
    have hcomponent := (Widget.component_body hw hm hc).toPlaced.append hempty
    rw [Bool.and_true] at hcomponent
    rw [List.all_cons, List.flatMap_cons]
    exact hcomponent.append (ih fun w hw => hws w (List.mem_cons_of_mem _ hw))

/-- What the components of a unit leave is written as it was put. -/
theorem placed_code {width : Nat} {cs : List Component} {b : Bool}
    (h : Placed b (cs.flatMap fun c => c.lines ++ [.blank, .blank])) :
    ((cs.map (Sink.alone width)).flatMap fun s => s.body ++ ["", ""]).filterMap lineCode?
      = ((cs.flatMap fun c => c.lines ++ [.blank, .blank]).filter Line.isCode).map
          (Line.scaled width) := by
  have hbody := (Sink.adds_foldl Sink.adds_place cs).body { indentWidth := width }
  rw [← Sink.placed_body width [] cs, hbody]
  exact rendered_code h.unspaced

/-- The blocks of a unit are filled as those of its widgets are. -/
theorem unit_blocks {source : String} {file : Option String} {o : GenerationOptions}
    {u : GeneratedUnit} (hwidth : 1 ≤ o.indentWidth) (htypes : o.types.Unbroken)
    (hfile : ∀ f ∈ file, Unbroken (Path.ofText f).name) (h : ofSource source file o = .ok u) :
    ∃ code ws, parse source file = .ok code ∧ widgetsOf o file code.widgets = .ok ws ∧
      blocksFilled o.indentWidth.toNat u.text = ws.all Widget.armed := by
  obtain ⟨code, ws, cs, hparse, hws, hworded, hcs, -, hread⟩ := unit_read hwidth htypes hfile h
  refine ⟨code, ws, hparse, hws, ?_⟩
  obtain ⟨width, hwidth'⟩ := Int.eq_ofNat_of_zero_le (Int.le_trans (by decide) hwidth)
  have hpositive : 1 ≤ width := by omega
  have hplaced := components_placed hcs hworded
  have hmargin : ∀ l ∈ (((cs.flatMap fun c => c.lines ++ [.blank, .blank]).filter
      Line.isCode).map (Line.scaled width)).head?, l.level = 0 := by
    intro l hl
    rw [List.head?_map] at hl
    obtain ⟨m, hm, rfl⟩ := Option.map_eq_some_iff.mp hl
    exact (congrArg (· * width) (hplaced.margin m hm)).trans (Nat.zero_mul width)
  -- the header is comments, and the imports open nothing: what is left is the components
  have hcode : codeLines u.text = (Import.lines
      ((cs.map (Sink.alone o.indentWidth)).flatMap (·.imports))).filterMap lineCode? ++
      ((cs.flatMap fun c => c.lines ++ [.blank, .blank]).filter Line.isCode).map
        (Line.scaled width) := by
    rw [← placed_code hplaced, ← hwidth', ← List.nil_append (List.filterMap lineCode? _),
      ← header_code file]
    exact hread Line.code? rfl
  rw [blocksFilled, hcode, hwidth', Int.toNat_natCast, filled_append hpositive hmargin,
    filled_plain (importLines_code _), filled_scaled hpositive, hplaced.filled, Bool.true_and]

/-- **Every block of a unit has lines exactly if every choice in the statements that are generated
for its widgets has an arm.** -/
theorem unit_blocks_filled_iff {source : String} {file : Option String} {o : GenerationOptions}
    {u : GeneratedUnit} (hwidth : 1 ≤ o.indentWidth) (htypes : o.types.Unbroken)
    (hfile : ∀ f ∈ file, Unbroken (Path.ofText f).name) (h : ofSource source file o = .ok u) :
    ∃ code ws, parse source file = .ok code ∧ widgetsOf o file code.widgets = .ok ws ∧
      (blocksFilled o.indentWidth.toNat u.text = true ↔ ∀ w ∈ ws, w.armed = true) := by
  obtain ⟨code, ws, hcode, hws, hfilled⟩ := unit_blocks hwidth htypes hfile h
  exact ⟨code, ws, hcode, hws, by rw [hfilled, List.all_eq_true]⟩

/-- A widget with empty bodies of all kinds, and a choice in a loop. -/
def emptyBodies : String :=
  "type W is Widget \x7b n int = 0 fn f() \x7b \x7d " ++
    "fn g() \x7b for i in [n] \x7b is i \x7b 1 => \x7b \x7d \x7d \x7d \x7d " ++
    "fn on(ev) \x7b is ev \x7b Msg.A => \x7b \x7d \x7d \x7d " ++
    "fn view() \x7b button(\"a\") \x7b onclick: Msg.A \x7d \x7d \x7d"

/-- All its blocks have lines. -/
theorem empty_bodies_filled : ∃ u, ofSource emptyBodies none {} = .ok u ∧
    blocksFilled 4 u.text = true := by
  obtain ⟨u, hu⟩ := exists_of_isOk (r := ofSource emptyBodies none {}) (by decide +kernel)
  obtain ⟨code, ws, hcode, hws, hiff⟩ := unit_blocks_filled_iff (by decide)
    TypeMap.standard_unbroken (fun f hf => absurd hf (Option.not_mem_none f)) hu
  have harmed : ((parse emptyBodies none).toOption.bind fun code =>
      (widgetsOf {} none code.widgets).toOption).any (·.all Widget.armed) = true := by
    decide +kernel
  rw [hcode] at harmed
  simp only [Except.toOption, Option.bind_some, hws, Option.any_some] at harmed
  exact ⟨u, hu, hiff.mpr (List.all_eq_true.mp harmed)⟩

/-- A method that chooses without arms. -/
def armlessChoice : String :=
  "type W is Widget \x7b n int = 0 fn f() \x7b is n \x7b \x7d \x7d " ++
    "fn view() \x7b col \x7b\x7d \x7d \x7d"

/-- The header of the choice has no line behind it that is further in. -/
theorem armless_choice_unfilled : ∃ u, ofSource armlessChoice none {} = .ok u ∧
    blocksFilled 4 u.text = false := by
  obtain ⟨u, hu⟩ := exists_of_isOk (r := ofSource armlessChoice none {}) (by decide +kernel)
  obtain ⟨code, ws, hcode, hws, hfilled⟩ := unit_blocks (by decide)
    TypeMap.standard_unbroken (fun f hf => absurd hf (Option.not_mem_none f)) hu
  have harmed : ((parse armlessChoice none).toOption.bind fun code =>
      (widgetsOf {} none code.widgets).toOption).any (·.all Widget.armed) = false := by
    decide +kernel
  rw [hcode] at harmed
  simp only [Except.toOption, Option.bind_some, hws, Option.any_some] at harmed
  exact ⟨u, hu, hfilled.trans harmed⟩

end Generation

end Widgetry
