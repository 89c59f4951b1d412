import Widgetry.Generation.Unit
import Widgetry.Proofs.Generation.Components

/-!
# Where generated source is whole

Generated source is *whole* if its brackets are balanced outside texts and comments, and no comment
has swallowed what was to follow it.

> `generated_whole_iff`: what is generated from a source text is whole exactly if no line of it has
> something behind a node expression (`Widget.nodesLast`).

A view that shows a node as a text is enough to break it (`shown_node_unbalanced`): the remark about
the node stands in front of the parenthesis that closes the call.
-/

namespace Widgetry

open Lexical

/-! ## Imports -/

namespace Import

/-- Whether a text has no brackets, texts and comments. -/
abbrev Plain (s : String) : Prop := ∀ c ∈ s.toList, isPlain c = true

theorem ofPath_plain {path : String} (h : Plain path) :
    Plain (ofPath path).source ∧ ∀ n, (ofPath path).name = some n → Plain n := by
  have hcs : ∀ c ∈ path.toList.reverse, isPlain c = true := fun c hc => h c (List.mem_reverse.mp hc)
  unfold ofPath
  dsimp only
  split
  · exact ⟨h, nofun⟩
  · next c source hdrop =>
    constructor
    · intro d hd
      rw [String.toList_ofList, List.mem_reverse] at hd
      have hmem : d ∈ path.toList.reverse.dropWhile (· != '.') :=
        hdrop ▸ List.mem_cons_of_mem _ hd
      exact hcs d ((List.dropWhile_suffix _).subset hmem)
    · intro n hn d hd
      cases hn
      rw [String.toList_ofList, List.mem_reverse] at hd
      exact hcs d ((List.takeWhile_prefix _).subset hd)

theorem moves_commaSeparated {names : List String} (h : ∀ n ∈ names, Plain n) :
    Moves Any true [] [] (commaSeparated names) := by
  induction names with
  | nil => exact .empty
  | cons n rest ih =>
    have hn : Moves Any true [] [] n := moves_plain (h n List.mem_cons_self)
    have hrest := ih fun n hn => h n (List.mem_cons_of_mem _ hn)
    cases rest with
    | nil => rwa [commaSeparated, String.intercalate_singleton]
    | cons m rest =>
      have hcomma : Moves Any true [] [] ", " := moves_fixed rfl
      rw [commaSeparated, String.intercalate_cons_cons]
      exact (hn.after hcomma).after hrest

/-- What the lines that import some paths consist of. -/
theorem mem_lines {paths : List String} {l : String} (h : l ∈ lines paths) :
    ∃ p ∈ paths, l = "import " ++ (ofPath p).source ∨
      ∃ names : List String, (∀ n ∈ names, ∃ q ∈ paths, (ofPath q).name = some n) ∧
        l = "from " ++ (ofPath p).source ++ " import " ++ commaSeparated names := by
  obtain ⟨source, hsource, hl⟩ := List.mem_flatMap.mp h
  obtain ⟨i, hi, rfl⟩ := List.mem_map.mp (Text.mem_sortedSet.mp hsource)
  obtain ⟨p, hp, rfl⟩ := List.mem_map.mp hi
  refine ⟨p, hp, ?_⟩
  have hnames : ∀ n ∈ namesFrom (paths.map ofPath) (ofPath p).source,
      ∃ q ∈ paths, (ofPath q).name = some n := by
    intro n hn
    obtain ⟨i, hi, hname⟩ := List.mem_filterMap.mp (Text.mem_sortedSet.mp hn)
    obtain ⟨q, hq, rfl⟩ := List.mem_map.mp hi
    split at hname
    · exact ⟨q, hq, hname⟩
    · cases hname
  rcases List.mem_append.mp hl with hl | hl
  · split at hl
    · exact .inr ⟨_, hnames, List.mem_singleton.mp hl⟩
    · cases hl
  · split at hl
    · exact .inl (List.mem_singleton.mp hl)
    · cases hl

/-- The lines that import plain paths have nothing to be closed. -/
theorem lines_moves {paths : List String} (h : ∀ p ∈ paths, Plain p) :
    ∀ l ∈ lines paths, Moves LineEnd true [] [] l := by
  intro l hl
  obtain ⟨p, hp, hl⟩ := mem_lines hl
  have hsource : Moves Any true [] [] (ofPath p).source := moves_plain (ofPath_plain (h p hp)).1
  obtain rfl | ⟨names, hnames, rfl⟩ := hl
  · have himport : Moves Any true [] [] "import " := moves_fixed rfl
    exact himport.after hsource.any
  · have hplain : ∀ n ∈ names, Plain n := by
      intro n hn
      obtain ⟨q, hq, hname⟩ := hnames n hn
      exact (ofPath_plain (h q hq)).2 n hname
    have hfrom : Moves Any true [] [] "from " := moves_fixed rfl
    have himport : Moves Any true [] [] " import " := moves_fixed rfl
    exact ((hfrom.after hsource).after himport).after (moves_commaSeparated hplain).any

end Import

/-! ## Sinks -/

namespace Lexical

theorem written_intercalate : ∀ {ts : List String}, ts ≠ [] →
    ("\n".intercalate ts ++ "\n").toList = written ts
  | [t], _ => by
    rw [String.intercalate_singleton, String.toList_append]
    simp [written]
  | t :: u :: rest, _ => by
    have hrest := written_intercalate (List.cons_ne_nil u rest)
    rw [String.intercalate_cons_cons, String.append_assoc, String.toList_append, hrest]
    simp [written]

end Lexical

namespace Sink

/-- Whether the lines in the body of a sink can be read to their end, and its imports are plain. -/
structure Gathers (s : Sink) (b : Bool) : Prop where
  body : ∃ ls, Shows ls s.body ∧ Blocks b [] [] ls
  imports : ∀ p ∈ s.imports, Import.Plain p

variable {s : Sink} {b b' : Bool}

theorem putAll_shows {ls ms : List Line} (h : Shows ls s.body) :
    Shows (ls ++ ms) (s.putAll ms).body := by
  induction ms generalizing s ls with
  | nil => rwa [List.append_nil]
  | cons m rest ih =>
    have hm : Shows (ls ++ [m]) (s.put m).body := h.append (shows_render _ _ _)
    have hrest := ih hm
    rwa [List.append_assoc] at hrest

theorem putAll_imports (s : Sink) (ms : List Line) : (s.putAll ms).imports = s.imports := by
  induction ms generalizing s with
  | nil => rfl
  | cons m rest ih => exact ih (s.put m)

theorem putAll_header (s : Sink) (ms : List Line) : (s.putAll ms).header = s.header := by
  induction ms generalizing s with
  | nil => rfl
  | cons m rest ih => exact ih (s.put m)

theorem Gathers.putAll (h : s.Gathers b) {ms : List Line} (hms : Blocks b' [] [] ms) :
    (s.putAll ms).Gathers (b && b') := by
  obtain ⟨ls, hshows, hblocks⟩ := h.body
  refine ⟨⟨ls ++ ms, putAll_shows hshows, hblocks.append hms⟩, ?_⟩
  rw [putAll_imports]
  exact h.imports

theorem Gathers.addImport (h : s.Gathers b) {path : String} (hpath : Import.Plain path) :
    (s.addImport path).Gathers b := by
  refine ⟨h.body, fun p hp => ?_⟩
  rcases Text.mem_insertSorted.mp hp with rfl | hp
  · exact hpath
  · exact h.imports p hp

theorem Gathers.addImports {paths : List String} (h : s.Gathers b)
    (hpaths : ∀ p ∈ paths, Import.Plain p) : (paths.foldl Sink.addImport s).Gathers b := by
  induction paths generalizing s with
  | nil => exact h
  | cons p rest ih =>
    exact ih (h.addImport (hpaths p List.mem_cons_self))
      fun p hp => hpaths p (List.mem_cons_of_mem _ hp)

theorem addImports_header (s : Sink) (paths : List String) :
    (paths.foldl addImport s).header = s.header := by
  induction paths generalizing s with
  | nil => rfl
  | cons p rest ih => exact ih (s.addImport p)

/-- The lines above the body of a sink. -/
def topLines (s : Sink) : List String :=
  if s.importLines.isEmpty then s.header
  else if s.header.isEmpty then s.importLines else s.header ++ "" :: s.importLines

/-- All lines of a sink. -/
def allLines (s : Sink) : List String :=
  if (trimmed s.body).isEmpty then s.topLines
  else if s.topLines.isEmpty then trimmed s.body else s.topLines ++ "" :: "" :: trimmed s.body

theorem topLines_ne_nil (hne : s.header ≠ []) : s.topLines ≠ [] := by
  unfold topLines
  split_ifs with himports hheader
  · exact hne
  · exact absurd (List.isEmpty_iff.mp hheader) hne
  · simp

theorem topLines_moves (hheader : ∀ l ∈ s.header, Moves LineEnd true [] [] l)
    (himports : ∀ p ∈ s.imports, Import.Plain p) :
    ∀ l ∈ s.topLines, Moves LineEnd true [] [] l := by
  have hlines := Import.lines_moves himports
  unfold topLines
  split_ifs
  · exact hheader
  · exact hlines
  · intro l hl
    rcases List.mem_append.mp hl with hl | hl
    · exact hheader l hl
    · rcases List.mem_cons.mp hl with rfl | hl
      · exact .empty
      · exact hlines l hl

theorem text_toList (hne : s.header ≠ []) : s.text.toList = written s.allLines := by
  have htop := topLines_ne_nil hne
  have hall : s.allLines ≠ [] := by
    unfold allLines
    split_ifs with hbody
    · exact htop
    · exact fun h => hbody (List.isEmpty_iff.mpr h)
    · simp
  exact written_intercalate hall

/-- Without a body there are no empty lines in front of it. -/
theorem Gathers.lines (h : s.Gathers b) (hne : s.header ≠ [])
    (hheader : ∀ l ∈ s.header, Moves LineEnd true [] [] l) :
    ∃ ls, Shows ls s.allLines ∧ Blocks b [] [] ls := by
  obtain ⟨ls, hshows, hblocks⟩ := h.body
  have hbody := hshows.trimmed
  have htop : Blocks true [] [] (s.topLines.map fun l => .at0 l) :=
    blocks_map (topLines_moves hheader h.imports)
  have hempty : Blocks true [] [] ([.blank, .blank] : List Line) := Blocks.blank.append .blank
  unfold allLines
  split_ifs with hnil htopNil
  · rw [List.isEmpty_iff.mp hnil] at hbody
    have hall := (shows_texts s.topLines).append hbody
    rw [List.append_nil] at hall
    exact ⟨_, hall, htop.append hblocks⟩
  · exact absurd (List.isEmpty_iff.mp htopNil) (topLines_ne_nil hne)
  · have hall := (shows_texts s.topLines).append ((shows_texts ["", ""]).append hbody)
    exact ⟨_, hall, htop.append (hempty.append hblocks)⟩

/-- **The text of a sink is whole if its body can be read to its end.** -/
theorem Gathers.text (h : s.Gathers b) (hne : s.header ≠ [])
    (hheader : ∀ l ∈ s.header, Moves LineEnd true [] [] l) : whole s.text = b := by
  obtain ⟨ls, hshows, hblocks⟩ := h.lines hne hheader
  have hend : Lexical.read [] [] = true := rfl
  have hread := hblocks _ hshows [] []
  rw [List.append_nil, List.append_nil, hend, Bool.and_true] at hread
  rw [whole, text_toList hne]
  exact hread

end Sink

/-! ## Units -/

namespace Generation

theorem headerLine_moves : Moves LineEnd true [] [] headerLine := by
  have hremark := moves_remarkText (s := "")
    (r := (" Generated by auto-ui. Do not edit by hand.", fun _ => false)) (by simp [remarks])
    nofun nofun
  exact hremark

/-- What stands above the imports of a unit. -/
theorem header_moves {file : Option String}
    (hfile : ∀ f ∈ file, ∀ c ∈ (Path.ofText f).name.toList, isBreak c = false) :
    ∀ l ∈ header file, Moves LineEnd true [] [] l := by
  cases file with
  | none => exact List.forall_mem_singleton.mpr headerLine_moves
  | some f =>
    have hremark := moves_remarkText (s := (Path.ofText f).name)
      (r := (" Source: ", fun _ => true)) (by simp [remarks]) (fun _ _ => rfl) (hfile f rfl)
    have hsplit : "# Source: " ++ (Path.ofText f).name
        = "#" ++ (" Source: " ++ (Path.ofText f).name) := by
      apply String.toList_injective
      simp
    rw [← hsplit] at hremark
    exact List.forall_mem_cons.mpr ⟨headerLine_moves, List.forall_mem_singleton.mpr hremark⟩

theorem header_ne_nil (file : Option String) : header file ≠ [] := by
  cases file with
  | none => exact List.cons_ne_nil _ _
  | some f => exact List.cons_ne_nil _ _

theorem parse_file {source : String} {file : Option String} {code : Code}
    (h : parse source file = .ok code) : code.file = file := by
  unfold parse at h
  cases hrun : Parser.run (Parser.code nestingLimit) source file with
  | error f =>
    rw [hrun] at h
    cases h
  | ok r =>
    rw [hrun] at h
    cases h
    rfl

/-- All names in the declarations of a parsed text are words. -/
theorem widgets_worded {source : String} {file : Option String} {code : Code}
    (h : parse source file = .ok code) : ∀ d ∈ code.widgets, Stmt.Worded (.type d) := by
  intro d hd
  obtain ⟨s, hs, hdecl⟩ := List.mem_filterMap.mp (List.mem_of_mem_filter hd)
  cases s with
  | type d' =>
    cases hdecl
    exact parse_worded h _ hs
  | _ => cases hdecl

theorem widgetsOf_worded {o : GenerationOptions} {file : Option String} :
    ∀ {decls : List TypeDecl} {ws : List Widget}, (∀ d ∈ decls, Stmt.Worded (.type d)) →
      widgetsOf o file decls = .ok ws → ∀ w ∈ ws, w.Worded
  | [], ws, _, h => by
    cases h
    exact nofun
  | d :: rest, ws, hds, h => by
    obtain ⟨w, hw, h⟩ := bind_eq_ok.mp h
    obtain ⟨ws', hws, h⟩ := bind_eq_ok.mp h
    cases h
    have hrest := widgetsOf_worded (fun d hd => hds d (List.mem_cons_of_mem _ hd)) hws
    exact List.forall_mem_cons.mpr ⟨Widget.ofType_worded (hds d List.mem_cons_self) hw, hrest⟩

theorem messagesName_named {w : Widget} (hw : w.Worded) (alone : Bool) :
    Named (messagesName alone w) := by
  have hmsg : Named "Msg" := named_of_isIdentifier (by decide +kernel)
  unfold messagesName
  split
  · exact hmsg
  · exact hw.name.append hmsg

theorem importsFor_plain (w : Widget) (types : TypeMap) :
    ∀ p ∈ w.importsFor types, Import.Plain p := by
  have hall : (Widget.commonImports ++ ["typing.Any"]).all (·.toList.all isPlain) = true := by
    decide +kernel
  have hplain : ∀ p ∈ Widget.commonImports ++ ["typing.Any"], Import.Plain p :=
    fun p hp => List.all_eq_true.mp (List.all_eq_true.mp hall p hp)
  unfold Widget.importsFor
  split
  · exact hplain
  · exact fun p hp => hplain p (List.mem_append_left _ hp)

theorem component_imports {w : Widget} {types : TypeMap} {messages : String} {c : Component}
    (h : w.component types messages = .ok c) : c.imports = w.importsFor types := by
  obtain ⟨_, _, -, -, -, -, rfl⟩ := Widget.component_parts h
  rfl

theorem emitAll_header {o : GenerationOptions} {messages : Widget → String} :
    ∀ {ws : List Widget} {s s' : Sink} {table table' : List (String × List String)},
      emitAll o messages ws s table = .ok (s', table') → s'.header = s.header
  | [], s, s', table, table', h => by
    cases h
    rfl
  | w :: rest, s, s', table, table', h => by
    obtain ⟨c, -, h⟩ := bind_eq_ok.mp h
    rw [emitAll_header h, Sink.putAll_header]
    exact (Sink.putAll_header _ _).trans (Sink.addImports_header _ _)

/-- Each widget adds its lines and what it imports. -/
theorem emitAll_gathers {o : GenerationOptions} (htypes : o.types.Closed) (alone : Bool) :
    ∀ {ws : List Widget} {s s' : Sink} {table table' : List (String × List String)} {b : Bool},
      (∀ w ∈ ws, w.Worded) → s.Gathers b →
      emitAll o (messagesName alone) ws s table = .ok (s', table') →
      s'.Gathers (b && ws.all Widget.nodesLast)
  | [], s, s', table, table', b, _, hs, h => by
    cases h
    rwa [List.all_nil, Bool.and_true]
  | w :: rest, s, s', table, table', b, hws, hs, h => by
    obtain ⟨c, hc, h⟩ := bind_eq_ok.mp h
    have hw := hws w List.mem_cons_self
    have hlines := Widget.component_blocks hw htypes (messagesName_named hw alone) hc
    have himports := component_imports hc ▸ importsFor_plain w o.types
    have hempty : Blocks true [] [] [Line.blank, Line.blank] := Blocks.blank.append .blank
    have hadded := ((hs.addImports himports).putAll hlines).putAll hempty
    have hrest :=
      emitAll_gathers htypes alone (fun w hw => hws w (List.mem_cons_of_mem _ hw)) hadded h
    rwa [Bool.and_true, Bool.and_assoc] at hrest

/-- What a unit was made of. -/
theorem ofSource_cases {source : String} {file : Option String} {o : GenerationOptions}
    {u : GeneratedUnit} (h : ofSource source file o = .ok u) :
    ∃ code ws s table, parse source file = .ok code ∧
      widgetsOf o file code.widgets = .ok ws ∧
      emitAll o (messagesName (ws.length == 1)) ws
        { indentWidth := o.indentWidth, header := header file } [] = .ok (s, table) ∧
      u = ⟨s.text, table⟩ := by
  unfold ofSource at h
  cases hparse : parse source file with
  | error f =>
    rw [hparse] at h
    cases f with
    | source e => cases h
    | number e => cases h
  | ok code =>
    rw [hparse] at h
    replace h : ofCode code o = .ok u := h
    unfold ofCode at h
    split at h
    · cases h
    rw [parse_file hparse] at h
    obtain ⟨ws, hws, h⟩ := bind_eq_ok.mp h
    obtain ⟨⟨s, table⟩, hs, h⟩ := bind_eq_ok.mp h
    cases h
    exact ⟨code, ws, s, table, rfl, hws, hs, rfl⟩

/-- **What is generated from a source text is whole exactly if no line of it has something behind a
node expression.** What the generator is given besides is written as it is: the hints must close
what they open, and the name of the file must not break its line. -/
theorem generated_whole_iff {source : String} {file : Option String} {o : GenerationOptions}
    {u : GeneratedUnit} (htypes : o.types.Closed)
    (hfile : ∀ f ∈ file, ∀ c ∈ (Path.ofText f).name.toList, isBreak c = false)
    (h : ofSource source file o = .ok u) :
    ∃ code ws, parse source file = .ok code ∧ widgetsOf o file code.widgets = .ok ws ∧
      (balanced u.text = true ∧ whole u.text = true ↔ ∀ w ∈ ws, w.nodesLast = true) := by
  obtain ⟨code, ws, s, table, hparse, hws, hs, rfl⟩ := ofSource_cases h
  have hworded := widgetsOf_worded (widgets_worded hparse) hws
  have hstart : Sink.Gathers { indentWidth := o.indentWidth, header := header file } true :=
    ⟨⟨[], .nil, .nil⟩, nofun⟩
  have hgathers := emitAll_gathers htypes _ hworded hstart hs
  have hheader : s.header = header file := emitAll_header hs
  have hwhole := hgathers.text (hheader ▸ header_ne_nil file) (hheader ▸ header_moves hfile)
  refine ⟨code, ws, hparse, hws, ?_⟩
  rw [← List.all_eq_true, hwhole, Bool.true_and]
  constructor
  · exact fun h => h.2
  · exact fun h => ⟨whole_balanced (hwhole.trans h), h⟩

/-- A widget with remarks of two kinds, each at the end of its line. -/
def remarkedSource : String :=
  "type W is Widget \x7b fn f() \x7b let c = col \x7b\x7d \x7d " ++
    "fn view() \x7b spinner(\"#(\") \x7d \x7d"

/-- What is generated from it is whole. -/
theorem remarked_whole : ∃ u, ofSource remarkedSource none {} = .ok u ∧
    balanced u.text = true ∧ whole u.text = true := by
  have hruns : (ofSource remarkedSource none {}).isOk = true := by decide +kernel
  cases hu : ofSource remarkedSource none {} with
  | error f =>
    rw [hu] at hruns
    cases hruns
  | ok u =>
    obtain ⟨code, ws, hcode, hws, hiff⟩ :=
      generated_whole_iff TypeMap.standard_closed (fun f hf => absurd hf (Option.not_mem_none f)) hu
    have hlast : ((parse remarkedSource none).toOption.bind fun code =>
        (widgetsOf {} none code.widgets).toOption).any (·.all Widget.nodesLast) = true := by
      decide +kernel
    rw [hcode] at hlast
    simp only [Except.toOption, Option.bind_some, hws, Option.any_some] at hlast
    exact ⟨u, rfl, hiff.mpr (List.all_eq_true.mp hlast)⟩

/-- A view that shows a node as a text. -/
def shownSource : String := "type W is Widget { fn view() { text(col {}) } }"

/-- The remark about the node swallows a parenthesis. -/
theorem shown_node_unbalanced : ∃ u, ofSource shownSource none {} = .ok u ∧
    balanced u.text = false := by
  have hruns : (ofSource shownSource none {}).isOk = true := by decide +kernel
  cases hu : ofSource shownSource none {} with
  | error f =>
    rw [hu] at hruns
    cases hruns
  | ok u =>
    obtain ⟨code, ws, s, table, hcode, hws, hs, rfl⟩ := ofSource_cases hu
    -- the text is long, and its lines are read one by one
    have hscan : ((parse shownSource none).toOption.bind fun code =>
        (widgetsOf {} none code.widgets).toOption.bind fun ws =>
          (emitAll {} (messagesName (ws.length == 1)) ws
            { indentWidth := 4, header := header none } []).toOption).any
        (fun r => !scan (fun _ => true) .code [] (written r.1.allLines)) = true := by
      decide +kernel
    have hheader : s.header = header none := emitAll_header hs
    simp only [hcode, hws, hs, Except.toOption, Option.bind_some, Option.any_some] at hscan
    refine ⟨_, rfl, ?_⟩
    rw [balanced, Sink.text_toList (hheader ▸ header_ne_nil none)]
    rwa [Bool.not_eq_true'] at hscan

end Generation

end Widgetry
