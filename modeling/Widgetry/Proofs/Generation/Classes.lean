import Widgetry.Proofs.Generation.LineEnds
import Widgetry.Proofs.Generation.Units
import Mathlib.Data.List.Pairwise

/-!
# The classes of a generated unit

A unit defines two classes for each widget: the enumeration of its messages, and the widget itself.
They are read here off the text of the unit, as the lines at its margin that begin a class.

> `unit_classes_apart_iff`: they have different names, and none of the imported ones, exactly if so
> have the widgets, and no enumeration is called like a widget.

The enumeration of a widget that is alone is called `Msg`, and a widget may have that name
(`lone_msg_clashes`).
-/

namespace Widgetry

open Lexical

/-! ## Hints -/

namespace TypeMap

/-- Whether all hints stand on one line. -/
def Unbroken (m : TypeMap) : Prop := ∀ e ∈ m.entries, Lexical.Unbroken e.2

theorem standard_unbroken : standard.Unbroken := by
  have hall : standard.entries.any (·.2.toList.any isBreak) = false := by decide +kernel
  intro e he
  exact unbroken_fixed (Bool.eq_false_iff.mpr (List.any_eq_false.mp hall e he))

variable {m : TypeMap}

theorem Unbroken.hintOf (h : m.Unbroken) (cs : List Char) : Lexical.Unbroken (m.hintOf cs) := by
  fun_induction TypeMap.hintOf m cs with
  | case1 item ih => exact ih.between rfl rfl
  | case2 cs =>
    unfold TypeMap.plainHint
    split
    · next a ha => exact h (_, a) (mem_of_lookup ha)
    · dsimp only
      split_ifs with htype
      · exact (named_of_isIdentifier (Bool.and_eq_true_iff.mp htype).2).unbroken
      · exact unbroken_fixed rfl

end TypeMap

/-! ## Components -/

namespace Widget

variable {g : Naming} {w : Widget}

theorem unbroken_map {α : Type} {f : α → String} {as : List α} (h : ∀ a ∈ as, Unbroken (f a)) :
    UnbrokenLines (as.map fun a => .at0 (f a)) := by
  intro l hl
  obtain ⟨a, ha, rfl⟩ := List.mem_map.mp hl
  exact h a ha

/-- The line of a definition with its parameters. -/
theorem unbroken_definition {before behind : String} {ps : List String} (hbefore : Unbroken before)
    (hps : ∀ p ∈ ps, Unbroken p) (hbehind : behind.toList.any isBreak = false) :
    Unbroken (before ++ String.join ps ++ behind) :=
  (hbefore.append (unbroken_join hps)).append (unbroken_fixed hbehind)

/-- The members of the enumeration of the messages stand further in. -/
theorem enumLines_cases {messages : String} {variants : List String} (hm : Named messages)
    (hvs : ∀ v ∈ variants, Named v) : ∃ members,
      enumLines messages variants
        = .at0 ("class " ++ messages ++ "(Enum):") :: Line.indented members ∧
      Unbroken ("class " ++ messages ++ "(Enum):") ∧ UnbrokenLines members := by
  refine ⟨_, rfl, hm.unbroken.between rfl rfl, ?_⟩
  cases variants with
  | nil => exact unbroken_line (unbroken_fixed rfl)
  | cons v rest =>
    refine unbroken_map fun v hv => ?_
    have hname : Unbroken (v ++ " = ") := (hvs v hv).unbroken.append (unbroken_fixed rfl)
    exact hname.append (unbroken_quoted v)

theorem fieldLines_unbroken {hints : List (String × String)}
    (h : ∀ a ∈ hints, Unbroken a.1 ∧ Unbroken a.2) : UnbrokenLines (fieldLines hints) := by
  cases hints with
  | nil => exact nofun
  | cons a rest =>
    refine unbroken_lines (unbroken_map fun a ha => ?_) unbroken_blank
    obtain ⟨hname, hhint⟩ := h a ha
    have hfront : Unbroken (a.1 ++ ": ") := hname.append (unbroken_fixed rfl)
    exact hfront.append hhint

theorem constructorLines_unbroken {hints : List (String × String)}
    (h : ∀ a ∈ hints, Unbroken a.1 ∧ Unbroken a.2) : UnbrokenLines (constructorLines hints) := by
  have hparams : ∀ p ∈ hints.map (fun a => ", " ++ a.1 ++ ": " ++ a.2), Unbroken p := by
    intro p hp
    obtain ⟨a, ha, rfl⟩ := List.mem_map.mp hp
    obtain ⟨hname, hhint⟩ := h a ha
    have hfront : Unbroken (", " ++ a.1 ++ ": ") := hname.between rfl rfl
    exact hfront.append hhint
  refine unbroken_below (unbroken_definition (unbroken_fixed rfl) hparams rfl) ?_
  cases hints with
  | nil => exact unbroken_line (unbroken_fixed rfl)
  | cons a rest =>
    refine unbroken_map fun a ha => ?_
    have hself : Unbroken ("self." ++ a.1 ++ " = ") := (h a ha).1.between rfl rfl
    exact hself.append (h a ha).1

theorem defaultLines_unbroken {name : String} (hname : Named name) {fs : List WidgetField}
    {literals : List String} (h : startLiterals fs = .ok literals) :
    UnbrokenLines (defaultLines name literals) := by
  have hhead : Unbroken ("def default(cls) -> \"" ++ name ++ "\":") :=
    hname.unbroken.between rfl rfl
  have hcall : Unbroken ("return cls(" ++ commaSeparated literals ++ ")") :=
    (unbroken_commaSeparated (literalItems_unbroken _ (startLiterals_items h))).between rfl rfl
  have hmethod : Unbroken "@classmethod" := unbroken_fixed rfl
  exact List.forall_mem_cons.mpr ⟨hmethod,
    List.forall_mem_cons.mpr ⟨hhead, List.forall_mem_singleton.mpr hcall⟩⟩

theorem helperBody_unbroken (hg : Named g.messages) : ∀ (ss : List Stmt) (locals : List String),
    WordedBody ss → UnbrokenLines (helperBody g locals ss)
  | [], _, _ => unbroken_line (unbroken_fixed rfl)
  | [s], locals, h => by
    have hs := h s List.mem_cons_self
    cases s with
    | expr e l =>
      cases hs with
      | expr he =>
        exact unbroken_line ((unbroken_fixed rfl).append (e.source_unbroken locals hg he))
    | _ => exact Stmt.lines_unbroken hg _ locals hs
  | s :: s' :: rest, locals, h => by
    have hrest := helperBody_unbroken hg (s' :: rest) (s.localsAfter locals)
      fun s hs => h s (List.mem_cons_of_mem _ hs)
    rw [helperBody_cons]
    exact unbroken_lines (Stmt.lines_unbroken hg s locals (h s List.mem_cons_self)) hrest

theorem helpersLines_unbroken (hg : Named g.messages) (hw : w.Worded) (hn : w.NamedParts) :
    UnbrokenLines (helpersLines g w.helpers) := by
  intro l hl
  obtain ⟨fn, hfn, hl⟩ := List.mem_flatMap.mp hl
  obtain ⟨hname, hparams⟩ := hn.helpers fn hfn
  have hps : ∀ p ∈ fn.paramNames.map (", " ++ ·), Unbroken p := by
    intro p hp
    obtain ⟨x, hx, rfl⟩ := List.mem_map.mp hp
    exact (unbroken_fixed rfl).append (hparams x hx).unbroken
  have hopening : Unbroken ("def " ++ fn.name ++ "(self") := hname.unbroken.between rfl rfl
  have hbody := helperBody_unbroken hg fn.body (Text.sortedSet fn.paramNames) (hw.helpers fn hfn)
  have hhead : Unbroken ("def " ++ fn.name ++ "(self" ++
      String.join (fn.paramNames.map (", " ++ ·)) ++ "):") := unbroken_definition hopening hps rfl
  exact unbroken_lines (unbroken_below hhead hbody) unbroken_blank l hl

theorem caseLines_unbroken (hg : Named g.messages) (locals : List String)
    {c : String × List Stmt} (hname : Unbroken c.1) (hbody : WordedBody c.2) :
    UnbrokenLines (caseLines g locals c) :=
  unbroken_below (hname.between rfl rfl) (Stmt.blockLines_unbroken hg c.2 locals hbody)

/-- The cases of the event method have the statements of handlers. -/
theorem cases_unbroken (hw : w.Worded) {messages : String} (hm : Named messages)
    {variants : List String} (hvs : ∀ v ∈ variants, Named v) :
    ∀ c ∈ w.cases messages variants, Unbroken c.1 ∧ WordedBody c.2 := by
  have hknown : ∀ c ∈ variants.map (fun v => (messages ++ "." ++ v, w.handlerOf v)),
      Unbroken c.1 ∧ WordedBody c.2 := by
    intro c hc
    obtain ⟨v, hv, rfl⟩ := List.mem_map.mp hc
    have hfront : Unbroken (messages ++ ".") := hm.unbroken.append (unbroken_fixed rfl)
    exact ⟨hfront.append (hvs v hv).unbroken, handlerOf_worded hw v⟩
  intro c hc
  unfold cases at hc
  dsimp only at hc
  split at hc
  · next body hlookup =>
    obtain hc | hc := List.mem_append.mp hc
    · exact hknown c hc
    · have hwildcard : Unbroken wildcard := unbroken_fixed rfl
      rw [List.mem_singleton.mp hc]
      exact ⟨hwildcard, hw.handlers (wildcard, body) (mem_of_lookup hlookup)⟩
  · exact hknown c hc

theorem eventLines_unbroken (hg : Named g.messages) (hw : w.Worded) {variants : List String}
    (hvs : ∀ v ∈ variants, Named v) : UnbrokenLines (eventLines g w variants) := by
  have hevent := (eventName_named hw).unbroken
  have hparam : Unbroken ("def on(self, " ++ w.eventName ++ ": ") := hevent.between rfl rfl
  have hhead : Unbroken ("def on(self, " ++ w.eventName ++ ": " ++ g.messages ++ ") -> None:") :=
    (hparam.append hg.unbroken).append (unbroken_fixed rfl)
  refine unbroken_below hhead (unbroken_lines (unbroken_map fun v hv => ?_) ?_)
  · obtain ⟨h, hh, rfl⟩ := List.mem_map.mp (List.mem_of_mem_filter (Text.mem_sortedSet.mp hv))
    have hfront : Unbroken ("# no view event references " ++ g.messages ++ ".") :=
      hg.unbroken.between rfl rfl
    exact hfront.append (hw.keys h hh).unbroken
  · have hcases := cases_unbroken hw hg hvs
    split
    · exact unbroken_line (unbroken_fixed rfl)
    · refine unbroken_below (hevent.between rfl rfl) fun l hl => ?_
      obtain ⟨c, hc, hl⟩ := List.mem_flatMap.mp hl
      obtain ⟨hname, hbody⟩ := hcases c hc
      exact caseLines_unbroken hg _ hname hbody l hl

theorem viewLines_unbroken (hg : Named g.messages) (hw : w.Worded) {ls : List Line}
    (h : viewLines g w = .ok ls) : UnbrokenLines ls := by
  obtain ⟨body, hbody, h⟩ := bind_eq_ok.mp h
  cases h
  exact unbroken_below (hg.unbroken.between rfl rfl) (Template.lines_unbroken hg w.view hw.view
    (unbroken_fixed rfl) (unbroken_fixed rfl) hbody)

/-- What belongs to the class of a widget stands further in. -/
theorem classLines_cases (hg : Named g.messages) (hw : w.Worded) (hn : w.NamedParts)
    {types : TypeMap} (htypes : types.Unbroken) {variants : List String}
    (hvs : ∀ v ∈ variants, Named v) {ls : List Line} (h : classLines g w types variants = .ok ls) :
    ∃ body, ls = .at0 ("class " ++ w.name ++ "(Component[" ++ g.messages ++ "]):")
        :: Line.indented body ∧
      Unbroken ("class " ++ w.name ++ "(Component[" ++ g.messages ++ "]):") ∧
      UnbrokenLines body := by
  obtain ⟨literals, hliterals, h⟩ := bind_eq_ok.mp h
  obtain ⟨view, hview, h⟩ := bind_eq_ok.mp h
  cases h
  have hname : Unbroken ("class " ++ w.name ++ "(Component[") := hw.name.unbroken.between rfl rfl
  refine ⟨_, rfl, (hname.append hg.unbroken).append (unbroken_fixed rfl), ?_⟩
  have hhints : ∀ a ∈ w.hints types, Unbroken a.1 ∧ Unbroken a.2 := by
    intro a ha
    obtain ⟨f, hf, rfl⟩ := List.mem_map.mp ha
    exact ⟨(hn.fields f hf).unbroken, htypes.hintOf f.type.toList⟩
  have hfields := unbroken_lines (fieldLines_unbroken hhints) (constructorLines_unbroken hhints)
  have hdefault := unbroken_lines unbroken_blank (defaultLines_unbroken hw.name hliterals)
  have hhelpers := unbroken_lines unbroken_blank (helpersLines_unbroken hg hw hn)
  have hend := unbroken_lines (eventLines_unbroken hg hw hvs)
    (unbroken_lines unbroken_blank (viewLines_unbroken hg hw hview))
  have hall := unbroken_lines (unbroken_lines (unbroken_lines hfields hdefault) hhelpers) hend
  simpa [Line.blank] using hall

/-- **The source of a widget is an enumeration and a class, and nothing else of it stands at the
margin.** No line of it goes on in another. -/
theorem component_cases (hw : w.Worded) {types : TypeMap} (htypes : types.Unbroken)
    {messages : String} (hm : Named messages) {c : Component}
    (h : w.component types messages = .ok c) : ∃ members body,
      c.lines = .at0 ("class " ++ messages ++ "(Enum):") :: Line.indented members ++
        ([.blank, .blank] ++ .at0 ("class " ++ w.name ++ "(Component[" ++ messages ++ "]):") ::
          Line.indented body) ∧
      UnbrokenLines c.lines := by
  obtain ⟨symbols, lines, hdeclared, -, hvariants, hlines, rfl⟩ := component_parts h
  have hvs := checkNames_named hvariants
  obtain ⟨members, henum, hfirst, hmembers⟩ := enumLines_cases hm hvs
  obtain ⟨body, rfl, hsecond, hbody⟩ := classLines_cases (g := w.naming messages) hm hw
    (declaredNames_named (checkNames_named hdeclared)) htypes hvs hlines
  have hblanks := unbroken_lines unbroken_blank unbroken_blank
  refine ⟨members, body, ?_, ?_⟩
  · dsimp only
    rw [henum, List.append_assoc]
    rfl
  · dsimp only
    rw [henum, List.append_assoc]
    exact unbroken_lines (unbroken_below hfirst hmembers)
      (unbroken_lines hblanks (unbroken_below hsecond hbody))

end Widget

/-! ## Classes of a text -/

namespace Generation

/-- The name of the class whose definition a line begins with, at the margin. -/
def className? : List Char → Option String
  | 'c' :: 'l' :: 'a' :: 's' :: 's' :: ' ' :: rest => some (String.ofList (rest.takeWhile nameChar))
  | _ => none

/-- The classes defined at the margin of a text, in their order. -/
def classes (text : String) : List String :=
  (text.toList.splitOnP isBreak).filterMap className?

/-- The class of a line. -/
def lineClass? (line : String) : Option String := className? line.toList

/-- What is written line by line is read line by line. -/
theorem splitOnP_written {ts : List String} (h : ∀ t ∈ ts, Unbroken t) :
    (written ts).splitOnP isBreak = ts.map String.toList ++ [[]] := by
  induction ts with
  | nil => rfl
  | cons t rest ih =>
    have hsplit : written (t :: rest) = t.toList ++ '\n' :: written rest := by
      simp [written]
    rw [hsplit, List.splitOnP_append_cons_of_forall_mem (h t List.mem_cons_self) '\n' rfl,
      ih fun t ht => h t (List.mem_cons_of_mem _ ht)]
    rfl

theorem lineClass?_class {name behind : String} (hname : Named name)
    (hbehind : behind.toList.head?.all (!nameChar ·) = true) :
    lineClass? ("class " ++ name ++ behind) = some name := by
  have hclass : ("class " ++ name ++ behind).toList
      = 'c' :: 'l' :: 'a' :: 's' :: 's' :: ' ' :: (name.toList ++ behind.toList) := by
    rw [String.toList_append, String.toList_append]
    rfl
  have hstop : behind.toList.takeWhile nameChar = [] := by
    cases hcs : behind.toList with
    | nil => rfl
    | cons c cs =>
      rw [hcs, List.head?_cons, Option.all_some, Bool.not_eq_true'] at hbehind
      exact List.takeWhile_cons_of_neg (by rw [hbehind]; decide)
  rw [lineClass?, hclass, className?, List.takeWhile_append_of_pos hname, hstop, List.append_nil,
    String.ofList_toList]

theorem render_unbroken {l : Line} (h : Unbroken l.text) (width : Int) (n : Nat) :
    Unbroken ({ l with level := n }.render width) := by
  unfold Line.render
  split
  · exact unbroken_fixed rfl
  · refine Unbroken.append (fun c hc => ?_) h
    rw [String.toList_ofList] at hc
    rw [List.eq_of_mem_replicate hc]
    rfl

/-- A line further in than the margin begins no class there. -/
theorem lineClass?_indented {width : Int} (hwidth : 1 ≤ width) {l : Line} (hl : 0 < l.level) :
    lineClass? (l.render width) = none := by
  unfold Line.render
  split
  · rfl
  · have hblanks : 0 < (l.level * width).toNat :=
      Int.lt_toNat.mpr (Int.mul_pos (by omega) (by omega))
    obtain ⟨n, hn⟩ := Nat.exists_eq_succ_of_ne_zero hblanks.ne'
    rw [lineClass?, String.toList_append, String.toList_ofList, hn, List.replicate_succ]
    rfl

section Sinks

variable {width : Int}

theorem rendered_indented (hwidth : 1 ≤ width) (ls : List Line) :
    (({ indentWidth := width } : Sink).rendered (Line.indented ls)).filterMap lineClass? = [] := by
  rw [List.filterMap_eq_nil_iff]
  intro t ht
  obtain ⟨l, hl, rfl⟩ := List.mem_map.mp ht
  obtain ⟨m, -, rfl⟩ := List.mem_map.mp hl
  exact lineClass?_indented hwidth (by dsimp only; omega)

/-- A line at the margin with others further in below it. -/
theorem rendered_below (hwidth : 1 ≤ width) (text : String) (ls : List Line) :
    (({ indentWidth := width } : Sink).rendered (.at0 text :: Line.indented ls)).filterMap
      lineClass? = (lineClass? text).toList := by
  have hfirst : ({ indentWidth := width } : Sink).rendered (.at0 text :: Line.indented ls)
      = text :: ({ indentWidth := width } : Sink).rendered (Line.indented ls) :=
    congrArg (· :: _) (Sink.render_at0 width text)
  rw [hfirst, List.filterMap_cons, rendered_indented hwidth]
  cases lineClass? text <;> rfl

/-- A component defines its messages and its widget. -/
theorem alone_classes (hwidth : 1 ≤ width) {w : Widget} (hw : w.Worded) {types : TypeMap}
    (htypes : types.Unbroken) {messages : String} (hm : Named messages) {c : Component}
    (h : w.component types messages = .ok c) :
    (Sink.alone width c).body.filterMap lineClass? = [messages, w.name] ∧
      ∀ t ∈ (Sink.alone width c).body, Unbroken t := by
  obtain ⟨members, body, hlines, hunbroken⟩ := Widget.component_cases hw htypes hm h
  rw [Sink.alone_body]
  constructor
  · have hfirst : lineClass? ("class " ++ messages ++ "(Enum):") = some messages :=
      lineClass?_class hm rfl
    have hsecond : lineClass? ("class " ++ w.name ++ "(Component[" ++ messages ++ "]):")
        = some w.name := by
      have hbehind : ("(Component[" ++ messages ++ "]):").toList.head?.all (!nameChar ·) = true := by
        rw [String.toList_append, String.toList_append]
        rfl
      rw [← lineClass?_class hw.name hbehind]
      simp only [String.append_assoc]
    have hblanks : (({ indentWidth := width } : Sink).rendered [.blank, .blank]).filterMap
        lineClass? = [] := rfl
    rw [hlines, Sink.rendered_append, Sink.rendered_append, List.filterMap_append,
      List.filterMap_append, rendered_below hwidth, rendered_below hwidth, hblanks, hfirst, hsecond]
    rfl
  · intro t ht
    obtain ⟨l, hl, rfl⟩ := List.mem_map.mp ht
    exact render_unbroken (hunbroken l hl) _ _

/-- All components of a unit define their messages and their widgets. -/
theorem placed_classes (hwidth : 1 ≤ width) {o : GenerationOptions} (htypes : o.types.Unbroken)
    {messages : Widget → String} {ws : List Widget} {cs : List Component}
    (h : Components o messages ws cs) (hws : ∀ w ∈ ws, w.Worded ∧ Named (messages w)) :
    ((cs.map (Sink.alone width)).flatMap fun s => s.body ++ ["", ""]).filterMap lineClass?
        = ws.flatMap (fun w => [messages w, w.name]) ∧
      ∀ t ∈ (cs.map (Sink.alone width)).flatMap fun s => s.body ++ ["", ""], Unbroken t := by
  induction h with
  | nil => exact ⟨rfl, nofun⟩
  | @cons w c ws cs hc _ ih =>
    obtain ⟨hw, hm⟩ := hws w List.mem_cons_self
    obtain ⟨hclasses, hunbroken⟩ := alone_classes hwidth hw htypes hm hc
    obtain ⟨hrest, hunbroken'⟩ := ih fun w hw => hws w (List.mem_cons_of_mem _ hw)
    have hempty : ["", ""].filterMap lineClass? = [] := rfl
    rw [List.map_cons, List.flatMap_cons, List.flatMap_cons]
    constructor
    · rw [List.filterMap_append, List.filterMap_append, hclasses, hempty, hrest, List.append_nil]
    · have hblank : Unbroken "" := unbroken_fixed rfl
      exact List.forall_mem_append.mpr ⟨List.forall_mem_append.mpr ⟨hunbroken,
        List.forall_mem_cons.mpr ⟨hblank, List.forall_mem_singleton.mpr hblank⟩⟩, hunbroken'⟩

end Sinks

/-- Empty lines around others are not there for anything that reads nothing off them. -/
theorem filterMap_trimmed {α : Type} {f : String → Option α} (hf : f "" = none)
    (body : List String) : (Sink.trimmed body).filterMap f = body.filterMap f := by
  have hdrop : ∀ ls : List String, (ls.dropWhile (· == "")).filterMap f = ls.filterMap f := by
    intro ls
    have hempty : (ls.takeWhile (· == "")).filterMap f = [] := by
      rw [List.filterMap_eq_nil_iff]
      intro l hl
      have hl' := List.all_eq_true.mp List.all_takeWhile l hl
      rwa [beq_iff_eq.mp hl']
    conv_rhs => rw [← List.takeWhile_append_dropWhile (p := (· == "")) (l := ls)]
    rw [List.filterMap_append, hempty, List.nil_append]
  rw [Sink.trimmed, List.filterMap_reverse, hdrop, List.filterMap_reverse, List.reverse_reverse,
    hdrop]

theorem mem_of_mem_trimmed {body : List String} {l : String} (h : l ∈ Sink.trimmed body) :
    l ∈ body := by
  have hmem := (List.dropWhile_suffix _).subset (List.mem_reverse.mp h)
  exact (List.dropWhile_suffix _).subset (List.mem_reverse.mp hmem)

theorem header_classes {file : Option String}
    (hfile : ∀ f ∈ file, Unbroken (Path.ofText f).name) :
    ∀ l ∈ header file, Unbroken l ∧ lineClass? l = none := by
  have hline : Unbroken headerLine ∧ lineClass? headerLine = none :=
    ⟨unbroken_fixed rfl, rfl⟩
  cases file with
  | none => exact List.forall_mem_singleton.mpr hline
  | some f =>
    refine List.forall_mem_cons.mpr ⟨hline, List.forall_mem_singleton.mpr ⟨?_, ?_⟩⟩
    · exact (unbroken_fixed rfl).append (hfile f rfl)
    · rw [lineClass?, String.toList_append]
      rfl

/-- What a unit imports has no line ends. -/
theorem importLines_classes {paths : List String}
    (h : ∀ p ∈ paths, p ∈ Widget.commonImports ++ ["typing.Any"]) :
    ∀ l ∈ Import.lines paths, Unbroken l ∧ lineClass? l = none := by
  have hall : (Widget.commonImports ++ ["typing.Any"]).all (fun p =>
      !(Import.ofPath p).source.toList.any isBreak &&
        (Import.ofPath p).name.all (!·.toList.any isBreak)) = true := by
    decide +kernel
  have hparts : ∀ p ∈ paths, Unbroken (Import.ofPath p).source ∧
      ∀ n, (Import.ofPath p).name = some n → Unbroken n := by
    intro p hp
    have hpath := List.all_eq_true.mp hall p (h p hp)
    rw [Bool.and_eq_true, Bool.not_eq_true'] at hpath
    refine ⟨unbroken_fixed hpath.1, fun n hn => unbroken_fixed ?_⟩
    have hname := hpath.2
    rwa [hn, Option.all_some, Bool.not_eq_true'] at hname
  intro l hl
  obtain ⟨p, hp, rfl | ⟨names, hnames, rfl⟩⟩ := Import.mem_lines hl
  · refine ⟨(unbroken_fixed rfl).append (hparts p hp).1, ?_⟩
    rw [lineClass?, String.toList_append]
    rfl
  · have hcomma : Unbroken (commaSeparated names) := by
      refine unbroken_commaSeparated fun n hn => ?_
      obtain ⟨q, hq, hname⟩ := hnames n hn
      exact (hparts q hq).2 n hname
    refine ⟨((hparts p hp).1.between rfl rfl).append hcomma, ?_⟩
    rw [lineClass?, String.toList_append, String.toList_append, String.toList_append]
    rfl

/-! ## Classes of a unit -/

/-- The name of a widget's messages, alone in its unit or not. -/
def enumName (alone : Bool) (name : String) : String := if alone then "Msg" else name ++ "Msg"

/-- The classes of some widgets. -/
def classesFor (names : List String) : List String :=
  names.flatMap fun n => [enumName (names.length == 1) n, n]

/-- What a unit imports for its classes. -/
def importedNames : List String := ["Component", "View", "Enum"]

/-- Whether widgets can share a unit without a clash of their names. -/
structure Apart (names : List String) : Prop where
  nodup : names.Nodup
  imported : ∀ n ∈ names, n ∉ importedNames
  messages : ∀ n ∈ names, enumName (names.length == 1) n ∉ names

theorem enumName_not_imported (alone : Bool) (name : String) :
    enumName alone name ∉ importedNames := by
  have hlast : (enumName alone name).toList.getLast? = some 'g' := by
    unfold enumName
    split
    · rfl
    · rw [String.toList_append, List.getLast?_append]
      rfl
  have hall : importedNames.all (·.toList.getLast? != some 'g') = true := by decide +kernel
  intro hmem
  exact bne_iff_ne.mp (List.all_eq_true.mp hall _ hmem) hlast

theorem enumName_injective {names : List String} {m n : String} (hm : m ∈ names) (hn : n ∈ names)
    (h : enumName (names.length == 1) m = enumName (names.length == 1) n) : m = n := by
  unfold enumName at h
  split at h
  · next hlength =>
    obtain ⟨x, rfl⟩ := List.length_eq_one_iff.mp (beq_iff_eq.mp hlength)
    rw [List.mem_singleton.mp hm, List.mem_singleton.mp hn]
  · have hlist := congrArg String.toList h
    rw [String.toList_append, String.toList_append] at hlist
    exact String.toList_injective (List.append_cancel_right hlist)

/-- The classes of widgets are apart exactly if the widgets are. -/
theorem classesFor_apart_iff (names : List String) :
    (classesFor names).Nodup ∧ (∀ n ∈ classesFor names, n ∉ importedNames) ↔ Apart names := by
  rw [classesFor, List.nodup_flatMap]
  constructor
  · rintro ⟨⟨hown, hothers⟩, himported⟩
    refine ⟨?_, fun n hn => ?_, fun n hn henum => ?_⟩
    · refine hothers.imp fun {m n} hdisjoint => ?_
      rintro rfl
      exact hdisjoint List.mem_cons_self List.mem_cons_self
    · exact himported n (List.mem_flatMap.mpr
        ⟨n, hn, List.mem_cons_of_mem _ List.mem_cons_self⟩)
    · -- it is the widget's own name, or that of another
      by_cases hself : enumName (names.length == 1) n = n
      · have hpair := hown n hn
        rw [hself, List.nodup_cons] at hpair
        exact hpair.1 List.mem_cons_self
      · have hsymm : Std.Symm (Function.onFun List.Disjoint
          fun n => [enumName (names.length == 1) n, n]) :=
          ⟨fun _ _ h _ hc hd => h hd hc⟩
        have hdisjoint := hothers.forall hn henum (Ne.symm hself)
        exact hdisjoint List.mem_cons_self (List.mem_cons_of_mem _ List.mem_cons_self)
  · intro h
    refine ⟨⟨fun n hn => ?_, ?_⟩, fun c hc => ?_⟩
    · refine List.nodup_cons.mpr ⟨fun hself => ?_, List.nodup_singleton n⟩
      have henum := h.messages n hn
      rw [List.mem_singleton.mp hself] at henum
      exact henum hn
    · refine h.nodup.imp_of_mem fun {m n} hm hn hne c hc hc' => ?_
      simp only [List.mem_cons, List.not_mem_nil, or_false] at hc hc'
      obtain rfl | rfl := hc
      · obtain henum | rfl := hc'
        · exact hne (enumName_injective hm hn henum)
        · exact h.messages m hm hn
      · obtain rfl | rfl := hc'
        · exact h.messages n hn hm
        · exact hne rfl
    · obtain ⟨n, hn, hc⟩ := List.mem_flatMap.mp hc
      simp only [List.mem_cons, List.not_mem_nil, or_false] at hc
      obtain rfl | rfl := hc
      · exact enumName_not_imported _ n
      · exact h.imported c hn

/-! ## The widgets of a unit -/

/-- A name comes to others, unless it is there. -/
def addName (names : List String) (name : String) : List String :=
  if name ∈ names then names else names ++ [name]

theorem putVariants_names (name : String) (variants : List String) :
    ∀ table : List (String × List String),
      (putVariants name variants table).map (·.1) = addName (table.map (·.1)) name
  | [] => rfl
  | (n, vs) :: rest => by
    have hrest := putVariants_names name variants rest
    unfold addName at hrest ⊢
    unfold putVariants
    by_cases hn : n = name
    · subst hn
      simp
    · rw [if_neg hn, List.map_cons, hrest, List.map_cons]
      by_cases hmem : name ∈ rest.map (·.1)
      · rw [if_pos hmem, if_pos (List.mem_cons_of_mem _ hmem)]
      · have hnot : name ∉ n :: rest.map (·.1) :=
          List.not_mem_cons_of_ne_of_not_mem (Ne.symm hn) hmem
        rw [if_neg hmem, if_neg hnot, List.cons_append]

theorem variantsOf_names {o : GenerationOptions} {messages : Widget → String} {ws : List Widget}
    {cs : List Component} (h : Components o messages ws cs) (table : List (String × List String)) :
    (variantsOf ws cs table).map (·.1) = (ws.map (·.name)).foldl addName (table.map (·.1)) := by
  induction h generalizing table with
  | nil => rfl
  | @cons w c ws cs _ _ ih =>
    have hstep := ih (putVariants w.name c.variants table)
    rw [putVariants_names] at hstep
    exact hstep

/-- Names come in their order, each once, and so all of them if none is there twice. -/
theorem foldl_addName_eq_iff (names : List String) :
    names.foldl addName [] = names ∧ (names.foldl addName []).Nodup ↔ names.Nodup := by
  have hadded : ∀ (names added : List String), (added ++ names).Nodup →
      names.foldl addName added = added ++ names := by
    intro names
    induction names with
    | nil => exact fun added _ => (List.append_nil added).symm
    | cons n rest ih =>
      intro added h
      have hnot : n ∉ added := fun hmem =>
        (List.nodup_append.mp h).2.2 n hmem n List.mem_cons_self rfl
      rw [List.foldl_cons, addName, if_neg hnot, ih _ (by simpa using h), List.append_assoc]
      rfl
  constructor
  · rintro ⟨he, hnodup⟩
    rwa [he] at hnodup
  · intro h
    have he := hadded names [] h
    rw [List.nil_append] at he
    rw [he]
    exact ⟨rfl, h⟩

/-! ## The text of a unit -/

theorem widgetsOf_names {o : GenerationOptions} {file : Option String} {decls : List TypeDecl}
    {ws : List Widget} (h : widgetsOf o file decls = .ok ws) :
    ws.map (·.name) = decls.map (·.name) := by
  have hall := widgetsOf_eq_ok_iff.mp h
  clear h
  induction hall with
  | nil => rfl
  | cons hw _ ih => rw [List.map_cons, List.map_cons, (ofType_reflects hw).name, ih]

theorem widgets_ne_nil {source : String} {file : Option String} {o : GenerationOptions}
    {u : GeneratedUnit} {code : Code} (hparse : parse source file = .ok code)
    (h : ofSource source file o = .ok u) : code.widgets ≠ [] := by
  intro hnil
  unfold ofSource at h
  rw [hparse] at h
  dsimp only at h
  rw [ofCode, hnil] at h
  cases h

/-- What the components of a unit import is what a component may import. -/
theorem placed_imports {o : GenerationOptions} {messages : Widget → String} {ws : List Widget}
    {cs : List Component} (h : Components o messages ws cs) (width : Int) :
    ∀ p ∈ (cs.map (Sink.alone width)).flatMap (·.imports),
      p ∈ Widget.commonImports ++ ["typing.Any"] := by
  induction h with
  | nil => exact nofun
  | @cons w c ws cs hc _ ih =>
    rw [List.map_cons, List.flatMap_cons]
    refine List.forall_mem_append.mpr ⟨fun p hp => ?_, ih⟩
    have hpath := Sink.mem_alone_imports.mp hp
    rw [component_imports hc, Widget.importsFor] at hpath
    split at hpath
    · exact hpath
    · exact List.mem_append_left _ hpath

/-- Everything that reads a text line by line, and nothing off an empty line, reads what is written
there. -/
theorem filterMap_intercalate {α : Type} {f : List Char → Option α} (hf : f [] = none)
    {ls : List String} (hne : ls ≠ []) (h : ∀ l ∈ ls, Unbroken l) :
    (("\n".intercalate ls ++ "\n").toList.splitOnP isBreak).filterMap f
      = ls.filterMap fun l => f l.toList := by
  rw [written_intercalate hne, splitOnP_written h, List.filterMap_append, List.filterMap_map,
    List.filterMap_cons_none hf]
  exact List.append_nil _

/-- What is read off a unit line by line is read off its header, its imports and what its components
leave. -/
theorem unit_read {source : String} {file : Option String} {o : GenerationOptions}
    {u : GeneratedUnit} (hwidth : 1 ≤ o.indentWidth) (htypes : o.types.Unbroken)
    (hfile : ∀ f ∈ file, Unbroken (Path.ofText f).name) (h : ofSource source file o = .ok u) :
    ∃ code ws cs, parse source file = .ok code ∧ widgetsOf o file code.widgets = .ok ws ∧
      (∀ w ∈ ws, w.Worded ∧ Named (messagesName (ws.length == 1) w)) ∧
      Components o (messagesName (ws.length == 1)) ws cs ∧ u.variants = variantsOf ws cs [] ∧
      ∀ {α : Type} (f : List Char → Option α), f [] = none →
        (u.text.toList.splitOnP isBreak).filterMap f
          = (header file).filterMap (fun l => f l.toList) ++
            (Import.lines ((cs.map (Sink.alone o.indentWidth)).flatMap (·.imports))).filterMap
              (fun l => f l.toList) ++
            ((cs.map (Sink.alone o.indentWidth)).flatMap fun s => s.body ++ ["", ""]).filterMap
              fun l => f l.toList := by
  obtain ⟨code, ws, s, table, hparse, hws, hs, rfl⟩ := ofSource_cases h
  obtain ⟨cs, hcs, he⟩ := emitAll_eq_ok_iff.mp hs
  cases he
  have hne : ws ≠ [] := by
    rintro rfl
    exact widgets_ne_nil hparse h (List.map_eq_nil_iff.mp (widgetsOf_names hws).symm)
  have hworded : ∀ w ∈ ws, w.Worded ∧ Named (messagesName (ws.length == 1) w) := by
    intro w hw
    have hw' := widgetsOf_worded (widgets_worded hparse) hws w hw
    exact ⟨hw', messagesName_named hw' _⟩
  refine ⟨code, ws, cs, hparse, hws, hworded, hcs, rfl, fun f hf => ?_⟩
  have hheader := header_classes hfile
  have himports := importLines_classes (placed_imports hcs o.indentWidth)
  obtain ⟨-, hunbroken⟩ := placed_classes hwidth htypes hcs hworded
  have hempty : Unbroken "" := unbroken_fixed rfl
  have hskip (ls : List String) : ("" :: ls).filterMap (fun l => f l.toList)
      = ls.filterMap fun l => f l.toList := List.filterMap_cons_none hf
  dsimp only
  rw [placed_text hcs hne (header_ne_nil file), filterMap_intercalate hf]
  · rw [List.filterMap_append, List.filterMap_append, hskip, hskip, hskip, filterMap_trimmed hf]
  · exact List.append_ne_nil_of_left_ne_nil
      (List.append_ne_nil_of_left_ne_nil (header_ne_nil file) _) _
  · refine List.forall_mem_append.mpr ⟨List.forall_mem_append.mpr ⟨fun l hl => (hheader l hl).1,
      List.forall_mem_cons.mpr ⟨hempty, fun l hl => (himports l hl).1⟩⟩, ?_⟩
    exact List.forall_mem_cons.mpr ⟨hempty, List.forall_mem_cons.mpr ⟨hempty,
      fun l hl => hunbroken l (mem_of_mem_trimmed hl)⟩⟩

/-- **A unit defines the classes of its widgets, and no others.** -/
theorem unit_classes {source : String} {file : Option String} {o : GenerationOptions}
    {u : GeneratedUnit} (hwidth : 1 ≤ o.indentWidth) (htypes : o.types.Unbroken)
    (hfile : ∀ f ∈ file, Unbroken (Path.ofText f).name) (h : ofSource source file o = .ok u) :
    ∃ code, parse source file = .ok code ∧
      classes u.text = classesFor (code.widgets.map (·.name)) ∧
      u.widgets = (code.widgets.map (·.name)).foldl addName [] := by
  obtain ⟨code, ws, cs, hparse, hws, hworded, hcs, hvariants, hread⟩ :=
    unit_read hwidth htypes hfile h
  have hnames := widgetsOf_names hws
  refine ⟨code, hparse, ?_, ?_⟩
  · have hheader : (header file).filterMap lineClass? = [] :=
      List.filterMap_eq_nil_iff.mpr fun l hl => (header_classes hfile l hl).2
    have himports := List.filterMap_eq_nil_iff.mpr fun l hl =>
      (importLines_classes (placed_imports hcs o.indentWidth) l hl).2
    obtain ⟨hclasses, -⟩ := placed_classes hwidth htypes hcs hworded
    refine (hread className? rfl).trans ?_
    show (header file).filterMap lineClass? ++ (Import.lines _).filterMap lineClass? ++
      List.filterMap lineClass? _ = _
    rw [hheader, himports, hclasses, ← hnames, classesFor, List.length_map, List.flatMap_map]
    rfl
  · rw [GeneratedUnit.widgets, hvariants, variantsOf_names hcs, hnames]
    rfl

/-- **The classes of a unit have different names, and none of the imported ones, exactly if so have
its widgets, and no enumeration is called like a widget.** -/
theorem unit_classes_apart_iff {source : String} {file : Option String} {o : GenerationOptions}
    {u : GeneratedUnit} (hwidth : 1 ≤ o.indentWidth) (htypes : o.types.Unbroken)
    (hfile : ∀ f ∈ file, Unbroken (Path.ofText f).name) (h : ofSource source file o = .ok u) :
    ∃ code, parse source file = .ok code ∧
      classes u.text = classesFor (code.widgets.map (·.name)) ∧
      ((classes u.text).Nodup ∧ (∀ n ∈ classes u.text, n ∉ importedNames) ∧
        u.widgets = code.widgets.map (·.name) ∧ u.widgets.Nodup ↔
          Apart (code.widgets.map (·.name))) := by
  obtain ⟨code, hparse, hclasses, hwidgets⟩ := unit_classes hwidth htypes hfile h
  refine ⟨code, hparse, hclasses, ?_⟩
  rw [hclasses, hwidgets, foldl_addName_eq_iff]
  constructor
  · rintro ⟨hnodup, himported, -⟩
    exact (classesFor_apart_iff _).mp ⟨hnodup, himported⟩
  · intro hapart
    obtain ⟨hnodup, himported⟩ := (classesFor_apart_iff _).mpr hapart
    exact ⟨hnodup, himported, hapart.nodup⟩

/-- A unit of widgets with given names. -/
theorem exists_unit {source : String} {names : List String}
    (hruns : (ofSource source none {}).isOk = true)
    (hnames : (parse source none).toOption.map (fun code => code.widgets.map (·.name))
      = some names) :
    ∃ u, ofSource source none {} = .ok u ∧
      ∀ code, parse source none = .ok code → code.widgets.map (·.name) = names := by
  obtain ⟨u, hu⟩ := exists_of_isOk hruns
  refine ⟨u, hu, fun code hcode => ?_⟩
  rw [hcode] at hnames
  exact Option.some.inj hnames

/-- Two widgets. -/
def twoWidgets : String :=
  "type A is Widget { fn view() { col {} } } type B is Widget { fn view() { row {} } }"

/-- Their classes are apart. -/
theorem two_widgets_apart : ∃ u, ofSource twoWidgets none {} = .ok u ∧
    classes u.text = ["AMsg", "A", "BMsg", "B"] ∧ (classes u.text).Nodup ∧
      u.widgets = ["A", "B"] := by
  have hnames : (parse twoWidgets none).toOption.map (fun code => code.widgets.map (·.name))
      = some ["A", "B"] := by decide +kernel
  obtain ⟨u, hu, hcodes⟩ := exists_unit (by decide +kernel) hnames
  obtain ⟨code, hcode, hclasses, hiff⟩ := unit_classes_apart_iff (by decide)
    TypeMap.standard_unbroken (fun f hf => absurd hf (Option.not_mem_none f)) hu
  rw [hcodes code hcode] at hclasses hiff
  obtain ⟨hnodup, -, hwidgets, -⟩ := hiff.mpr ⟨by decide, by decide, by decide⟩
  exact ⟨u, hu, hclasses, hnodup, hwidgets⟩

/-- A widget that is called like its messages. -/
def loneMsg : String := "type Msg is Widget { fn view() { col {} } }"

/-- The class of the widget takes the place of the enumeration. -/
theorem lone_msg_clashes : ∃ u, ofSource loneMsg none {} = .ok u ∧
    classes u.text = ["Msg", "Msg"] := by
  have hnames : (parse loneMsg none).toOption.map (fun code => code.widgets.map (·.name))
      = some ["Msg"] := by decide +kernel
  obtain ⟨u, hu, hcodes⟩ := exists_unit (by decide +kernel) hnames
  obtain ⟨code, hcode, hclasses, -⟩ := unit_classes (by decide) TypeMap.standard_unbroken
    (fun f hf => absurd hf (Option.not_mem_none f)) hu
  rw [hcodes code hcode] at hclasses
  exact ⟨u, hu, hclasses⟩

end Generation

end Widgetry
