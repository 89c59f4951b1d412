import Widgetry.Proofs.Generation.Refusals
import Widgetry.Proofs.Generation.Results
import Widgetry.Proofs.Generation.UnitSuites

/-!
# The signatures of generated methods

The source of a widget defines a constructor, a default instance, the widget's own methods, the
event method and the view. What they are called and what they are given comes from the declaration,
where other names are allowed than in the source.

> `Widget.component_definitions`: the lines of the source that begin a definition are the signatures
> of these methods, whatever stands in their bodies;
> `Widget.signatures_valid_iff`: all names in them are checked but for that of the event, and none
> of them is compared with another.
-/

namespace Widgetry

open Lexical
open Formula (IsName)

/-! ## Signatures -/

/-- What a method is given, with a hint or without. -/
structure Parameter where
  name : String
  hint : Option String := none

namespace Parameter

def text (p : Parameter) : String :=
  match p.hint with
  | some hint => p.name ++ ": " ++ hint
  | none => p.name

/-- The instance that a method belongs to. -/
def self : Parameter := ⟨"self", none⟩

end Parameter

/-- How a method is called, what it is given and what it answers. -/
structure Signature where
  name : String
  params : List Parameter
  result : Option String := none

namespace Signature

/-- The line that begins the definition. -/
def text (s : Signature) : String :=
  let arrow := match s.result with
    | some hint => " -> " ++ hint
    | none => ""
  "def " ++ s.name ++ "(" ++ commaSeparated (s.params.map Parameter.text) ++ ")" ++ arrow ++ ":"

/-- Whether the definition can be read: its names can be written, and no parameter has the name of
another. -/
structure Valid (s : Signature) : Prop where
  name : IsName s.name
  params : ∀ p ∈ s.params, IsName p.name
  distinct : (s.params.map (·.name)).Nodup

end Signature

/-- The methods that are generated for a widget. -/
def Widget.signatures (w : Widget) (types : TypeMap) (messages : String) : List Signature :=
  [⟨"__init__", .self :: (w.hints types).map fun a => ⟨a.1, some a.2⟩, some "None"⟩,
    ⟨"default", [⟨"cls", none⟩], some ("\"" ++ w.name ++ "\"")⟩] ++
  w.helpers.map (fun fn => ⟨fn.name, .self :: fn.paramNames.map (⟨·, none⟩), none⟩) ++
  [⟨"on", [.self, ⟨w.eventName, some messages⟩], some "None"⟩,
    ⟨"view", [.self], some ("View[" ++ messages ++ "]")⟩]

/-! ## Lines that begin a definition -/

/-- Whether a line begins a definition: its first word is `def`, and it ends with a colon. -/
def Line.isDefinition (l : Line) : Bool :=
  l.text.toList.takeWhile (· != ' ') == "def".toList && l.text.toList.getLast? == some ':'

/-- The lines that begin a definition, as they are written. -/
def definitions (ls : List Line) : List String := (ls.filter Line.isDefinition).map (·.text)

section Definitions

variable {s : String} {ls ms : List Line}

@[simp]
theorem definitions_append : definitions (ls ++ ms) = definitions ls ++ definitions ms := by
  simp [definitions]

@[simp]
theorem definitions_indented : definitions (Line.indented ls) = definitions ls := by
  have hfilter : (Line.indented ls).filter Line.isDefinition
      = Line.indented (ls.filter Line.isDefinition) := List.filter_map
  rw [definitions, hfilter, Line.indented, List.map_map]
  rfl

theorem definitions_cons (l : Line) : definitions (l :: ls) = definitions [l] ++ definitions ls :=
  @definitions_append [l] ls

theorem definitions_flatMap {α : Type} (f : α → List Line) (as : List α) :
    definitions (as.flatMap f) = as.flatMap fun a => definitions (f a) := by
  induction as with
  | nil => rfl
  | cons a rest ih => rw [List.flatMap_cons, List.flatMap_cons, definitions_append, ih]

theorem definitions_eq_nil (h : ∀ l ∈ ls, l.isDefinition = false) : definitions ls = [] := by
  rw [definitions, List.filter_eq_nil_iff.mpr fun l hl => by rw [h l hl]; decide]
  rfl

/-- What opens no block begins no definition. -/
theorem Plain.isDefinition (h : Plain s) : (Line.at0 s).isDefinition = false := by
  refine Bool.eq_false_iff.mpr fun hdefinition => ?_
  obtain ⟨hword, hcolon⟩ := Bool.and_eq_true_iff.mp hdefinition
  have hopens : (Line.at0 s).opens = true := by
    refine Bool.and_eq_true_iff.mpr ⟨?_, hcolon⟩
    rw [beq_iff_eq.mp hword]
    rfl
  rw [h.closed] at hopens
  cases hopens

/-- Nor does what begins with another letter. -/
theorem First.isDefinition (h : First (· != 'd') s) : (Line.at0 s).isDefinition = false := by
  refine Bool.eq_false_iff.mpr fun hdefinition => ?_
  have hword := congrArg List.head? (beq_iff_eq.mp (Bool.and_eq_true_iff.mp hdefinition).1)
  rw [List.head?_takeWhile] at hword
  have hhead : s.toList.head? = some 'd' := (Option.filter_eq_some_iff.mp hword).1
  rw [First, hhead] at h
  cases h

theorem Plain.definitions (h : Plain s) : definitions [.at0 s] = [] :=
  definitions_eq_nil (List.forall_mem_singleton.mpr h.isDefinition)

theorem First.definitions (h : First (· != 'd') s) : definitions [.at0 s] = [] :=
  definitions_eq_nil (List.forall_mem_singleton.mpr h.isDefinition)

theorem definitions_map {α : Type} {f : α → String} {as : List α}
    (h : ∀ a ∈ as, (Line.at0 (f a)).isDefinition = false) :
    definitions (as.map fun a => .at0 (f a)) = [] :=
  definitions_eq_nil fun l hl => by
    obtain ⟨a, ha, rfl⟩ := List.mem_map.mp hl
    exact h a ha

/-- A line with others below it. -/
theorem definitions_below (s : String) (ls : List Line) :
    definitions (.at0 s :: Line.indented ls) = definitions [.at0 s] ++ definitions ls := by
  rw [definitions_cons, definitions_indented]

/-- A signature begins a definition. -/
theorem Signature.definitions (s : Signature) : definitions [.at0 s.text] = [s.text] := by
  have hword : s.text.toList.takeWhile (· != ' ') = "def".toList := by
    unfold Signature.text
    simp only [String.append_assoc]
    exact firstWord_append (s := "def ") (by decide) _
  have hcolon : s.text.toList.getLast? = some ':' := by
    unfold Signature.text
    rw [String.toList_append]
    exact List.getLast?_concat
  have hdefinition : (Line.at0 s.text).isDefinition = true := by
    rw [Line.isDefinition]
    exact Bool.and_eq_true_iff.mpr ⟨beq_iff_eq.mpr hword, beq_iff_eq.mpr hcolon⟩
  rw [Widgetry.definitions, List.filter_cons_of_pos hdefinition]
  rfl

/-- So the lines of a method are one definition if its body has none. -/
theorem Signature.definitions_below {sig : Signature} (hs : s = sig.text)
    (hbody : Widgetry.definitions ls = []) :
    Widgetry.definitions (.at0 s :: Line.indented ls) = [sig.text] := by
  rw [Widgetry.definitions_below, hs, sig.definitions, hbody]
  rfl

end Definitions

/-! ## Bodies -/

namespace Stmt

variable {g : Naming}

mutual

/-- **A statement begins no definition**, though a name in it may be `def`. -/
theorem lines_definitions (hg : Named g.messages) : ∀ (s : Stmt) (locals : List String),
    s.Worded → definitions (s.lines g locals) = []
  | expr e _, locals, h => by
    cases h with
    | expr he => exact (expr_plain hg he locals).definitions
  | bind name value _ _ _, locals, h => by
    cases h with
    | bind hname hvalue => exact (bind_plain hg hname hvalue locals).definitions
  | assign target op value _, locals, h => by
    cases h with
    | assign htarget hvalue => exact (assign_plain hg htarget hvalue op locals).definitions
  | choose subject arms _, locals, h => by
    cases h with
    | choose _ _ hbodies =>
      have hhead : First (· != 'd') ("match " ++ subject.source g locals ++ ":") :=
        ((first_fixed rfl).append _).append _
      rw [lines, definitions_below, hhead.definitions, armLines_definitions hg arms locals hbodies]
      rfl
  | each name items body _, locals, h => by
    cases h with
    | each _ _ hbody =>
      have hhead : First (· != 'd') ("for " ++ name ++ " in " ++ items.source g locals ++ ":") :=
        ((((first_fixed rfl).append _).append _).append _).append _
      rw [lines, definitions_below, hhead.definitions, blockLines_definitions hg body _ hbody]
      rfl
  | fn _, _, _ => rfl
  | type _, _, _ => rfl

theorem blockLines_definitions (hg : Named g.messages) : ∀ (ss : List Stmt)
    (locals : List String), WordedBody ss → definitions (blockLines g locals ss) = []
  | [], _, _ => rfl
  | s :: rest, locals, h => by
    rw [blockLines, definitions_append, lines_definitions hg s locals (h s List.mem_cons_self),
      restLines_definitions hg rest _ fun s hs => h s (List.mem_cons_of_mem _ hs)]
    rfl

theorem restLines_definitions (hg : Named g.messages) : ∀ (ss : List Stmt)
    (locals : List String), WordedBody ss → definitions (restLines g locals ss) = []
  | [], _, _ => rfl
  | s :: rest, locals, h => by
    rw [restLines, definitions_append, lines_definitions hg s locals (h s List.mem_cons_self),
      restLines_definitions hg rest _ fun s hs => h s (List.mem_cons_of_mem _ hs)]
    rfl

theorem armLines_definitions (hg : Named g.messages) : ∀ (arms : List Arm)
    (locals : List String), (∀ a ∈ arms, ∀ s ∈ a.body, s.Worded) →
      definitions (armLines g locals arms) = []
  | [], _, _ => rfl
  | ⟨pattern, body, line⟩ :: rest, locals, h => by
    have hhead : First (· != 'd') ("case " ++ Arm.label g locals ⟨pattern, body, line⟩ ++ ":") :=
      ((first_fixed rfl).append _).append _
    rw [armLines_cons, definitions_append, definitions_below, hhead.definitions,
      blockLines_definitions hg body locals (h _ List.mem_cons_self),
      armLines_definitions hg rest locals fun a ha => h a (List.mem_cons_of_mem _ ha)]
    rfl

end

end Stmt

/-- No line that builds a view begins a definition. -/
theorem Template.lines_definitions {g : Naming} {t : Template} {ls : List Line}
    (h : t.lines g "return " "" = .ok ls) : definitions ls = [] := by
  have hreturn : Starts "return " := rfl
  have hlines := (lines_builds t (fun s _ => hreturn.append s) h).starts
  exact definitions_eq_nil fun l hl => (hlines l hl).plain.isDefinition

/-! ## The methods of a widget -/

theorem commaSeparated_eq_join (s : String) (ts : List String) :
    commaSeparated (s :: ts) = s ++ String.join (ts.map (", " ++ ·)) := by
  induction ts generalizing s with
  | nil => simp [commaSeparated]
  | cons t rest ih =>
    have hrest := ih t
    rw [commaSeparated] at hrest ⊢
    rw [String.intercalate_cons_cons, hrest, List.map_cons, String.join_cons]
    simp only [String.append_assoc]

namespace Widget

variable {g : Naming} {w : Widget} {types : TypeMap}

theorem enumLines_definitions (messages : String) {variants : List String}
    (hvs : ∀ v ∈ variants, Text.isIdentifier v = true) :
    definitions (enumLines messages variants) = [] := by
  have hhead : First (· != 'd') ("class " ++ messages ++ "(Enum):") :=
    ((first_fixed rfl).append _).append _
  refine (definitions_below _ _).trans ?_
  rw [hhead.definitions]
  cases variants with
  | nil => rfl
  | cons v rest =>
    refine definitions_map fun v hv => ?_
    exact (plain_line ((begins_identifier (hvs v hv)).append _) (quoted_edges v).2).isDefinition

theorem fieldLines_definitions {hints : List (String × String)}
    (h : ∀ a ∈ hints, Named a.1) : definitions (fieldLines hints) = [] := by
  cases hints with
  | nil => rfl
  | cons a rest =>
    rw [fieldLines, definitions_append,
      definitions_map fun a ha => (field_plain (h a ha) a.2).isDefinition]
    · rfl
    · exact nofun

theorem constructorLines_definitions (hints : List (String × String)) :
    definitions (constructorLines hints)
      = [Signature.text
          ⟨"__init__", .self :: hints.map fun a => ⟨a.1, some a.2⟩, some "None"⟩] := by
  refine Signature.definitions_below ?_ ?_
  · rw [Signature.text, List.map_cons, commaSeparated_eq_join, List.map_map, List.map_map,
      ← String.toList_inj]
    simp [Function.comp_def, Parameter.text, Parameter.self, String.append_assoc]
  · cases hints with
    | nil => rfl
    | cons a rest => exact definitions_map fun a _ =>
        First.isDefinition (((first_fixed rfl).append _).append _ |>.append _)

theorem defaultLines_definitions (name : String) (literals : List String) :
    definitions (defaultLines name literals)
      = [Signature.text ⟨"default", [⟨"cls", none⟩], some ("\"" ++ name ++ "\"")⟩] := by
  have hcall : First (· != 'd') ("return cls(" ++ commaSeparated literals ++ ")") :=
    ((first_fixed rfl).append _).append _
  have hhead : "def default(cls) -> \"" ++ name ++ "\":"
      = Signature.text ⟨"default", [⟨"cls", none⟩], some ("\"" ++ name ++ "\"")⟩ := by
    rw [← String.toList_inj]
    simp [Signature.text, Parameter.text, commaSeparated]
  exact (definitions_cons _).trans
    (congrArg ([] ++ ·) (Signature.definitions_below hhead hcall.definitions))

theorem helperBody_definitions (hg : Named g.messages) : ∀ (ss : List Stmt)
    (locals : List String), WordedBody ss → definitions (helperBody g locals ss) = []
  | [], _, _ => rfl
  | [s], locals, h => by
    have hs := h s List.mem_cons_self
    cases s with
    | expr e l => exact First.definitions ((first_fixed rfl).append _)
    | _ => exact Stmt.lines_definitions hg _ locals hs
  | s :: s' :: rest, locals, h => by
    rw [helperBody_cons, definitions_append,
      Stmt.lines_definitions hg s locals (h s List.mem_cons_self),
      helperBody_definitions hg (s' :: rest) _ fun s hs => h s (List.mem_cons_of_mem _ hs)]
    rfl

theorem helpersLines_definitions (hg : Named g.messages) {helpers : List FnDecl}
    (h : ∀ fn ∈ helpers, WordedBody fn.body) :
    definitions (helpersLines g helpers) = helpers.map fun fn => Signature.text
      ⟨fn.name, .self :: fn.paramNames.map (⟨·, none⟩), none⟩ := by
  induction helpers with
  | nil => rfl
  | cons fn rest ih =>
    obtain ⟨hfn, hrest⟩ := List.forall_mem_cons.mp h
    have hhead : definitions (helperLines g fn) = [Signature.text
        ⟨fn.name, .self :: fn.paramNames.map (⟨·, none⟩), none⟩] := by
      refine Signature.definitions_below ?_ (helperBody_definitions hg fn.body _ hfn)
      rw [Signature.text, List.map_cons, commaSeparated_eq_join, List.map_map, List.map_map,
        ← String.toList_inj]
      simp [Function.comp_def, Parameter.text, Parameter.self, String.append_assoc]
    rw [helpersLines, List.flatMap_cons, definitions_append, definitions_append, hhead,
      List.map_cons, ← ih hrest]
    rfl

theorem eventLines_definitions (hg : Named g.messages) (hw : w.Worded) {variants : List String}
    (hvs : ∀ v ∈ variants, Named v) : definitions (eventLines g w variants)
      = [Signature.text ⟨"on", [.self, ⟨w.eventName, some g.messages⟩], some "None"⟩] := by
  refine Signature.definitions_below ?_ ?_
  · rw [← String.toList_inj]
    simp [Signature.text, Parameter.text, Parameter.self, commaSeparated]
  · have hremarks : definitions ((w.unreferenced variants).map fun v =>
        .at0 ("# no view event references " ++ g.messages ++ "." ++ v)) = [] :=
      definitions_map fun v _ =>
        First.isDefinition ((((first_fixed rfl).append _).append _).append _)
    have hcase : ∀ c ∈ w.cases g.messages variants,
        definitions (caseLines g [w.eventName] c) = [] := by
      intro c hc
      have hhead : First (· != 'd') ("case " ++ c.1 ++ ":") :=
        ((first_fixed rfl).append _).append _
      have hbody := Stmt.blockLines_definitions hg c.2 [w.eventName]
        ((cases_worded hw hg hvs).2 c hc).2
      rw [caseLines, definitions_below, hhead.definitions, hbody]
      rfl
    rw [definitions_append, hremarks, List.nil_append]
    cases hcs : w.cases g.messages variants with
    | nil => rfl
    | cons first rest =>
      have hhead : First (· != 'd') ("match " ++ w.eventName ++ ":") :=
        ((first_fixed rfl).append _).append _
      refine (definitions_below _ _).trans ?_
      rw [hhead.definitions, definitions_flatMap, ← hcs,
        List.flatMap_eq_nil_iff.mpr hcase]
      rfl

theorem viewLines_definitions {ls : List Line} (h : viewLines g w = .ok ls) :
    definitions ls
      = [Signature.text ⟨"view", [.self], some ("View[" ++ g.messages ++ "]")⟩] := by
  obtain ⟨body, hbody, h⟩ := bind_eq_ok.mp h
  cases h
  refine Signature.definitions_below ?_ (Template.lines_definitions hbody)
  rw [← String.toList_inj]
  simp [Signature.text, Parameter.text, Parameter.self, commaSeparated]

theorem classLines_definitions (hg : Named g.messages) (hw : w.Worded) (hn : w.NamedParts)
    {variants : List String} (hvs : ∀ v ∈ variants, Named v) {ls : List Line}
    (h : classLines g w types variants = .ok ls) :
    definitions ls = (w.signatures types g.messages).map (·.text) := by
  obtain ⟨literals, -, h⟩ := bind_eq_ok.mp h
  obtain ⟨view, hview, h⟩ := bind_eq_ok.mp h
  cases h
  have hhints : ∀ a ∈ w.hints types, Named a.1 := by
    intro a ha
    obtain ⟨f, hf, rfl⟩ := List.mem_map.mp ha
    exact hn.fields f hf
  have hhead : First (· != 'd') ("class " ++ w.name ++ "(Component[" ++ g.messages ++ "]):") :=
    ((((first_fixed rfl).append _).append _).append _).append _
  have hblank (ls : List Line) : definitions (.blank :: ls) = definitions ls :=
    definitions_cons .blank
  refine (definitions_below _ _).trans ?_
  rw [hhead.definitions]
  simp only [definitions_append, hblank, fieldLines_definitions hhints,
    constructorLines_definitions, defaultLines_definitions, helpersLines_definitions hg hw.helpers,
    eventLines_definitions hg hw hvs, viewLines_definitions hview]
  simp [signatures]

/-- **The source of a widget defines its methods, and nothing else.** -/
theorem component_definitions (hw : w.Worded) {messages : String} (hm : Named messages)
    {comp : Component} (h : w.component types messages = .ok comp) :
    definitions comp.lines = (w.signatures types messages).map (·.text) := by
  obtain ⟨symbols, lines, hdeclared, -, hvariants, hlines, rfl⟩ := component_parts h
  have henum := enumLines_definitions messages (checkNames_identifiers hvariants)
  have hclass := classLines_definitions (g := w.naming messages) hm hw
    (declaredNames_named (checkNames_named hdeclared)) (checkNames_named hvariants) hlines
  rw [definitions_append, definitions_append, henum, hclass]
  rfl

/-! ## Names in signatures -/

/-- Whether the names that a widget's methods are given make signatures: the event has a name that
can be written, and no parameter has the name of another or of the instance. -/
structure SoundParameters (w : Widget) : Prop where
  event : IsName w.eventName
  notSelf : w.eventName ≠ "self"
  fields : ("self" :: w.fields.map (·.name)).Nodup
  helpers : ∀ fn ∈ w.helpers, ("self" :: fn.paramNames).Nodup

/-- The names that do not come from the declaration can be written. -/
theorem isName_own {x : String}
    (hx : x ∈ ["self", "cls", "__init__", "default", "on", "view"]) : IsName x := by
  have hall : ["self", "cls", "__init__", "default", "on", "view"].all
      (fun x => Text.isIdentifier x && !Text.isReserved x) = true := by
    decide +kernel
  simpa [IsName] using List.all_eq_true.mp hall x hx

/-- A method with checked names is given its instance and parameters of different names. -/
theorem method_valid_iff {name : String} (hname : IsName name) {params : List Parameter}
    (hparams : ∀ p ∈ params, IsName p.name) (result : Option String) :
    Signature.Valid ⟨name, .self :: params, result⟩ ↔ ("self" :: params.map (·.name)).Nodup where
  mp h := h.distinct
  mpr h := ⟨hname, List.forall_mem_cons.mpr ⟨isName_own List.mem_cons_self, hparams⟩, h⟩

/-- The names of the event method are those of the instance and of the event. -/
theorem event_valid_iff (event : String) (messages : String) :
    Signature.Valid ⟨"on", [.self, ⟨event, some messages⟩], some "None"⟩ ↔
      IsName event ∧ event ≠ "self" := by
  have hdistinct : ["self", event].Nodup ↔ event ≠ "self" := by simp [eq_comm]
  constructor
  · intro h
    exact ⟨h.params ⟨event, some messages⟩ (by simp), hdistinct.mp h.distinct⟩
  · rintro ⟨hname, hself⟩
    exact (method_valid_iff (isName_own (by simp)) (List.forall_mem_singleton.mpr hname) _).mpr
      (hdistinct.mpr hself)

/-- **The names in the signatures of a widget are checked but for that of the event, and none is
compared with another.** -/
theorem signatures_sound_iff (h : ∀ n ∈ w.declaredNames, IsName n) (types : TypeMap)
    (messages : String) :
    (∀ s ∈ w.signatures types messages, s.Valid) ↔ w.SoundParameters := by
  obtain ⟨hfields, hhelpers⟩ := forall_declaredNames h
  have hconstructor : Signature.Valid ⟨"__init__",
      .self :: (w.hints types).map fun a => ⟨a.1, some a.2⟩, some "None"⟩ ↔
        ("self" :: w.fields.map (·.name)).Nodup := by
    have hchecked : ∀ p ∈ (w.hints types).map fun a => (⟨a.1, some a.2⟩ : Parameter),
        IsName p.name := by
      intro p hp
      obtain ⟨a, ha, rfl⟩ := List.mem_map.mp hp
      obtain ⟨f, hf, rfl⟩ := List.mem_map.mp ha
      exact hfields f hf
    rw [method_valid_iff (isName_own (by simp)) hchecked, hints, List.map_map, List.map_map]
    rfl
  have hdefault (result : Option String) : Signature.Valid ⟨"default", [⟨"cls", none⟩], result⟩ :=
    ⟨isName_own (by simp), List.forall_mem_singleton.mpr (isName_own (by simp)),
      List.nodup_singleton _⟩
  have hhelper : ∀ fn ∈ w.helpers,
      (Signature.Valid ⟨fn.name, .self :: fn.paramNames.map (⟨·, none⟩), none⟩ ↔
        ("self" :: fn.paramNames).Nodup) := by
    intro fn hfn
    have hchecked : ∀ p ∈ fn.paramNames.map fun x => (⟨x, none⟩ : Parameter),
        IsName p.name := by
      intro p hp
      obtain ⟨x, hx, rfl⟩ := List.mem_map.mp hp
      exact (hhelpers fn hfn).2 x hx
    rw [method_valid_iff (hhelpers fn hfn).1 hchecked, List.map_map, Function.comp_def,
      List.map_id']
  have hview (result : Option String) : Signature.Valid ⟨"view", [.self], result⟩ :=
    (method_valid_iff (isName_own (by simp)) (fun p hp => by cases hp) result).mpr
      (List.nodup_singleton _)
  simp only [signatures, List.forall_mem_append, List.forall_mem_cons, List.forall_mem_map,
    hconstructor, hdefault, hview, event_valid_iff, true_and]
  constructor
  · rintro ⟨⟨⟨hfields, -⟩, hparams⟩, ⟨hevent, hself⟩, -⟩
    exact ⟨hevent, hself, hfields, fun fn hfn => (hhelper fn hfn).mp (hparams fn hfn)⟩
  · intro hsound
    exact ⟨⟨⟨hsound.fields, nofun⟩, fun fn hfn => (hhelper fn hfn).mpr (hsound.helpers fn hfn)⟩,
      ⟨hsound.event, hsound.notSelf⟩, nofun⟩

/-- **The signatures in the source of a parsed widget are valid exactly if the event has a name that
can be written and no parameter of a method has the name of another or of the instance.** If there
is no source, the widget was refused, or a number ended it. -/
theorem signatures_valid_iff {source : String} {file : Option String} {code : Code}
    (hparse : parse source file = .ok code) {decl : TypeDecl} (hdecl : decl ∈ code.widgets)
    (policy : Policy) (types : TypeMap) {messages : String} (hm : Named messages) :
    (∀ f, (ofType decl policy file >>= fun w => w.component types messages) = .error f →
      f.IsOwn code.Miscounts) ∧
    ∀ w comp, ofType decl policy file = .ok w → w.component types messages = .ok comp →
      definitions comp.lines = (w.signatures types messages).map (·.text) ∧
      ((∀ s ∈ w.signatures types messages, s.Valid) ↔ w.SoundParameters) := by
  constructor
  · have hcauses : Causes code.Miscounts decl.settings :=
      fun e he n hn => ⟨decl, hdecl, e, he, hn⟩
    exact (Generation.makes_bind (ofType_makes policy file hcauses) fun w hw =>
      component_runs hw.2 types messages).2
  · intro w comp hw hc
    have hworded := ofType_worded (Generation.widgets_worded hparse decl hdecl) hw
    obtain ⟨_, _, hdeclared, -⟩ := component_parts hc
    exact ⟨component_definitions hworded hm hc,
      signatures_sound_iff (checkNames_names hdeclared) types messages⟩

/-! ## An event with a name, and one with a word for a name -/

/-- The first widget of a text that is generated. -/
theorem exists_component (source : String) (check : Widget → Component → Bool)
    (h : (do
      let code ← (parse source none).toOption
      let decl ← code.widgets.head?
      let w ← (ofType decl .strict none).toOption
      let comp ← (w.component .standard "Msg").toOption
      return check w comp) = some true) :
    ∃ code decl w comp, parse source none = .ok code ∧ decl ∈ code.widgets ∧
      ofType decl .strict none = .ok w ∧ w.component .standard "Msg" = .ok comp ∧
      check w comp = true := by
  obtain ⟨code, hcode, h⟩ := Option.bind_eq_some_iff.mp h
  obtain ⟨decl, hdecl, h⟩ := Option.bind_eq_some_iff.mp h
  obtain ⟨w, hw, h⟩ := Option.bind_eq_some_iff.mp h
  obtain ⟨comp, hc, h⟩ := Option.bind_eq_some_iff.mp h
  exact ⟨code, decl, w, comp, toOption_eq_some_iff.mp hcode, List.mem_of_head? hdecl,
    toOption_eq_some_iff.mp hw, toOption_eq_some_iff.mp hc, Option.some.inj h⟩

/-- A widget with a field, a method with two parameters, and an event. -/
def adder : String :=
  "type W is Widget \x7b n int = 0 fn add(a, b) \x7b n = a + b \x7d fn on(ev) \x7b \x7d " ++
    "fn view() \x7b col \x7b\x7d \x7d \x7d"

/-- The lines that begin its methods. -/
def adderDefinitions : List String :=
  ["def __init__(self, n: int) -> None:", "def default(cls) -> \"W\":", "def add(self, a, b):",
    "def on(self, ev: Msg) -> None:", "def view(self) -> View[Msg]:"]

/-- All its signatures are valid. -/
theorem adder_signatures : ∃ code decl w comp, parse adder none = .ok code ∧
    decl ∈ code.widgets ∧ ofType decl .strict none = .ok w ∧
    w.component .standard "Msg" = .ok comp ∧
    definitions comp.lines = adderDefinitions ∧
    ∀ s ∈ w.signatures .standard "Msg", s.Valid := by
  obtain ⟨code, decl, w, comp, hcode, hdecl, hw, hc, hcheck⟩ := exists_component adder
    (fun w comp => decide (definitions comp.lines = adderDefinitions ∧ w.eventName = "ev" ∧
      w.fields.map (·.name) = ["n"] ∧ w.helpers.map (·.paramNames) = [["a", "b"]]))
    (by decide +kernel)
  obtain ⟨hlines, hevent, hfields, hparams⟩ := of_decide_eq_true hcheck
  have hm : Named "Msg" := named_of_isIdentifier (by decide +kernel)
  obtain ⟨-, hvalid⟩ := signatures_valid_iff hcode hdecl .strict .standard hm
  refine ⟨code, decl, w, comp, hcode, hdecl, hw, hc, hlines, (hvalid w comp hw hc).2.mpr ?_⟩
  refine ⟨?_, ?_, ?_, fun fn hfn => ?_⟩
  · rw [hevent]
    exact ⟨by decide +kernel, by decide +kernel⟩
  · rw [hevent]
    decide
  · rw [hfields]
    decide
  · have hfn' : fn.paramNames ∈ w.helpers.map (·.paramNames) := List.mem_map_of_mem hfn
    rw [hparams] at hfn'
    rw [List.mem_singleton.mp hfn']
    decide

/-- A widget whose event has a name that is reserved in generated source. -/
def reservedEvent : String :=
  "type W is Widget \x7b fn view() \x7b col \x7b \x7d \x7d fn on(class) \x7b \x7d \x7d"

/-- Its source is generated, with a definition that cannot be read. -/
theorem reserved_event_written : ∃ code decl w comp, parse reservedEvent none = .ok code ∧
    decl ∈ code.widgets ∧ ofType decl .strict none = .ok w ∧
    w.component .standard "Msg" = .ok comp ∧
    "def on(self, class: Msg) -> None:" ∈ definitions comp.lines ∧
    ¬ ∀ s ∈ w.signatures .standard "Msg", s.Valid := by
  obtain ⟨code, decl, w, comp, hcode, hdecl, hw, hc, hcheck⟩ :=
    exists_component reservedEvent (fun w comp => decide
      ("def on(self, class: Msg) -> None:" ∈ definitions comp.lines ∧ w.eventName = "class"))
      (by decide +kernel)
  obtain ⟨hlines, hevent⟩ := of_decide_eq_true hcheck
  refine ⟨code, decl, w, comp, hcode, hdecl, hw, hc, hlines, fun hall => ?_⟩
  have hon := hall ⟨"on", [.self, ⟨w.eventName, some "Msg"⟩], some "None"⟩ (by simp [signatures])
  obtain ⟨⟨-, hreserved⟩, -⟩ := (event_valid_iff _ _).mp hon
  rw [hevent] at hreserved
  exact absurd hreserved (by decide +kernel)

end Widget

end Widgetry
