import Widgetry.Generation.Component
import Widgetry.Proofs.Generation.Spelling
import Widgetry.Proofs.Language.Folding
import Widgetry.Proofs.Language.Loading

/-!
# What fields start with

A program that is loaded evaluates the defaults of its fields, and fields without one get the value
of their type. A generated component has literals in their place, which are found without any
program around them.

> `default_literals_agree_iff`: for defaults that are constants, these literals are those of the
> values that fields start with in the program, unless a field is declared with the absent value and
> its type has another one.

The generator takes the absent value for no default at all (`WidgetField.start`), a program does not
(`FieldDecl.start`).
-/

namespace Widgetry

theorem Value.typeName_eq_nil {v : Value} : v.typeName = "nil" ↔ v = .nil := by
  rcases v with (_ | _ | _ | _ | _) | _ | _ | _ | _ <;> simp [Value.typeName, Scalar.typeName]

instance (v : Value) : Decidable (v = .nil) := decidable_of_iff _ Value.typeName_eq_nil

namespace FieldDecl

variable {m : FieldDecl}

/-- Whether the default of a field is a constant, if it has one. -/
def isPlain (m : FieldDecl) : Bool :=
  match m.default with
  | none => true
  | some e =>
    match e.constant with
    | .ok (.ok _) => true
    | _ => false

/-- The value that a field with a plain default starts with in a program. -/
def start (m : FieldDecl) : Value :=
  match m.default with
  | none => zeroValue m.type
  | some e =>
    match e.constant with
    | .ok (.ok v) => v
    | _ => .nil

/-- Whether a field is declared with the absent value, though its type has another one. -/
def StartsAbsent (m : FieldDecl) : Prop :=
  m.default.isSome = true ∧ m.start = .nil ∧ zeroValue m.type ≠ .nil

instance : Decidable m.StartsAbsent := inferInstanceAs (Decidable (_ ∧ _ ∧ _))

theorem constant_of_isPlain (hm : m.isPlain) {e : Expr} (he : m.default = some e) :
    e.constant = .ok (.ok m.start) := by
  rw [isPlain, he] at hm
  rw [start, he]
  dsimp only at hm ⊢
  split at hm
  · next hv => rw [hv]
  · cases hm

end FieldDecl

/-! ## In a program -/

theorem Fields.put_append {name : String} {v : Value} {fs : Fields} (h : name ∉ fs.names) :
    put name v fs = fs ++ [(name, v)] := by
  induction fs with
  | nil => rfl
  | cons f rest ih =>
    obtain ⟨n, w⟩ := f
    have hne : n ≠ name := fun he => h (he ▸ List.mem_cons_self)
    simp only [put, hne, if_false, List.cons_append]
    rw [ih fun hm => h (List.mem_cons_of_mem _ hm)]

/-- Fields of different names stand in a table as they were put. -/
theorem Fields.ofPairs_of_nodup {pairs : List (String × Value)} (h : (pairs.map (·.1)).Nodup) :
    ofPairs pairs = pairs := by
  have hgo : ∀ (pairs : List (String × Value)) (fs : Fields),
      (fs.names ++ pairs.map (·.1)).Nodup →
      pairs.foldl (fun fs f => put f.1 f.2 fs) fs = fs ++ pairs := by
    intro pairs
    induction pairs with
    | nil => exact fun fs _ => (List.append_nil fs).symm
    | cons f rest ih =>
      intro fs hnd
      rw [List.map_cons, List.append_cons] at hnd
      have hf : f.1 ∉ fs.names := fun hm =>
        (List.nodup_append.mp (List.nodup_append.mp hnd).1).2.2 _ hm _ (List.mem_singleton.mpr rfl) rfl
      rw [List.foldl_cons, put_append hf, ih]
      · rw [List.append_assoc]
        rfl
      · simpa [names] using hnd
  exact hgo pairs [] h

namespace Load

variable {d : Nat} {c : Context}

theorem yields_start {m : FieldDecl} (hm : m.isPlain) :
    Yields (fun e => e = (m.name, m.start)) (fieldDefault d c m) := by
  rw [fieldDefault]
  cases hd : m.default with
  | none => exact yields_pure (by rw [FieldDecl.start, hd])
  | some e =>
    have heval : Yields (· = m.start) (eval d c e) := fun _ _ _ hrun =>
      (eval_constant_ok (m.constant_of_isPlain hm hd) hrun).1
    exact yields_bind heval fun w hw => yields_pure (by rw [hw])

theorem yields_starts {ms : List FieldDecl} (hms : ∀ m ∈ ms, m.isPlain) :
    Yields (fun es => es = ms.map fun m => (m.name, m.start)) (Run.each (fieldDefault d c) ms) := by
  induction ms with
  | nil => exact yields_pure rfl
  | cons m rest ih =>
    refine yields_bind (yields_start (hms m List.mem_cons_self)) fun e he => ?_
    refine yields_bind (ih fun m hm => hms m (List.mem_cons_of_mem _ hm)) fun es hes => ?_
    exact yields_pure (by rw [he, hes, List.map_cons])

/-- A widget whose fields are plain starts with what they start with. -/
theorem yields_plainDefaults {name : String} {decl : TypeDecl} (hd : c.code.type? name = some decl)
    (hnames : (decl.members.map (·.name)).Nodup) (hplain : ∀ m ∈ decl.members, m.isPlain) :
    Yields (fun e => e = (name, decl.members.map fun m => (m.name, m.start)))
      (widgetDefaults d c name) := by
  rw [widgetDefaults, hd]
  refine yields_bind (yields_starts hplain) fun es hes => yields_pure ?_
  have hpairs : (es.map (·.1)).Nodup := by
    rw [hes, List.map_map]
    exact hnames
  rw [Fields.ofPairs_of_nodup hpairs, hes]
  rfl

/-- What is so for the defaults of each widget when they are found is so for those that a program
keeps. -/
theorem program_defaults {code : Code} {R : String → String × Fields → Prop}
    (h : ∀ name, Yields (R name) (widgetDefaults d { code } name)) :
    Yields (fun p => ∀ name fs, p.defaults.lookup name = some fs → R name (name, fs))
      (program d code) := by
  refine yields_bind yields_any fun result _ => ?_
  have hnamed : ∀ name, Yields (fun e => name = e.1 ∧ R name e)
      (widgetDefaults d { code } name) := fun name m e m' hrun =>
    ⟨(yields_widgetDefaults name m e m' hrun).1, h name m e m' hrun⟩
  refine yields_bind (yields_each hnamed _) fun entries he => ?_
  have hentry : ∀ e ∈ entries, R e.1 e := by
    generalize Program.widgetNames code = names at he
    induction he with
    | nil => exact fun _ h => nomatch h
    | cons h _ ih =>
      intro e hm
      rcases List.mem_cons.mp hm with rfl | hm
      · exact h.1 ▸ h.2
      · exact ih e hm
  obtain ⟨-, -, hmem⟩ := byName_spec entries
  have hkept : ∀ name fs, (byName entries).lookup name = some fs → R name (name, fs) :=
    fun name fs hl => hentry _ (hmem _ (mem_of_lookup hl))
  split
  · exact yields_bind yields_any fun r _ => yields_bind yields_any fun m _ => yields_pure hkept
  · exact yields_bind yields_any fun r _ => yields_bind yields_any fun m _ => yields_pure hkept

end Load

/-- **A program that the interpreter took has each widget start with what its fields start with.** -/
theorem interpret_starts {i i' : Interpreter} {source : String} {file : Option String} {v : Value}
    {code : Code} {name : String} {decl : TypeDecl} (hi : i.interpret source file = (.ok v, i'))
    (hp : parse source file = .ok code) (hname : name ∈ Program.widgetNames code)
    (hd : code.type? name = some decl) (hnames : (decl.members.map (·.name)).Nodup)
    (hplain : ∀ m ∈ decl.members, m.isPlain) :
    i'.defaults.lookup name = some (decl.members.map fun m => (m.name, m.start)) := by
  obtain ⟨code', p, m, hp', hload, hprogram, hcode, hwf⟩ := interpret_wellFormed hi
  rw [hp] at hp'
  cases hp'
  have hdefaults : i'.defaults = p.defaults := by rw [Interpreter.defaults, hprogram]; rfl
  have hsome : (p.defaults.lookup name).isSome := (hwf.widgets name).mpr (by rwa [Program.HasWidget, hcode])
  obtain ⟨fs, hfs⟩ := Option.isSome_iff_exists.mp hsome
  have hall : ∀ n, Load.Yields (fun e => n = name → e = (name, decl.members.map fun m =>
      (m.name, m.start))) (Load.widgetDefaults evaluationLimit { code } n) := by
    intro n m₀ e m₁ hrun hn
    subst hn
    exact Load.yields_plainDefaults hd hnames hplain m₀ e m₁ hrun
  have hstart := Load.program_defaults hall _ _ _ hload name fs hfs rfl
  rw [hdefaults, hfs]
  exact congrArg (fun e => some e.2) hstart

/-! ## In generated source -/

/-- No number is written like the absent value. -/
theorem render_ne_absent (x : Float) : numberLayout.render x ≠ "None" := by
  intro h
  have htext := congrArg String.toList h
  rw [Decimal.Layout.render] at htext
  cases hx : Binary64.Exact.ofFloat? x with
  | none =>
    rw [hx] at htext
    dsimp only at htext
    split at htext
    · revert htext
      decide
    · split at htext <;>
      · revert htext
        decide
  | some e =>
    -- a finite number begins with a sign or a digit
    have hhead : ∀ cs, (cs = "0.0".toList ∨ Formula.IsFraction cs) →
        (if e.negative then '-' :: cs else cs).head? ≠ some 'N' := by
      intro cs hcs
      split
      · simp
      · rcases hcs with rfl | ⟨hne, hdigits, -, -, -⟩
        · decide
        · rw [List.head?_append_of_ne_nil _ hne]
          intro hn
          exact absurd (hdigits _ (List.mem_of_mem_head? hn)) (by decide)
    rw [hx] at htext
    dsimp only at htext
    rw [String.toList_ofList] at htext
    refine hhead _ ?_ (congrArg List.head? htext)
    split
    · exact Or.inl rfl
    · exact Or.inr (Formula.isFraction_magnitude _)

/-- A type that has a value of its own to start with is not written like the absent value. -/
theorem zeroValue_literal {type text : String} (hne : zeroValue type ≠ .nil)
    (h : (zeroValue type).literal = .ok text) : text ≠ "None" := by
  unfold zeroValue at h hne
  repeat' split at h
  · cases h
    decide
  · cases h
    decide
  · cases h
    rw [Scalar.source]
    exact render_ne_absent _
  · cases h
    decide
  · cases h
    decide
  · simp_all

theorem literalItems_cons {v : Value} {rest : List Value} {text : String} {texts : List String} :
    literalItems (v :: rest) = .ok (text :: texts) ↔
      v.literal = .ok text ∧ literalItems rest = .ok texts := by
  simp only [literalItems, bind_eq_ok]
  constructor
  · rintro ⟨_, hv, _, hrest, he⟩
    cases he
    exact ⟨hv, hrest⟩
  · rintro ⟨hv, hrest⟩
    exact ⟨_, hv, _, hrest, rfl⟩

namespace Widget

/-- The generator takes the absent value for no default at all. -/
theorem fieldOf_start {m : FieldDecl} {f : WidgetField} (hm : m.isPlain) (hf : fieldOf m = .ok f) :
    (m.StartsAbsent ∧ WidgetField.start f = zeroValue m.type) ∨
      (¬ m.StartsAbsent ∧ WidgetField.start f = m.start) := by
  rw [fieldOf] at hf
  cases hd : m.default with
  | none =>
    rw [hd] at hf
    cases hf
    have hstart : m.start = zeroValue m.type := by rw [FieldDecl.start, hd]
    exact Or.inr ⟨fun h => by simpa [hd] using h.1, hstart.symm⟩
  | some e =>
    have hnil : e.constantOrNil = .ok m.start := by
      rw [Expr.constantOrNil, m.constant_of_isPlain hm hd]
      rfl
    rw [hd] at hf
    simp only [hnil] at hf
    cases hf
    by_cases hv : m.start = .nil
    · have hzero : WidgetField.start ⟨m.name, m.type, m.start⟩ = zeroValue m.type := by
        rw [WidgetField.start, hv]
      by_cases hz : zeroValue m.type = .nil
      · exact Or.inr ⟨fun h => h.2.2 hz, hzero.trans (hz.trans hv.symm)⟩
      · exact Or.inl ⟨⟨by rw [hd]; rfl, hv, hz⟩, hzero⟩
    · refine Or.inr ⟨fun h => hv h.2.1, ?_⟩
      rw [WidgetField.start]
      split
      · exact absurd ‹m.start = _› hv
      · rfl

/-- The literals that the fields of a widget start with are those of what they start with in a
program, unless one is declared with the absent value. -/
theorem startLiterals_eq_iff {ms : List FieldDecl} {fs : List WidgetField} {texts : List String}
    (hms : ∀ m ∈ ms, m.isPlain) (hfs : fieldsOf ms = .ok fs) (htexts : startLiterals fs = .ok texts) :
    literalItems (ms.map (·.start)) = .ok texts ↔ ∀ m ∈ ms, ¬ m.StartsAbsent := by
  induction ms generalizing fs texts with
  | nil =>
    cases hfs
    cases htexts
    exact iff_of_true rfl fun _ h => nomatch h
  | cons m rest ih =>
    simp only [fieldsOf, bind_eq_ok] at hfs
    obtain ⟨f, hf, fs', hfs', hfs⟩ := hfs
    cases hfs
    simp only [startLiterals, bind_eq_ok] at htexts
    obtain ⟨text, htext, texts', htexts', htexts⟩ := htexts
    cases htexts
    have hrest := ih (fun m hm => hms m (List.mem_cons_of_mem _ hm)) hfs' htexts'
    rw [List.forall_mem_cons, ← hrest, List.map_cons, literalItems_cons]
    rcases fieldOf_start (hms m List.mem_cons_self) hf with ⟨habsent, hzero⟩ | ⟨hplain, hsame⟩
    · -- the literals differ in the one of this field
      rw [hzero] at htext
      have hne := zeroValue_literal habsent.2.2 htext
      refine iff_of_false (fun h => ?_) fun h => h.1 habsent
      rw [habsent.2.1] at h
      cases h.1
      exact hne rfl
    · rw [← hsame]
      exact ⟨fun h => ⟨hplain, h.2⟩, fun h => ⟨htext, h.2⟩⟩

end Widget

/-- The default instance stands in the source of its widget. -/
theorem defaultLines_within {w : Widget} {types : TypeMap} {messages : String} {comp : Component}
    (hc : w.component types messages = .ok comp) :
    ∃ texts, Widget.startLiterals w.fields = .ok texts ∧
      Line.indented (Widget.defaultLines w.name texts) <:+: comp.lines := by
  simp only [Widget.component, bind_eq_ok] at hc
  obtain ⟨_, _, symbols, _, _, _, lines, hl, _, _, hc⟩ := hc
  cases hc
  simp only [Widget.classLines, bind_eq_ok] at hl
  obtain ⟨texts, htexts, view, _, hl⟩ := hl
  cases hl
  refine ⟨texts, htexts, List.IsInfix.trans ?_ (List.suffix_append _ _).isInfix⟩
  refine List.infix_cons ?_
  have hparts : ∀ pre ls post : List Line,
      Line.indented ls <:+: Line.indented (pre ++ ls ++ post) := fun pre ls post => by
    simp only [Line.indented, List.map_append]
    exact ⟨_, _, rfl⟩
  have hsplit := hparts (Widget.fieldLines (w.hints types) ++
    Widget.constructorLines (w.hints types) ++ [.blank]) (Widget.defaultLines w.name texts)
  simp only [List.append_assoc, List.cons_append, List.nil_append] at hsplit ⊢
  exact hsplit _

/-- A declaration is found under its own name. -/
theorem Code.type?_name {code : Code} {name : String} {decl : TypeDecl}
    (hd : code.type? name = some decl) : decl.name = name := by
  simpa using List.find?_some hd

/-- **The literals that a generated component starts its fields with are those of the values that
the program starts them with**, in the same order, unless a field is declared with the absent value
and its type has another one. -/
theorem default_literals_agree_iff {i i' : Interpreter} {source : String} {file place : Option String}
    {v : Value} {code : Code} {name : String} {decl : TypeDecl} {policy : Policy} {w : Widget}
    {types : TypeMap} {messages : String} {comp : Component}
    (hi : i.interpret source file = (.ok v, i')) (hp : parse source file = .ok code)
    (hname : name ∈ Program.widgetNames code) (hd : code.type? name = some decl)
    (hnames : (decl.members.map (·.name)).Nodup) (hplain : ∀ m ∈ decl.members, m.isPlain)
    (hw : Widget.ofType decl policy place = .ok w) (hc : w.component types messages = .ok comp) :
    ∃ fs texts, i'.defaults.lookup name = some fs ∧
      Fields.names fs = decl.members.map (·.name) ∧
      Line.indented (Widget.defaultLines name texts) <:+: comp.lines ∧
      (literalItems (fs.map (·.2)) = .ok texts ↔ ∀ m ∈ decl.members, ¬ m.StartsAbsent) := by
  obtain ⟨texts, htexts, hwithin⟩ := defaultLines_within hc
  simp only [Widget.ofType, bind_eq_ok] at hw
  obtain ⟨fields, hfields, view, _, hw⟩ := hw
  cases hw
  refine ⟨_, texts, interpret_starts hi hp hname hd hnames hplain, ?_, ?_, ?_⟩
  · simp [Fields.names]
  · rwa [← Code.type?_name hd]
  · have hf : Widget.fieldsOf decl.members = .ok fields := by
      cases he : Widget.fieldsOf decl.members with
      | ok fs =>
        rw [he] at hfields
        cases hfields
        rfl
      | error e =>
        rw [he] at hfields
        cases hfields
    rw [List.map_map]
    exact Widget.startLiterals_eq_iff hplain hf htexts

/-! ## A field that is declared absent -/

/-- What a source text declares. -/
def declaredBy (source : String) : Code :=
  match parse source none with
  | .ok code => code
  | .error _ => ⟨[], none⟩

/-- What a source text declares as `W`. -/
def typeW (source : String) : TypeDecl :=
  ((declaredBy source).type? "W").getD ⟨"W", [], [], [], 0⟩

/-- What is generated for `W`. -/
def componentW (source : String) : Except GenerationFault Component := do
  let w ← Widget.ofType (typeW source) .strict none
  w.component .standard "Msg"

/-- Whether a source text is loaded and generated and has a widget `W` with different plain fields. -/
def hasPlainW (source : String) : Bool :=
  (parse source none).isOk && (({} : Interpreter).interpret source none).1.isOk &&
    (componentW source).isOk && ((declaredBy source).type? "W").isSome &&
    (Program.widgetNames (declaredBy source)).contains "W" &&
    decide ((typeW source).members.map (·.name)).Nodup && (typeW source).members.all (·.isPlain)

/-- What such a source text comes to in both ways. -/
theorem hasPlainW_runs (source : String) (h : hasPlainW source = true) :
    ∃ v i' w comp, ({} : Interpreter).interpret source none = (.ok v, i') ∧
      parse source none = .ok (declaredBy source) ∧
      "W" ∈ Program.widgetNames (declaredBy source) ∧
      (declaredBy source).type? "W" = some (typeW source) ∧
      ((typeW source).members.map (·.name)).Nodup ∧
      (∀ m ∈ (typeW source).members, m.isPlain = true) ∧
      Widget.ofType (typeW source) .strict none = .ok w ∧
      w.component .standard "Msg" = .ok comp := by
  simp only [hasPlainW, Bool.and_eq_true, decide_eq_true_eq, List.all_eq_true,
    List.contains_iff_mem] at h
  obtain ⟨⟨⟨⟨⟨⟨hp, hi⟩, hc⟩, hd⟩, hname⟩, hnames⟩, hplain⟩ := h
  obtain ⟨code, hcode⟩ := exists_of_isOk hp
  obtain ⟨v, hv⟩ := exists_of_isOk hi
  obtain ⟨comp, hcomp⟩ := exists_of_isOk hc
  obtain ⟨w, hw, hcomp⟩ := bind_eq_ok.mp hcomp
  obtain ⟨decl, hdecl⟩ := Option.isSome_iff_exists.mp hd
  refine ⟨v, _, w, comp, Prod.ext hv rfl, ?_, hname, ?_, hnames, hplain, hw, hcomp⟩
  · rw [declaredBy, hcode]
  · rw [typeW, hdecl]
    rfl

/-- Its first field has a default, its second has none. -/
def pairSource : String := "type W is Widget { n int = 2 + 3  s str  fn view() { text(s) } }"

/-- Both start with a sum and with an empty text. -/
theorem pair_agrees : ∃ v i' w comp fs texts,
    ({} : Interpreter).interpret pairSource none = (.ok v, i') ∧
    Widget.ofType (typeW pairSource) .strict none = .ok w ∧
    w.component .standard "Msg" = .ok comp ∧ i'.defaults.lookup "W" = some fs ∧
    Line.indented (Widget.defaultLines "W" texts) <:+: comp.lines ∧
    literalItems (fs.map (·.2)) = .ok texts := by
  obtain ⟨v, i', w, comp, hi, hp, hname, hd, hnames, hplain, hw, hc⟩ :=
    hasPlainW_runs pairSource (by decide +kernel)
  obtain ⟨fs, texts, hfs, -, hwithin, hagree⟩ :=
    default_literals_agree_iff hi hp hname hd hnames hplain hw hc
  have hpresent : ∀ m ∈ (typeW pairSource).members, ¬ m.StartsAbsent := by decide +kernel
  exact ⟨v, i', w, comp, fs, texts, hi, hw, hc, hfs, hwithin, hagree.mpr hpresent⟩

/-- Its field is declared with the absent value. -/
def absentSource : String := "type W is Widget \x7b n int = nil  fn view() \x7b text(\"x\") \x7d \x7d"

/-- **The program starts with the absent value, and the generated component with a number.** -/
theorem absent_disagrees : ∃ v i' w comp fs,
    ({} : Interpreter).interpret absentSource none = (.ok v, i') ∧
    (∀ m ∈ (typeW absentSource).members, m.isPlain = true) ∧
    Widget.ofType (typeW absentSource) .strict none = .ok w ∧
    w.component .standard "Msg" = .ok comp ∧ i'.defaults.lookup "W" = some fs ∧
    Line.indented (Widget.defaultLines "W" ["0"]) <:+: comp.lines ∧
    literalItems (fs.map (·.2)) = .ok ["None"] := by
  obtain ⟨v, i', w, comp, hi, hp, hname, hd, hnames, hplain, hw, hc⟩ :=
    hasPlainW_runs absentSource (by decide +kernel)
  have hstarts := interpret_starts hi hp hname hd hnames hplain
  obtain ⟨texts, htexts, hwithin⟩ := defaultLines_within hc
  have hliterals : ((Widget.ofType (typeW absentSource) .strict none).bind fun w =>
      Widget.startLiterals w.fields).toOption = some ["0"] := by decide +kernel
  have hvalues : (literalItems ((typeW absentSource).members.map (·.start))).toOption
      = some ["None"] := by decide +kernel
  rw [hw] at hliterals
  have hzero : Except.toOption (Widget.startLiterals w.fields) = some ["0"] := hliterals
  rw [htexts] at hzero
  cases hzero
  have hname : w.name = "W" := by
    simp only [Widget.ofType, bind_eq_ok] at hw
    obtain ⟨_, _, _, _, hw⟩ := hw
    cases hw
    exact Code.type?_name hd
  rw [hname] at hwithin
  refine ⟨v, i', w, comp, _, hi, hplain, hw, hc, hstarts, hwithin, ?_⟩
  rw [List.map_map]
  cases hv : literalItems ((typeW absentSource).members.map (·.start)) with
  | ok texts =>
    rw [hv] at hvalues
    cases hvalues
    exact hv
  | error e =>
    rw [hv] at hvalues
    cases hvalues

end Widgetry
