import Widgetry.Generation.Unit
import Widgetry.Proofs.Value.References

/-!
# What ends the generator

The source of a widget is refused for its names, or because a literal would have to hold a node. All
else that can end it is a number whose literal would be too long.

> `Widget.component_runs`: if the kinds and the names of properties in the view of a widget are
> texts, its source is generated, or it is refused, or a literal of its values ends it.

Each step of the generator either goes on with what it made or ends with a fault of one of its parts
(`Generation.Makes`).
-/

namespace Widgetry

/-! ## What may end the generator -/

/-- Whether a fault is a refusal of the generator itself, or a fault in a number among `N`. -/
def GenerationFault.IsOwn (N : NumberFault → Prop) : GenerationFault → Prop
  | .refused e => e.cause.stage = .codegen
  | .number n => N n
  | .template _ => False

namespace Generation

variable {α β : Type} {N : NumberFault → Prop} {Q : α → Prop} {R : β → Prop}

/-- Whether something ends with a result that has a property, or with such a fault. -/
def Makes (N : NumberFault → Prop) (Q : α → Prop) (x : Except GenerationFault α) : Prop :=
  (∀ a, x = .ok a → Q a) ∧ ∀ f, x = .error f → f.IsOwn N

/-- Whether something can only end with such faults. -/
abbrev Runs (N : NumberFault → Prop) (x : Except GenerationFault α) : Prop :=
  Makes N (fun _ => True) x

theorem makes_ok {a : α} (h : Q a) : Makes N Q (.ok a) :=
  ⟨fun b hb => by cases hb; exact h, nofun⟩

theorem runs_ok (a : α) : Runs N (.ok a) := makes_ok trivial

theorem makes_error {f : GenerationFault} (h : f.IsOwn N) :
    Makes N Q (.error f : Except GenerationFault α) :=
  ⟨nofun, fun g hg => by cases hg; exact h⟩

theorem makes_bind {x : Except GenerationFault α} {f : α → Except GenerationFault β}
    (hx : Makes N Q x) (hf : ∀ a, Q a → Makes N R (f a)) : Makes N R (x >>= f) := by
  cases x with
  | error e => exact makes_error (hx.2 e rfl)
  | ok a => exact hf a (hx.1 a rfl)

theorem Makes.mono {N' : NumberFault → Prop} {x : Except GenerationFault α} (h : Makes N Q x)
    (hN : ∀ n, N n → N' n) : Makes N' Q x := by
  refine ⟨h.1, fun f hf => ?_⟩
  have hown := h.2 f hf
  cases f with
  | refused e => exact hown
  | number n => exact hN n hown
  | template t => exact hown

theorem makes_codegen {cause : GenerationCause} (h : cause.stage = .codegen) :
    Makes N Q (GenerationFault.codegen cause) := makes_error h

/-- A fault in a number is what it is. -/
theorem Runs.self {x : Except GenerationFault α} (h : Runs N x) :
    Runs (fun n => x = .error (.number n)) x := by
  refine ⟨fun _ _ => trivial, fun f hf => ?_⟩
  have hown := h.2 f hf
  cases f with
  | refused e => exact hown
  | number n => exact hf
  | template t => exact hown

/-! ## Literals -/

mutual

theorem literal_runs : ∀ v : Value, Runs (fun n => n = .longNumber) v.literal
  | .scalar s => by
    rw [Value.literal]
    cases s with
    | int n =>
      rw [Scalar.literal, wholeText]
      split
      · exact runs_ok _
      · exact makes_error rfl
    | _ => exact runs_ok _
  | .list items => by
    rw [Value.literal]
    exact makes_bind (literalItems_runs items) fun _ _ => runs_ok _
  | .object entries => by
    rw [Value.literal]
    exact makes_bind (literalEntries_runs entries) fun _ _ => runs_ok _
  | .node _ => makes_codegen rfl
  | .live _ => makes_codegen rfl

theorem literalItems_runs : ∀ vs : List Value, Runs (fun n => n = .longNumber) (literalItems vs)
  | [] => runs_ok _
  | v :: rest => by
    rw [literalItems]
    exact makes_bind (literal_runs v) fun _ _ => makes_bind (literalItems_runs rest) fun _ _ =>
      runs_ok _

theorem literalEntries_runs : ∀ es : List (Key × Value),
    Runs (fun n => n = .longNumber) (literalEntries es)
  | [] => runs_ok _
  | (k, v) :: rest => by
    rw [literalEntries]
    exact makes_bind (literal_runs (.scalar k)) fun _ _ => makes_bind (literal_runs v) fun _ _ =>
      makes_bind (literalEntries_runs rest) fun _ _ => runs_ok _

end

end Generation

open Generation

variable {N : NumberFault → Prop} {g : Naming}

/-! ## Templates -/

/-- Whether the literal of a part that is known can only end so. -/
def Part.Fits (N : NumberFault → Prop) (p : Part) : Prop := ∀ v, p = .known v → Runs N v.literal

/-- Whether kinds and the names of properties are texts, and all parts fit. -/
inductive Template.Fits (N : NumberFault → Prop) : Template → Prop where
  | mk {kind : String} {args : List Part} {props : List (Key × Part)} {children : List Template} :
      (∀ p ∈ args, p.Fits N) → (∀ e ∈ props, (∃ name, e.1 = .str name) ∧ e.2.Fits N) →
      (∀ c ∈ children, Fits N c) → Fits N (.mk (.str kind) args props children)

namespace Template

abbrev AllFit (N : NumberFault → Prop) (ts : List Template) : Prop := ∀ t ∈ ts, t.Fits N

variable {t : Template}

theorem Fits.arg (h : t.Fits N) : ∀ p ∈ t.args, p.Fits N := by
  cases h with
  | mk hargs _ _ => exact hargs

theorem Fits.prop (h : t.Fits N) {name : String} {p : Part} (hp : t.prop? name = some p) :
    p.Fits N := by
  cases h with
  | mk _ hprops _ =>
    obtain ⟨e, he, rfl⟩ := Entries.mem_of_find? hp
    exact (hprops e he).2

theorem Fits.given (h : t.Fits N) {name : String} {p : Part} (hp : t.given? name = some p) :
    p.Fits N :=
  h.prop (Option.eq_some_of_filter_eq_some hp)

end Template

/-! ## Views -/

theorem Part.source_runs {p : Part} (hp : p.Fits N) : Runs N (p.source g) := by
  cases p with
  | code e => exact runs_ok _
  | known v =>
    cases v with
    | node n => exact runs_ok _
    | _ => exact hp _ rfl

theorem Part.messageSource_runs {p : Part} (hp : p.Fits N) : Runs N (p.messageSource g) := by
  unfold Part.messageSource
  split
  · exact runs_ok _
  · exact source_runs hp

namespace Template

variable {t : Template}

theorem mainSource_runs (ht : t.Fits N) : Runs N (t.mainSource g) := by
  have harg := ht.arg
  unfold mainSource
  split
  · exact runs_ok _
  · next p _ ha =>
    rw [ha] at harg
    exact Part.source_runs (harg p List.mem_cons_self)

theorem propSource_runs (ht : t.Fits N) (name default : String) :
    Runs N (t.propSource g name default) := by
  unfold propSource
  split
  · next hp => exact Part.source_runs (ht.prop hp)
  · exact runs_ok _

theorem call_runs {source : Part → Except GenerationFault String} (ht : t.Fits N)
    (hsource : ∀ p : Part, p.Fits N → Runs N (source p)) (s : Setting) :
    Runs N (s.call source t) := by
  unfold Setting.call
  split
  · exact runs_ok _
  · next hp => exact makes_bind (hsource _ (ht.given hp)) fun _ _ => runs_ok _

theorem valueCalls_runs (ht : t.Fits N) (settings : List Setting) :
    Runs N (t.valueCalls g settings) := by
  unfold valueCalls
  induction settings with
  | nil => exact runs_ok _
  | cons s rest ih =>
    exact makes_bind (call_runs ht (fun _ => Part.source_runs) s) fun _ _ =>
      makes_bind ih fun _ _ => runs_ok _

theorem messageCall_runs (ht : t.Fits N) (prop method : String) :
    Runs N (t.messageCall g prop method) :=
  call_runs ht (fun _ => Part.messageSource_runs) _

theorem styleArgument_runs (ht : t.Fits N) : Runs N (t.styleArgument g) := by
  unfold styleArgument
  split
  · exact runs_ok _
  · next hp => exact makes_bind (Part.source_runs (ht.given hp)) fun _ _ => runs_ok _

theorem textSource_runs (ht : t.Fits N) : Runs N (t.textSource g) :=
  makes_bind (styleArgument_runs ht) fun _ _ => makes_bind (mainSource_runs ht) fun _ _ =>
    runs_ok _

theorem buttonSource_runs (ht : t.Fits N) : Runs N (t.buttonSource g) := by
  have hrest : ∀ message : String, Runs N (do
      let style ← t.styleArgument g
      let main ← t.mainSource g
      return "View.button(" ++ main ++ ", " ++ message ++ style ++ ")") := fun _ =>
    makes_bind (styleArgument_runs ht) fun _ _ => makes_bind (mainSource_runs ht) fun _ _ =>
      runs_ok _
  unfold buttonSource
  cases hp : t.given? "onclick" with
  | none => exact makes_bind (runs_ok _) fun message _ => hrest message
  | some p =>
    exact makes_bind (Part.messageSource_runs (ht.given hp)) fun message _ => hrest message

theorem inputSource_runs (ht : t.Fits N) : Runs N (t.inputSource g) :=
  makes_bind (valueCalls_runs ht _) fun _ _ => makes_bind (messageCall_runs ht _ _) fun _ _ =>
    makes_bind (valueCalls_runs ht _) fun _ _ => makes_bind (mainSource_runs ht) fun _ _ =>
      runs_ok _

theorem choiceSource_runs (ht : t.Fits N) (call state prop method : String) :
    Runs N (t.choiceSource g call state prop method) :=
  makes_bind (propSource_runs ht _ _) fun _ _ => makes_bind (mainSource_runs ht) fun _ _ =>
    makes_bind (valueCalls_runs ht _) fun _ _ => makes_bind (messageCall_runs ht _ _) fun _ _ =>
      runs_ok _

theorem selectSource_runs (ht : t.Fits N) : Runs N (t.selectSource g) :=
  makes_bind (propSource_runs ht _ _) fun _ _ => makes_bind (valueCalls_runs ht _) fun _ _ =>
    makes_bind (messageCall_runs ht _ _) fun _ _ => runs_ok _

theorem containerTail_runs (ht : t.Fits N) : Runs N (t.containerTail g) :=
  makes_bind (valueCalls_runs ht _) fun _ _ => makes_bind (valueCalls_runs ht _) fun _ _ =>
    runs_ok _

mutual

theorem lines_runs : ∀ (t : Template) (before after : String), t.Fits N →
    Runs N (t.lines g before after)
  | mk kind args props children, before, after, ht => by
    have hchildren : AllFit N children := by
      cases ht with
      | mk _ _ hchildren => exact hchildren
    rw [lines]
    cases hkind : Element.ofKind? kind with
    | none =>
      -- the text of a name is always known
      cases ht
      exact runs_ok _
    | some e =>
      cases e with
      | text => exact makes_bind (textSource_runs ht) fun _ _ => runs_ok _
      | button => exact makes_bind (buttonSource_runs ht) fun _ _ => runs_ok _
      | input => exact makes_bind (inputSource_runs ht) fun _ _ => runs_ok _
      | checkbox | radio => exact makes_bind (choiceSource_runs ht _ _ _ _) fun _ _ => runs_ok _
      | select => exact makes_bind (selectSource_runs ht) fun _ _ => runs_ok _
      | column | row =>
        exact makes_bind (valueCalls_runs ht _) fun _ _ => layoutLines_runs children _ _ _ hchildren
      | center => exact singleLines_runs children _ _ _ _ hchildren
      | container =>
        exact makes_bind (containerTail_runs ht) fun _ _ =>
          singleLines_runs children _ _ _ _ hchildren
      | scrollable =>
        exact makes_bind (valueCalls_runs ht _) fun _ _ =>
          singleLines_runs children _ _ _ _ hchildren
      | list =>
        refine makes_bind (valueCalls_runs ht _) fun _ _ => ?_
        cases children with
        | nil => exact runs_ok _
        | cons t rest =>
          exact makes_bind (eachLines_runs (t :: rest) hchildren) fun _ _ => runs_ok _
      | table =>
        exact makes_bind (valueCalls_runs ht _) fun _ _ =>
          makes_bind (headerLines_runs children hchildren) fun _ _ =>
            makes_bind (rowLines_runs children hchildren) fun _ _ => runs_ok _

theorem layoutLines_runs : ∀ (ts : List Template) (before after head : String), AllFit N ts →
    Runs N (layoutLines g before after head ts)
  | [], _, _, _, _ => runs_ok _
  | t :: rest, before, after, head, h => by
    rw [layoutLines]
    exact makes_bind (lines_runs t _ _ (h t List.mem_cons_self)) fun _ _ =>
      makes_bind (eachLines_runs rest fun c hc => h c (List.mem_cons_of_mem _ hc)) fun _ _ =>
        runs_ok _

theorem singleLines_runs : ∀ (ts : List Template) (before after call tail : String), AllFit N ts →
    Runs N (singleLines g before after call tail ts)
  | [], _, _, _, _, _ => runs_ok _
  | t :: rest, before, after, call, tail, h => by
    rw [singleLines]
    exact makes_bind (lines_runs t _ _ (h t List.mem_cons_self)) fun _ _ => runs_ok _

theorem eachLines_runs : ∀ ts : List Template, AllFit N ts → Runs N (eachLines g ts)
  | [], _ => runs_ok _
  | t :: rest, h => by
    rw [eachLines]
    exact makes_bind (lines_runs t _ _ (h t List.mem_cons_self)) fun _ _ =>
      makes_bind (eachLines_runs rest fun c hc => h c (List.mem_cons_of_mem _ hc)) fun _ _ =>
        runs_ok _

theorem headerLines_runs : ∀ ts : List Template, AllFit N ts → Runs N (headerLines g ts)
  | [], _ => runs_ok _
  | mk kind args props children :: rest, h => by
    have ht := h _ List.mem_cons_self
    have hrest := headerLines_runs rest fun c hc => h c (List.mem_cons_of_mem _ hc)
    have hjoined : ∀ first : List Line, Runs N (do
        let others ← headerLines g rest
        return first ++ others) := fun _ => makes_bind hrest fun _ _ => runs_ok _
    rw [headerLines]
    split
    · cases children with
      | nil =>
        exact makes_bind (textSource_runs ht) fun _ _ => hjoined _
      | cons c cs =>
        have hc : c.Fits N := by
          cases ht with
          | mk _ _ hchildren => exact hchildren c List.mem_cons_self
        exact makes_bind (lines_runs c _ _ hc) fun first _ => hjoined first
    · exact hrest

theorem rowLines_runs : ∀ ts : List Template, AllFit N ts → Runs N (rowLines g ts)
  | [], _ => runs_ok _
  | mk kind args props children :: rest, h => by
    have hrest := rowLines_runs rest fun c hc => h c (List.mem_cons_of_mem _ hc)
    have hchildren : AllFit N children := by
      cases h _ List.mem_cons_self with
      | mk _ _ hchildren => exact hchildren
    rw [rowLines]
    split
    · exact makes_bind (eachLines_runs children hchildren) fun _ _ => makes_bind hrest fun _ _ =>
        runs_ok _
    · exact hrest

end

end Template

/-! ## Symbols -/

namespace Symbols

/-- Whether all kinds are names. -/
def Named (s : Symbols) : Prop := ∀ k ∈ s.kinds, ∃ name, k = .str name

theorem Named.addKind {s : Symbols} (h : s.Named) (kind : String) :
    (s.addKind (.str kind)).Named := by
  unfold Symbols.addKind
  split
  · exact h
  · intro k hk
    rcases List.mem_append.mp hk with hk | hk
    · exact h k hk
    · exact ⟨kind, List.mem_singleton.mp hk⟩

theorem Named.addVariant {s : Symbols} (h : s.Named) (name : String) : (s.addVariant name).Named :=
  h

theorem addProps_named : ∀ (props : List (Key × Part)) {s : Symbols},
    (∀ e ∈ props, ∃ name, e.1 = .str name) → s.Named → ∃ s', addProps props s = .ok s' ∧ s'.Named
  | [], s, _, hs => ⟨s, rfl, hs⟩
  | (k, p) :: rest, s, hprops, hs => by
    obtain ⟨name, hk⟩ := hprops _ List.mem_cons_self
    cases hk
    have hrest : ∀ {s : Symbols}, s.Named → ∃ s', addProps rest s = .ok s' ∧ s'.Named :=
      addProps_named rest fun e he => hprops e (List.mem_cons_of_mem _ he)
    rw [addProps]
    split
    · exact hrest (hs.addVariant _)
    · exact hrest hs

/-- Names can be put in order. -/
theorem sortedKinds_named {s : Symbols} (h : s.Named) : ∃ kinds, s.sortedKinds = .ok kinds := by
  have hnames : ∀ ks : List Scalar, (∀ k ∈ ks, ∃ name, k = .str name) →
      ∃ names, ks.mapM name? = some names := by
    intro ks
    induction ks with
    | nil => exact fun _ => ⟨[], rfl⟩
    | cons k rest ih =>
      intro hks
      obtain ⟨name, rfl⟩ := hks k List.mem_cons_self
      obtain ⟨names, hrest⟩ := ih fun k hk => hks k (List.mem_cons_of_mem _ hk)
      exact ⟨name :: names, by simp [name?, hrest]⟩
  obtain ⟨names, hk⟩ := hnames s.kinds h
  unfold sortedKinds
  split
  · exact ⟨_, rfl⟩
  · exact ⟨_, rfl⟩
  · rw [hk]
    exact ⟨_, rfl⟩

end Symbols

mutual

theorem Template.addSymbols_named : ∀ (t : Template) {s : Symbols}, t.Fits N → s.Named →
    ∃ s', t.addSymbols s = .ok s' ∧ s'.Named
  | .mk _ args props children, s, ht, hs => by
    cases ht with
    | @mk kind _ _ _ _ hprops hchildren =>
      obtain ⟨s₁, hs₁, hn₁⟩ := Symbols.addProps_named props (fun e he => (hprops e he).1)
        (hs.addKind kind)
      obtain ⟨s₂, hs₂, hn₂⟩ := addAllSymbols_named children hchildren hn₁
      refine ⟨s₂, ?_, hn₂⟩
      rw [Template.addSymbols]
      exact bind_eq_ok.mpr ⟨s₁, hs₁, hs₂⟩

theorem addAllSymbols_named : ∀ (ts : List Template) {s : Symbols}, Template.AllFit N ts →
    s.Named → ∃ s', addAllSymbols ts s = .ok s' ∧ s'.Named
  | [], s, _, hs => ⟨s, rfl, hs⟩
  | t :: rest, s, hts, hs => by
    obtain ⟨s₁, hs₁, hn₁⟩ := Template.addSymbols_named t (hts t List.mem_cons_self) hs
    obtain ⟨s₂, hs₂, hn₂⟩ :=
      addAllSymbols_named rest (fun c hc => hts c (List.mem_cons_of_mem _ hc)) hn₁
    refine ⟨s₂, ?_, hn₂⟩
    rw [addAllSymbols]
    exact bind_eq_ok.mpr ⟨s₁, hs₁, hs₂⟩

end

/-! ## Components -/

namespace Widget

/-- Whether what a widget shows and starts with can only end so. -/
structure Fits (N : NumberFault → Prop) (w : Widget) : Prop where
  view : w.view.Fits N
  fields : ∀ f ∈ w.fields, Runs N (WidgetField.start f).literal

variable {w : Widget}

theorem checkNames_runs {cause : String → GenerationCause}
    (hc : ∀ name, (cause name).stage = .codegen) (names : List String) :
    Runs N (checkNames cause names) := by
  induction names with
  | nil => exact runs_ok _
  | cons name rest ih =>
    rw [checkNames]
    split
    · exact ih
    · exact makes_codegen (hc name)

theorem startLiterals_runs : ∀ fs : List WidgetField,
    (∀ f ∈ fs, Runs N (WidgetField.start f).literal) → Runs N (startLiterals fs)
  | [], _ => runs_ok _
  | f :: rest, h => by
    rw [startLiterals]
    exact makes_bind (h f List.mem_cons_self) fun _ _ =>
      makes_bind (startLiterals_runs rest fun f hf => h f (List.mem_cons_of_mem _ hf))
        fun _ _ => runs_ok _

theorem classLines_runs (hw : w.Fits N) (types : TypeMap) (variants : List String) :
    Runs N (classLines g w types variants) :=
  makes_bind (startLiterals_runs w.fields hw.fields) fun _ _ =>
    makes_bind (makes_bind (Template.lines_runs w.view _ _ hw.view) fun _ _ => runs_ok _)
      fun _ _ => runs_ok _

theorem component_runs (hw : w.Fits N) (types : TypeMap) (messages : String) :
    Runs N (w.component types messages) := by
  obtain ⟨s, hs, hnamed⟩ := Template.addSymbols_named w.view hw.view (s := {}) nofun
  obtain ⟨kinds, hkinds⟩ := Symbols.sortedKinds_named hnamed
  have hsymbols : Makes N (· = s) (w.view.symbols.mapError .template) := by
    rw [Template.symbols, hs]
    exact makes_ok rfl
  have hsorted : Runs N (s.sortedKinds.mapError .template) := by
    rw [hkinds]
    exact runs_ok kinds
  refine makes_bind (checkNames_runs (fun _ => rfl) _) fun _ _ => makes_bind hsymbols ?_
  rintro _ rfl
  exact makes_bind (checkNames_runs (fun _ => rfl) _) fun _ _ =>
    makes_bind (classLines_runs hw _ _) fun _ _ => makes_bind hsorted fun _ _ => runs_ok _

end Widget

namespace Generation

theorem emitAll_runs (o : GenerationOptions) (messages : Widget → String) :
    ∀ (ws : List Widget) (s : Sink) (table : List (String × List String)),
      (∀ w ∈ ws, w.Fits N) → Runs N (emitAll o messages ws s table)
  | [], _, _, _ => runs_ok _
  | w :: rest, _, _, h => by
    rw [emitAll]
    exact makes_bind (Widget.component_runs (h w List.mem_cons_self) _ _) fun _ _ =>
      emitAll_runs o messages rest _ _ fun w hw => h w (List.mem_cons_of_mem _ hw)

end Generation

end Widgetry
