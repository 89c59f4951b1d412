import Widgetry.Generation.Builder
import Widgetry.Proofs.Value.References
import Mathlib.Data.List.Infix

/-!
# What a generated view shows

An element builds some of its children: a row all of them, a container the first, a table those of
its rows and the first of each header. A node of an unknown kind builds none. What a view shows
(`Template.Shows`) is reached from its root in this way, and the message of a node
(`Template.event?`) is the one property that its element writes as a message.

> `Template.Shows.written`: the message of every node that a view shows is written into a line;
> `Template.lines_mapEvents`: no other property that could be a message makes a difference to the
> lines of a view.
-/

namespace Widgetry

/-! ## Texts in texts -/

/-- Whether a text stands somewhere in another. -/
def Within (s t : String) : Prop := s.toList <:+: t.toList

namespace Within

variable {s t : String}

theorem refl (s : String) : Within s s := List.infix_rfl

/-- A text stands in what has it in front. -/
theorem before (h : Within s t) (u : String) : Within s (t ++ u) := by
  rw [Within, String.toList_append]
  exact List.IsInfix.trans h (List.prefix_append _ _).isInfix

/-- A text stands in what has it behind. -/
theorem after (h : Within s t) (u : String) : Within s (u ++ t) := by
  rw [Within, String.toList_append]
  exact List.IsInfix.trans h (List.suffix_append _ _).isInfix

end Within

/-- The texts of lines, whatever their levels. -/
def Line.texts (ls : List Line) : List String := ls.map (·.text)

@[simp] theorem Line.texts_indented (ls : List Line) :
    Line.texts (Line.indented ls) = texts ls := by
  simp [texts, indented]

@[simp] theorem Line.texts_append (ls ms : List Line) :
    Line.texts (ls ++ ms) = texts ls ++ texts ms := List.map_append

@[simp] theorem Line.texts_cons (l : Line) (ls : List Line) :
    Line.texts (l :: ls) = l.text :: texts ls := rfl

/-! ## What is shown -/

namespace Element

/-- The property that an element writes as a message. -/
def event? : Element → Option String
  | button => some "onclick"
  | input => some "on_change"
  | checkbox => some "on_toggle"
  | radio | select => some "on_select"
  | _ => none

/-- The properties that some element writes as a message. -/
def events : List String := ["onclick", "on_change", "on_toggle", "on_select"]

end Element

namespace Template

/-- The templates that an element builds right inside itself. -/
def shown (t : Template) : List Template :=
  match Element.ofKind? t.kind with
  | some .column | some .row | some .list => t.children
  | some .center | some .container | some .scrollable => t.children.take 1
  | some .table => (t.childrenOf "header").flatMap (·.children.take 1) ++
      (t.childrenOf "row").flatMap (·.children)
  | _ => []

/-- Whether a template is built inside another, at any depth. -/
inductive Shows : Template → Template → Prop where
  | self (t : Template) : Shows t t
  | step {t c u : Template} : c ∈ t.shown → Shows c u → Shows t u

/-- What the element of a template writes as a message. -/
def event? (t : Template) : Option Part :=
  ((Element.ofKind? t.kind).bind Element.event?).bind t.given?

/-! ## Everything shown is in the lines -/

variable {g : Naming} {t u c : Template} {before after : String} {ls : List Line}

theorem eachLines_written : ∀ {ts : List Template} {ls : List Line}, c ∈ ts →
    eachLines g ts = .ok ls →
    ∃ us, c.lines g "" "," = .ok us ∧ Line.texts us <:+: Line.texts ls
  | t :: rest, ls, hc, h => by
    obtain ⟨first, hfirst, h⟩ := bind_eq_ok.mp h
    obtain ⟨others, hothers, h⟩ := bind_eq_ok.mp h
    cases h
    rw [Line.texts_append]
    rcases List.mem_cons.mp hc with rfl | hc
    · exact ⟨first, hfirst, (List.prefix_append _ _).isInfix⟩
    · obtain ⟨us, hus, hin⟩ := eachLines_written hc hothers
      exact ⟨us, hus, hin.trans (List.suffix_append _ _).isInfix⟩

theorem layoutLines_written {head : String} {ts : List Template} (hc : c ∈ ts)
    (h : layoutLines g before after head ts = .ok ls) :
    ∃ us, c.lines g "" "," = .ok us ∧ Line.texts us <:+: Line.texts ls := by
  cases ts with
  | nil => cases hc
  | cons t rest =>
    obtain ⟨first, hfirst, h⟩ := bind_eq_ok.mp h
    obtain ⟨others, hothers, h⟩ := bind_eq_ok.mp h
    cases h
    have hall : eachLines g (t :: rest) = .ok (first ++ others) :=
      bind_eq_ok.mpr ⟨first, hfirst, bind_eq_ok.mpr ⟨others, hothers, rfl⟩⟩
    obtain ⟨us, hus, hin⟩ := eachLines_written hc hall
    refine ⟨us, hus, hin.trans ?_⟩
    simp only [List.cons_append, Line.texts_cons, Line.texts_append, Line.texts_indented]
    exact List.infix_cons (List.prefix_append _ _).isInfix

theorem singleLines_written {call tail : String} {ts : List Template} (hc : c ∈ ts.take 1)
    (h : singleLines g before after call tail ts = .ok ls) :
    ∃ us, c.lines g "" "" = .ok us ∧ Line.texts us <:+: Line.texts ls := by
  cases ts with
  | nil => cases hc
  | cons t rest =>
    obtain ⟨inside, hinside, h⟩ := bind_eq_ok.mp h
    cases h
    cases List.mem_singleton.mp hc
    refine ⟨inside, hinside, ?_⟩
    simp only [List.cons_append, Line.texts_cons, Line.texts_append, Line.texts_indented]
    exact List.infix_cons (List.prefix_append _ _).isInfix

theorem headerLines_written : ∀ {ts : List Template} {ls : List Line},
    (∃ h ∈ ts, h.kind.same (.str "header") = true ∧ c ∈ h.children.take 1) →
    headerLines g ts = .ok ls →
    ∃ us, c.lines g "" "," = .ok us ∧ Line.texts us <:+: Line.texts ls
  | mk kind args props children :: rest, ls, ⟨t, ht, hkind, hc⟩, h => by
    by_cases hk : kind.same (.str "header")
    · rw [headerLines, if_pos hk] at h
      cases children with
      | nil =>
        obtain ⟨_, _, h⟩ := bind_eq_ok.mp h
        obtain ⟨first, hfirst, h⟩ := bind_eq_ok.mp h
        obtain ⟨others, hothers, h⟩ := bind_eq_ok.mp h
        cases h
        rw [Line.texts_append]
        rcases List.mem_cons.mp ht with rfl | ht
        · cases hc
        · obtain ⟨us, hus, hin⟩ := headerLines_written ⟨t, ht, hkind, hc⟩ hothers
          exact ⟨us, hus, hin.trans (List.suffix_append _ _).isInfix⟩
      | cons c' cs =>
        obtain ⟨first, hfirst, h⟩ := bind_eq_ok.mp h
        obtain ⟨others, hothers, h⟩ := bind_eq_ok.mp h
        cases h
        rw [Line.texts_append]
        rcases List.mem_cons.mp ht with rfl | ht
        · cases List.mem_singleton.mp hc
          exact ⟨first, hfirst, (List.prefix_append _ _).isInfix⟩
        · obtain ⟨us, hus, hin⟩ := headerLines_written ⟨t, ht, hkind, hc⟩ hothers
          exact ⟨us, hus, hin.trans (List.suffix_append _ _).isInfix⟩
    · rw [headerLines, if_neg hk] at h
      rcases List.mem_cons.mp ht with rfl | ht
      · exact absurd hkind hk
      · exact headerLines_written ⟨t, ht, hkind, hc⟩ h

theorem rowLines_written : ∀ {ts : List Template} {ls : List Line},
    (∃ r ∈ ts, r.kind.same (.str "row") = true ∧ c ∈ r.children) →
    rowLines g ts = .ok ls →
    ∃ us, c.lines g "" "," = .ok us ∧ Line.texts us <:+: Line.texts ls
  | mk kind args props children :: rest, ls, ⟨t, ht, hkind, hc⟩, h => by
    rw [rowLines] at h
    split at h
    · obtain ⟨inside, hinside, h⟩ := bind_eq_ok.mp h
      obtain ⟨others, hothers, h⟩ := bind_eq_ok.mp h
      cases h
      simp only [List.cons_append, Line.texts_cons, Line.texts_append, Line.texts_indented]
      rcases List.mem_cons.mp ht with rfl | ht
      · obtain ⟨us, hus, hin⟩ := eachLines_written hc hinside
        exact ⟨us, hus, hin.trans (List.infix_cons (List.prefix_append _ _).isInfix)⟩
      · obtain ⟨us, hus, hin⟩ := rowLines_written ⟨t, ht, hkind, hc⟩ hothers
        have hrest := List.infix_cons (a := "],") hin
        exact ⟨us, hus, List.infix_cons (hrest.trans (List.suffix_append _ _).isInfix)⟩
    · next hother =>
      rcases List.mem_cons.mp ht with rfl | ht
      · exact absurd hkind hother
      · exact rowLines_written ⟨t, ht, hkind, hc⟩ h

/-- What an element builds right inside itself stands in its lines. -/
theorem shown_written (hc : c ∈ t.shown) (h : t.lines g before after = .ok ls) :
    ∃ before' after' us, c.lines g before' after' = .ok us ∧ Line.texts us <:+: Line.texts ls := by
  obtain ⟨kind, args, props, children⟩ := t
  rw [lines] at h
  unfold shown at hc
  simp only [Template.kind] at hc
  cases hkind : Element.ofKind? kind with
  | none =>
    rw [hkind] at hc
    cases hc
  | some e =>
    rw [hkind] at h hc
    cases e with
    | text | button | input | checkbox | radio | select => cases hc
    | column | row =>
      obtain ⟨settings, -, h⟩ := bind_eq_ok.mp h
      obtain ⟨us, hus⟩ := layoutLines_written hc h
      exact ⟨_, _, us, hus⟩
    | center =>
      obtain ⟨us, hus⟩ := singleLines_written hc h
      exact ⟨_, _, us, hus⟩
    | container | scrollable =>
      obtain ⟨tail, -, h⟩ := bind_eq_ok.mp h
      obtain ⟨us, hus⟩ := singleLines_written hc h
      exact ⟨_, _, us, hus⟩
    | list =>
      obtain ⟨tail, -, h⟩ := bind_eq_ok.mp h
      cases children with
      | nil => cases hc
      | cons t rest =>
        obtain ⟨inside, hinside, h⟩ := bind_eq_ok.mp h
        cases h
        obtain ⟨us, hus, hin⟩ := eachLines_written hc hinside
        refine ⟨_, _, us, hus, hin.trans ?_⟩
        simp only [List.cons_append, Line.texts_cons, Line.texts_append, Line.texts_indented]
        exact List.infix_cons (List.prefix_append _ _).isInfix
    | table =>
      obtain ⟨tail, -, h⟩ := bind_eq_ok.mp h
      obtain ⟨headers, hheaders, h⟩ := bind_eq_ok.mp h
      obtain ⟨rows, hrows, h⟩ := bind_eq_ok.mp h
      cases h
      have hheads : Line.texts headers <:+: Line.texts (.at0 (before ++ "View.table(") ::
          Line.indented (.at0 "[" :: Line.indented headers ++ .at0 "]," ::
            .at0 "[" :: Line.indented rows ++ [.at0 "],"]) ++
          [.at0 (")" ++ tail ++ ".build()" ++ after)]) := by
        simp only [List.cons_append, Line.texts_cons, Line.texts_append, Line.texts_indented,
          List.append_assoc]
        exact List.infix_cons (List.infix_cons (List.prefix_append _ _).isInfix)
      have hrest : Line.texts rows <:+: Line.texts (.at0 (before ++ "View.table(") ::
          Line.indented (.at0 "[" :: Line.indented headers ++ .at0 "]," ::
            .at0 "[" :: Line.indented rows ++ [.at0 "],"]) ++
          [.at0 (")" ++ tail ++ ".build()" ++ after)]) := by
        simp only [List.cons_append, Line.texts_cons, Line.texts_append, Line.texts_indented,
          List.append_assoc]
        exact List.infix_cons (List.infix_cons ((List.infix_cons (List.infix_cons
          (List.prefix_append _ _).isInfix)).trans (List.suffix_append _ _).isInfix))
      simp only [childrenOf, List.mem_append, List.mem_flatMap, List.mem_filter] at hc
      rcases hc with ⟨t, ⟨ht, hkind⟩, hc⟩ | ⟨t, ⟨ht, hkind⟩, hc⟩
      · obtain ⟨us, hus, hin⟩ := headerLines_written ⟨t, ht, hkind, hc⟩ hheaders
        exact ⟨_, _, us, hus, hin.trans hheads⟩
      · obtain ⟨us, hus, hin⟩ := rowLines_written ⟨t, ht, hkind, hc⟩ hrows
        exact ⟨_, _, us, hus, hin.trans hrest⟩

theorem Shows.lines (hu : t.Shows u) : ∀ {before after : String} {ls : List Line},
    t.lines g before after = .ok ls →
    ∃ before' after' us, u.lines g before' after' = .ok us ∧
      Line.texts us <:+: Line.texts ls := by
  induction hu with
  | self t => exact fun h => ⟨_, _, _, h, List.infix_rfl⟩
  | step hc _ ih =>
    intro before after ls h
    obtain ⟨_, _, cs, hcs, hin⟩ := shown_written hc h
    obtain ⟨before', after', us, hus, hin'⟩ := ih hcs
    exact ⟨before', after', us, hus, hin'.trans hin⟩

/-! ## The messages of what is shown are in the lines -/

variable {p : Part}

theorem messageCall_written {prop method s : String} (hp : t.given? prop = some p)
    (h : t.messageCall g prop method = .ok s) :
    ∃ m, p.messageSource g = .ok m ∧ Within m s := by
  rw [messageCall, Setting.call, hp] at h
  obtain ⟨m, hm, h⟩ := bind_eq_ok.mp h
  cases h
  exact ⟨m, hm, ((Within.refl m).after _).before _⟩

theorem buttonSource_written {s : String} (hp : t.given? "onclick" = some p)
    (h : t.buttonSource g = .ok s) : ∃ m, p.messageSource g = .ok m ∧ Within m s := by
  rw [buttonSource, hp] at h
  obtain ⟨m, hm, h⟩ := bind_eq_ok.mp h
  obtain ⟨style, -, h⟩ := bind_eq_ok.mp h
  obtain ⟨main, -, h⟩ := bind_eq_ok.mp h
  cases h
  exact ⟨m, hm, (((Within.refl m).after _).before _).before _⟩

theorem inputSource_written {s : String} (hp : t.given? "on_change" = some p)
    (h : t.inputSource g = .ok s) : ∃ m, p.messageSource g = .ok m ∧ Within m s := by
  obtain ⟨settings, -, h⟩ := bind_eq_ok.mp h
  obtain ⟨message, hmessage, h⟩ := bind_eq_ok.mp h
  obtain ⟨style, -, h⟩ := bind_eq_ok.mp h
  obtain ⟨main, -, h⟩ := bind_eq_ok.mp h
  cases h
  obtain ⟨m, hm, hin⟩ := messageCall_written hp hmessage
  exact ⟨m, hm, (((hin.after _).before _).before _).before _⟩

theorem choiceSource_written {call state prop method s : String} (hp : t.given? prop = some p)
    (h : t.choiceSource g call state prop method = .ok s) :
    ∃ m, p.messageSource g = .ok m ∧ Within m s := by
  obtain ⟨on, -, h⟩ := bind_eq_ok.mp h
  obtain ⟨main, -, h⟩ := bind_eq_ok.mp h
  obtain ⟨style, -, h⟩ := bind_eq_ok.mp h
  obtain ⟨message, hmessage, h⟩ := bind_eq_ok.mp h
  cases h
  obtain ⟨m, hm, hin⟩ := messageCall_written hp hmessage
  exact ⟨m, hm, hin.after _⟩

theorem selectSource_written {s : String} (hp : t.given? "on_select" = some p)
    (h : t.selectSource g = .ok s) : ∃ m, p.messageSource g = .ok m ∧ Within m s := by
  obtain ⟨options, -, h⟩ := bind_eq_ok.mp h
  obtain ⟨settings, -, h⟩ := bind_eq_ok.mp h
  obtain ⟨message, hmessage, h⟩ := bind_eq_ok.mp h
  cases h
  obtain ⟨m, hm, hin⟩ := messageCall_written hp hmessage
  exact ⟨m, hm, hin.after _⟩

/-- What stands in the source of an element stands in its line. -/
theorem element_written {source : Except GenerationFault String}
    (hsource : ∀ s, source = .ok s → ∃ m, p.messageSource g = .ok m ∧ Within m s)
    (h : (do
      let s ← source
      return [Line.at0 (before ++ s ++ after)]) = .ok ls) :
    ∃ m, p.messageSource g = .ok m ∧ ∃ text ∈ Line.texts ls, Within m text := by
  obtain ⟨s, hs, h⟩ := bind_eq_ok.mp h
  cases h
  obtain ⟨m, hm, hin⟩ := hsource s hs
  exact ⟨m, hm, _, List.mem_singleton.mpr rfl, (hin.after _).before _⟩

theorem event?_eq_some : t.event? = some p ↔ ∃ e name, Element.ofKind? t.kind = some e ∧
    e.event? = some name ∧ t.given? name = some p := by
  simp only [event?, Option.bind_eq_some_iff]
  exact ⟨fun ⟨name, ⟨e, he, hname⟩, hp⟩ => ⟨e, name, he, hname, hp⟩,
    fun ⟨e, name, he, hname, hp⟩ => ⟨name, ⟨e, he, hname⟩, hp⟩⟩

/-- The message of a node is written into a line of it. -/
theorem event_written (hp : t.event? = some p) (h : t.lines g before after = .ok ls) :
    ∃ m, p.messageSource g = .ok m ∧ ∃ text ∈ Line.texts ls, Within m text := by
  obtain ⟨e, name, hkind, hname, hp⟩ := event?_eq_some.mp hp
  obtain ⟨kind, args, props, children⟩ := t
  rw [lines] at h
  simp only [Template.kind] at hkind
  rw [hkind] at h
  cases e with
  | button =>
    cases hname
    exact element_written (fun _ => buttonSource_written hp) h
  | input =>
    cases hname
    exact element_written (fun _ => inputSource_written hp) h
  | checkbox | radio =>
    cases hname
    exact element_written (fun _ => choiceSource_written hp) h
  | select =>
    cases hname
    exact element_written (fun _ => selectSource_written hp) h
  | _ => cases hname

/-- **The message of every node that a view shows is written into a line of it.** -/
theorem Shows.written (hu : t.Shows u) (hp : u.event? = some p)
    (h : t.lines g before after = .ok ls) :
    ∃ m, p.messageSource g = .ok m ∧ ∃ l ∈ ls, Within m l.text := by
  obtain ⟨_, _, us, hus, hin⟩ := hu.lines h
  obtain ⟨m, hm, text, htext, hwithin⟩ := event_written hp hus
  obtain ⟨l, hl, rfl⟩ := List.mem_map.mp (hin.subset htext)
  exact ⟨m, hm, l, hl, hwithin⟩

/-! ## Nothing else is in the lines -/

/-- Whether a key is a property that some element writes as a message. -/
def isEvent (k : Key) : Bool := Element.events.any fun name => k.same (.str name)

/-- Changes a property that could be a message, unless it is absent. -/
def mapEvent (f : Part → Part) (e : Key × Part) : Key × Part :=
  if isEvent e.1 && !e.2.isNil then (e.1, f e.2) else e

mutual

/-- A template in which everything that could be a message is changed. -/
def mapEvents (f : Part → Part) : Template → Template
  | mk kind args props children => mk kind args (props.map (mapEvent f)) (mapAllEvents f children)

def mapAllEvents (f : Part → Part) : List Template → List Template
  | [] => []
  | t :: rest => mapEvents f t :: mapAllEvents f rest

end

theorem same_str {k : Key} {name : String} (h : k.same (.str name) = true) : k = .str name := by
  cases k with
  | str s => exact congrArg _ (eq_of_beq h)
  | _ => simp [Scalar.same, Scalar.whole?] at h

/-- Looking up a name in changed entries. -/
theorem find?_map_str {f : Key × Part → Key × Part} (hf : ∀ e, (f e).1 = e.1) (name : String)
    (es : List (Key × Part)) : Entries.find? (.str name) (es.map f)
      = (Entries.find? (.str name) es).map fun p => (f (.str name, p)).2 := by
  induction es with
  | nil => rfl
  | cons e rest ih =>
    obtain ⟨k, p⟩ := e
    obtain ⟨q, hq⟩ : ∃ q, f (k, p) = (k, q) := ⟨(f (k, p)).2, Prod.ext (hf (k, p)) rfl⟩
    rw [List.map_cons, hq, Entries.find?, Entries.find?]
    split
    · next hk =>
      rw [same_str hk] at hq
      rw [Option.map_some, hq]
    · exact ih

variable {f : Part → Part} {name : String}

theorem mapEvent_key (e : Key × Part) : (mapEvent f e).1 = e.1 := by
  unfold mapEvent
  split <;> rfl

theorem prop?_mk_map (kind : Value) (args : List Part) (props : List (Key × Part))
    (children children' : List Template) :
    (mk kind args (props.map (mapEvent f)) children').prop? name
      = ((mk kind args props children).prop? name).map fun p => (mapEvent f (.str name, p)).2 :=
  find?_map_str mapEvent_key name props

theorem isEvent_str : isEvent (.str name) = true ↔ name ∈ Element.events := by
  rw [isEvent, List.any_eq_true]
  exact ⟨fun ⟨_, hn, h⟩ => (eq_of_beq h : name = _) ▸ hn, fun h => ⟨name, h, beq_self_eq_true name⟩⟩

/-- Whether two templates have the same arguments and the same properties, as far as an element
reads them. -/
structure SameFor (e : Element) (t u : Template) : Prop where
  args : t.args = u.args
  prop : ∀ name, name ∉ Element.events ∨ e.event? = some name → t.prop? name = u.prop? name

namespace SameFor

variable {e : Element}

theorem value (h : SameFor e t u) (hname : name ∉ Element.events) : t.prop? name = u.prop? name :=
  h.prop name (.inl hname)

theorem valueCalls (h : SameFor e t u) {sets : List Setting}
    (hsets : ∀ set ∈ sets, set.prop ∉ Element.events) :
    t.valueCalls g sets = u.valueCalls g sets := by
  unfold Template.valueCalls
  induction sets with
  | nil => rfl
  | cons set rest ih =>
    rw [Setting.calls, Setting.calls, ih fun s hs => hsets s (List.mem_cons_of_mem _ hs),
      Setting.call, Setting.call, given?, given?, h.value (hsets set List.mem_cons_self)]

theorem messageCall (h : SameFor e t u) (hname : e.event? = some name) (method : String) :
    t.messageCall g name method = u.messageCall g name method := by
  rw [Template.messageCall, Template.messageCall, Setting.call, Setting.call, given?, given?,
    h.prop name (.inr hname)]

theorem flagCall (h : SameFor e t u) (hname : name ∉ Element.events) :
    t.flagCall name = u.flagCall name := by
  rw [Template.flagCall, Template.flagCall, h.value hname]

theorem mainSource (h : SameFor e t u) : t.mainSource g = u.mainSource g := by
  rw [Template.mainSource, Template.mainSource, h.args]

theorem propSource (h : SameFor e t u) (hname : name ∉ Element.events) (default : String) :
    t.propSource g name default = u.propSource g name default := by
  rw [Template.propSource, Template.propSource, h.value hname]

theorem styleArgument (h : SameFor e t u) : t.styleArgument g = u.styleArgument g := by
  rw [Template.styleArgument, Template.styleArgument, given?, given?, h.value (by decide)]

theorem textSource (h : SameFor e t u) : t.textSource g = u.textSource g := by
  rw [Template.textSource, Template.textSource, h.styleArgument, h.mainSource]

theorem buttonSource (h : SameFor .button t u) : t.buttonSource g = u.buttonSource g := by
  rw [Template.buttonSource, Template.buttonSource, h.styleArgument, h.mainSource, given?, given?,
    h.prop "onclick" (.inr rfl)]

theorem inputSource (h : SameFor .input t u) : t.inputSource g = u.inputSource g := by
  rw [Template.inputSource, Template.inputSource, h.valueCalls (by decide),
    h.messageCall rfl, h.valueCalls (by decide), h.mainSource, h.flagCall (by decide)]

theorem choiceSource (h : SameFor e t u) {state prop : String} (hstate : state ∉ Element.events)
    (hprop : e.event? = some prop) (call method : String) :
    t.choiceSource g call state prop method = u.choiceSource g call state prop method := by
  rw [Template.choiceSource, Template.choiceSource, h.propSource hstate, h.mainSource,
    h.valueCalls (by decide), h.messageCall hprop]

theorem selectSource (h : SameFor .select t u) : t.selectSource g = u.selectSource g := by
  rw [Template.selectSource, Template.selectSource, h.propSource (by decide),
    h.valueCalls (by decide), h.messageCall rfl]

theorem containerTail (h : SameFor e t u) : t.containerTail g = u.containerTail g := by
  rw [Template.containerTail, Template.containerTail, h.valueCalls (by decide),
    h.flagCall (by decide), h.flagCall (by decide), h.valueCalls (by decide)]

end SameFor

section Kept

variable {kind : Value} {args : List Part} {props : List (Key × Part)} {children : List Template}

theorem value_mapEvent (hname : name ∉ Element.events) (children' : List Template) :
    (mk kind args (props.map (mapEvent f)) children').prop? name
      = (mk kind args props children).prop? name := by
  have hother : isEvent (.str name) = false :=
    Bool.eq_false_iff.mpr fun h => hname (isEvent_str.mp h)
  rw [prop?_mk_map kind args props children children']
  cases (mk kind args props children).prop? name with
  | none => rfl
  | some p => rw [Option.map_some, mapEvent, hother, Bool.false_and, if_neg Bool.false_ne_true]

/-- A change that keeps the message of an element keeps all that the element reads. -/
theorem sameFor_map {e : Element} (hkind : Element.ofKind? kind = some e)
    (hf : ∀ p, (mk kind args props children).event? = some p → f p = p)
    (children' : List Template) :
    SameFor e (mk kind args (props.map (mapEvent f)) children') (mk kind args props children) := by
  refine ⟨rfl, fun name hname => ?_⟩
  rcases hname with hname | hname
  · exact value_mapEvent hname children'
  rw [prop?_mk_map kind args props children children']
  cases hp : (mk kind args props children).prop? name with
  | none => rfl
  | some p =>
    cases hnil : p.isNil with
    | true => simp [mapEvent, hnil]
    | false =>
      have hgiven : (mk kind args props children).given? name = some p := by
        rw [given?, hp, Option.filter_some, if_pos (by simp [hnil])]
      have hkept : f p = p := hf p (event?_eq_some.mpr ⟨e, name, hkind, hname, hgiven⟩)
      simp [mapEvent, hkept]

end Kept

/-- Whether a change keeps the messages of all that a template shows. -/
def KeepsShown (f : Part → Part) (t : Template) : Prop :=
  ∀ u, t.Shows u → ∀ p, u.event? = some p → f p = p

theorem KeepsShown.shown (h : KeepsShown f t) (hc : c ∈ t.shown) : KeepsShown f c :=
  fun u hu => h u (.step hc hu)

mutual

/-- **No other property that could be a message makes a difference to the lines of a view.** -/
theorem lines_mapEvents : ∀ (t : Template) (before after : String), KeepsShown f t →
    (t.mapEvents f).lines g before after = t.lines g before after
  | mk kind args props children, before, after, h => by
    have hshown : ∀ c ∈ (mk kind args props children).shown, KeepsShown f c :=
      fun c hc => h.shown hc
    unfold shown at hshown
    rw [mapEvents, lines, lines]
    cases hkind : Element.ofKind? kind with
    | none => rfl
    | some e =>
      have hsame := sameFor_map hkind (h _ (.self _)) (mapAllEvents f children)
      simp only [Template.kind, hkind] at hshown
      cases e with
      | text => rw [hsame.textSource]
      | button => rw [hsame.buttonSource]
      | input => rw [hsame.inputSource]
      | checkbox | radio => rw [hsame.choiceSource (by decide) rfl]
      | select => rw [hsame.selectSource]
      | column | row =>
        dsimp only
        rw [hsame.valueCalls (by decide)]
        simp only [layoutLines_mapEvents children _ _ _ hshown]
      | center => exact singleLines_mapEvents children _ _ _ _ hshown
      | container =>
        rw [hsame.containerTail]
        simp only [singleLines_mapEvents children _ _ _ _ hshown]
      | scrollable =>
        dsimp only
        rw [hsame.valueCalls (by decide)]
        simp only [singleLines_mapEvents children _ _ _ _ hshown]
      | list =>
        dsimp only
        rw [hsame.valueCalls (by decide)]
        cases children with
        | nil => rfl
        | cons t rest =>
          have hrest := eachLines_mapEvents (t :: rest) hshown
          rw [mapAllEvents] at hrest ⊢
          simp only [hrest]
      | table =>
        have hheaders : ∀ t ∈ children, t.kind.same (.str "header") = true →
            ∀ c ∈ t.children.take 1, KeepsShown f c := fun t ht hk c hc =>
          hshown c (List.mem_append_left _ (List.mem_flatMap.mpr
            ⟨t, List.mem_filter.mpr ⟨ht, hk⟩, hc⟩))
        have hrows : ∀ t ∈ children, t.kind.same (.str "row") = true →
            ∀ c ∈ t.children, KeepsShown f c := fun t ht hk c hc =>
          hshown c (List.mem_append_right _ (List.mem_flatMap.mpr
            ⟨t, List.mem_filter.mpr ⟨ht, hk⟩, hc⟩))
        dsimp only
        rw [hsame.valueCalls (by decide), headerLines_mapEvents children hheaders,
          rowLines_mapEvents children hrows]

theorem layoutLines_mapEvents : ∀ (ts : List Template) (before after head : String),
    (∀ c ∈ ts, KeepsShown f c) →
    layoutLines g before after head (mapAllEvents f ts) = layoutLines g before after head ts
  | [], _, _, _, _ => rfl
  | t :: rest, before, after, head, h => by
    rw [mapAllEvents, layoutLines, layoutLines, lines_mapEvents t _ _ (h t List.mem_cons_self),
      eachLines_mapEvents rest fun c hc => h c (List.mem_cons_of_mem _ hc)]

theorem singleLines_mapEvents : ∀ (ts : List Template) (before after call tail : String),
    (∀ c ∈ ts.take 1, KeepsShown f c) →
    singleLines g before after call tail (mapAllEvents f ts)
      = singleLines g before after call tail ts
  | [], _, _, _, _, _ => rfl
  | t :: rest, before, after, call, tail, h => by
    rw [mapAllEvents, singleLines, singleLines,
      lines_mapEvents t _ _ (h t (List.mem_singleton.mpr rfl))]

theorem eachLines_mapEvents : ∀ ts : List Template, (∀ c ∈ ts, KeepsShown f c) →
    eachLines g (mapAllEvents f ts) = eachLines g ts
  | [], _ => rfl
  | t :: rest, h => by
    rw [mapAllEvents, eachLines, eachLines, lines_mapEvents t _ _ (h t List.mem_cons_self),
      eachLines_mapEvents rest fun c hc => h c (List.mem_cons_of_mem _ hc)]

theorem headerLines_mapEvents : ∀ ts : List Template,
    (∀ t ∈ ts, t.kind.same (.str "header") = true → ∀ c ∈ t.children.take 1, KeepsShown f c) →
    headerLines g (mapAllEvents f ts) = headerLines g ts
  | [], _ => rfl
  | mk kind args props children :: rest, h => by
    have hrest := headerLines_mapEvents rest fun t ht => h t (List.mem_cons_of_mem _ ht)
    rw [mapAllEvents, mapEvents]
    by_cases hk : kind.same (.str "header") = true
    · rw [headerLines, headerLines, if_pos hk, if_pos hk]
      cases children with
      | nil =>
        -- a header without children is written as a text, which has no message
        have hsame : SameFor .text (mk kind args (props.map (mapEvent f)) [])
            (mk kind args props []) :=
          ⟨rfl, fun name hname => value_mapEvent (hname.resolve_right nofun) []⟩
        simp only [mapAllEvents, hsame.textSource, hrest]
      | cons c cs =>
        simp only [mapAllEvents, hrest,
          lines_mapEvents c _ _ (h _ List.mem_cons_self hk c (List.mem_singleton.mpr rfl))]
    · rw [headerLines, headerLines, if_neg hk, if_neg hk, hrest]

theorem rowLines_mapEvents : ∀ ts : List Template,
    (∀ t ∈ ts, t.kind.same (.str "row") = true → ∀ c ∈ t.children, KeepsShown f c) →
    rowLines g (mapAllEvents f ts) = rowLines g ts
  | [], _ => rfl
  | mk kind args props children :: rest, h => by
    have hrest := rowLines_mapEvents rest fun t ht => h t (List.mem_cons_of_mem _ ht)
    rw [mapAllEvents, mapEvents]
    by_cases hk : kind.same (.str "row") = true
    · rw [rowLines, rowLines, if_pos hk, if_pos hk, hrest,
        eachLines_mapEvents children (h _ List.mem_cons_self hk)]
    · rw [rowLines, rowLines, if_neg hk, if_neg hk, hrest]

end

end Template

end Widgetry
