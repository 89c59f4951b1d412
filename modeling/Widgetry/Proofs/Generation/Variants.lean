import Widgetry.Generation.Unit
import Widgetry.Proofs.Generation.Expressions
import Widgetry.Proofs.Generation.Handlers
import Widgetry.Proofs.Generation.Shown
import Mathlib.Data.String.Basic

/-!
# The messages of a generated component

The messages of a widget are gathered from its view before anything is written: from every node,
shown or not, and from every property whose name begins with `on`. What is written afterwards must
agree with them.

> `Widget.component_variants`: the messages are sorted, the enumeration has one member and the event
> method one case for each, and the messages of what is shown name members only, unless a message is
> an expression with a member inside that no property of the view is itself.
-/

namespace Widgetry

/-! ## Sorted texts -/

theorem Text.insertSorted_sorted {s : String} {set : List String} (h : set.Pairwise (· < ·)) :
    (insertSorted s set).Pairwise (· < ·) := by
  induction set with
  | nil => exact List.pairwise_singleton _ _
  | cons t rest ih =>
    obtain ⟨hfirst, hrest⟩ := List.pairwise_cons.mp h
    rw [insertSorted]
    split
    · exact h
    · next hne =>
      split
      · next hlt =>
        refine List.pairwise_cons.mpr ⟨fun u hu => ?_, h⟩
        rcases List.mem_cons.mp hu with rfl | hu
        · exact hlt
        · exact hlt.trans (hfirst u hu)
      · next hge =>
        refine List.pairwise_cons.mpr ⟨fun u hu => ?_, ih hrest⟩
        rcases Text.mem_insertSorted.mp hu with rfl | hu
        · exact (lt_or_gt_of_ne hne).resolve_left hge
        · exact hfirst u hu

/-! ## What is gathered -/

/-- Whether one of some properties is a message of a name. -/
def PropsRefer (props : List (Key × Part)) (v : String) : Prop :=
  ∃ name p, (Scalar.str name, p) ∈ props ∧ isMessageProp name = true ∧ p.variant? = some v

namespace Template

/-- Whether a template is another or stands below it, at any depth. -/
inductive Has : Template → Template → Prop where
  | self (t : Template) : Has t t
  | child {t c u : Template} : c ∈ t.children → Has c u → Has t u

/-- Whether a property of a node or of one below it is a message of a name. -/
def Refers (t : Template) (v : String) : Prop := ∃ u, t.Has u ∧ PropsRefer u.props v

variable {v : String} {t u c : Template}

theorem refers_mk {kind : Value} {args : List Part} {props : List (Key × Part)}
    {children : List Template} : (mk kind args props children).Refers v ↔
      PropsRefer props v ∨ ∃ c ∈ children, c.Refers v := by
  constructor
  · rintro ⟨u, hu, hp⟩
    cases hu with
    | self => exact .inl hp
    | child hc hu => exact .inr ⟨_, hc, u, hu, hp⟩
  · rintro (hp | ⟨c, hc, u, hu, hp⟩)
    · exact ⟨_, .self _, hp⟩
    · exact ⟨u, .child hc hu, hp⟩

end Template

namespace Symbols

variable {v : String}

theorem addKind_variants (s : Symbols) (kind : Scalar) :
    (s.addKind kind).variants = s.variants := by
  unfold addKind
  split <;> rfl

/-- The message of the first property, if it is one, comes to those of the others. -/
theorem propsRefer_cons {name : String} {part : Part} {rest : List (Key × Part)} :
    PropsRefer ((.str name, part) :: rest) v ↔
      (if isMessageProp name then part.variant? else none) = some v ∨ PropsRefer rest v := by
  constructor
  · rintro ⟨n, p, hmem, hn, hp⟩
    rcases List.mem_cons.mp hmem with heq | hmem
    · cases heq
      exact .inl (by rw [if_pos hn, hp])
    · exact .inr ⟨n, p, hmem, hn, hp⟩
  · rintro (h | ⟨n, p, hmem, hn, hp⟩)
    · split at h
      · next hn => exact ⟨name, part, List.mem_cons_self, hn, h⟩
      · cases h
    · exact ⟨n, p, List.mem_cons_of_mem _ hmem, hn, hp⟩

theorem mem_addProps : ∀ {props : List (Key × Part)} {s s' : Symbols}, addProps props s = .ok s' →
    (v ∈ s'.variants ↔ v ∈ s.variants ∨ PropsRefer props v)
  | [], s, s', h => by
    cases h
    exact (or_iff_left fun ⟨_, _, hmem, _⟩ => nomatch hmem).symm
  | (.str name, part) :: rest, s, s', h => by
    rw [addProps] at h
    rw [propsRefer_cons]
    split at h
    · next x hx =>
      rw [mem_addProps h, addVariant, Text.mem_insertSorted, hx, Option.some.injEq,
        eq_comm (a := v), or_assoc, or_left_comm]
    · next hx =>
      rw [mem_addProps h, hx]
      exact or_congr_right (or_iff_right nofun).symm

theorem addProps_sorted : ∀ {props : List (Key × Part)} {s s' : Symbols},
    addProps props s = .ok s' → s.variants.Pairwise (· < ·) → s'.variants.Pairwise (· < ·)
  | [], s, s', h, hs => by
    cases h
    exact hs
  | (.str name, part) :: rest, s, s', h, hs => by
    rw [addProps] at h
    split at h
    · exact addProps_sorted h (Text.insertSorted_sorted hs)
    · exact addProps_sorted h hs

end Symbols

namespace Template

variable {v : String} {t u c : Template}

mutual

/-- The messages of a template come to those that are there. -/
theorem mem_addSymbols : ∀ (t : Template) {s s' : Symbols}, t.addSymbols s = .ok s' →
    (v ∈ s'.variants ↔ v ∈ s.variants ∨ t.Refers v)
  | mk kind args props children, s, s', h => by
    cases kind with
    | scalar k =>
      obtain ⟨s₁, h₁, h⟩ := bind_eq_ok.mp h
      rw [mem_addAllSymbols children h, Symbols.mem_addProps h₁, Symbols.addKind_variants,
        refers_mk, or_assoc]
    | _ => cases h

theorem mem_addAllSymbols : ∀ (ts : List Template) {s s' : Symbols}, addAllSymbols ts s = .ok s' →
    (v ∈ s'.variants ↔ v ∈ s.variants ∨ ∃ t ∈ ts, t.Refers v)
  | [], s, s', h => by
    cases h
    exact (or_iff_left fun ⟨_, hmem, _⟩ => nomatch hmem).symm
  | t :: rest, s, s', h => by
    obtain ⟨s₁, h₁, h⟩ := bind_eq_ok.mp h
    rw [mem_addAllSymbols rest h, mem_addSymbols t h₁, or_assoc]
    simp only [List.mem_cons, or_and_right, exists_or, exists_eq_left]

end

mutual

theorem addSymbols_sorted : ∀ (t : Template) {s s' : Symbols}, t.addSymbols s = .ok s' →
    s.variants.Pairwise (· < ·) → s'.variants.Pairwise (· < ·)
  | mk kind args props children, s, s', h, hs => by
    cases kind with
    | scalar k =>
      obtain ⟨s₁, h₁, h⟩ := bind_eq_ok.mp h
      exact addAllSymbols_sorted children h
        (Symbols.addProps_sorted h₁ (Symbols.addKind_variants s k ▸ hs))
    | _ => cases h

theorem addAllSymbols_sorted : ∀ (ts : List Template) {s s' : Symbols},
    addAllSymbols ts s = .ok s' → s.variants.Pairwise (· < ·) → s'.variants.Pairwise (· < ·)
  | [], s, s', h, hs => by
    cases h
    exact hs
  | t :: rest, s, s', h, hs => by
    obtain ⟨s₁, h₁, h⟩ := bind_eq_ok.mp h
    exact addAllSymbols_sorted rest h (addSymbols_sorted t h₁ hs)

end

/-- **The messages of a view are those that its properties are, sorted, each once.** -/
theorem symbols_variants {s : Symbols} (h : t.symbols = .ok s) :
    s.variants.Pairwise (· < ·) ∧ ∀ v, v ∈ s.variants ↔ t.Refers v :=
  ⟨addSymbols_sorted t h .nil, fun _ => (mem_addSymbols t h).trans (or_iff_right nofun)⟩

/-! ## What is shown was gathered -/

theorem mem_shown (h : c ∈ t.shown) :
    c ∈ t.children ∨ ∃ r ∈ t.children, c ∈ r.children := by
  unfold shown at h
  split at h
  · exact .inl h
  · exact .inl h
  · exact .inl h
  · exact .inl (List.mem_of_mem_take h)
  · exact .inl (List.mem_of_mem_take h)
  · exact .inl (List.mem_of_mem_take h)
  · rcases List.mem_append.mp h with h | h
    · obtain ⟨r, hr, hc⟩ := List.mem_flatMap.mp h
      exact .inr ⟨r, (List.mem_filter.mp hr).1, List.mem_of_mem_take hc⟩
    · obtain ⟨r, hr, hc⟩ := List.mem_flatMap.mp h
      exact .inr ⟨r, (List.mem_filter.mp hr).1, hc⟩
  · cases h

theorem Shows.has (h : t.Shows u) : t.Has u := by
  induction h with
  | self t => exact .self t
  | step hc _ ih =>
    rcases mem_shown hc with hc | ⟨r, hr, hc⟩
    · exact .child hc ih
    · exact .child hr (.child hc ih)

theorem mem_of_prop? {name : String} {p : Part} (h : t.prop? name = some p) :
    (Scalar.str name, p) ∈ t.props := by
  unfold prop? at h
  generalize t.props = props at h ⊢
  induction props with
  | nil => cases h
  | cons e rest ih =>
    obtain ⟨k, q⟩ := e
    rw [Entries.find?] at h
    split at h
    · next hk =>
      cases h
      rw [same_str hk]
      exact List.mem_cons_self
    · exact List.mem_cons_of_mem _ (ih h)

/-- A message that is shown was gathered. -/
theorem Shows.refers (h : t.Shows u) {p : Part} (hp : u.event? = some p)
    (hv : p.variant? = some v) : t.Refers v := by
  obtain ⟨e, name, -, hname, hgiven⟩ := event?_eq_some.mp hp
  have hprop : u.prop? name = some p := (Option.filter_eq_some_iff.mp hgiven).1
  have hon : isMessageProp name = true := by cases e <;> cases hname <;> decide
  exact ⟨u, h.has, name, p, mem_of_prop? hprop, hon, hv⟩

end Template

/-! ## The members that a message names -/

namespace Expr

mutual

/-- The members of the enumeration of messages that an expression names. -/
def members (g : Naming) : Expr → List String
  | array items _ => membersAll g items
  | unary _ e _ => e.members g
  | binary _ l r _ => l.members g ++ r.members g
  | member (ident owner _) name _ =>
    if owner = "Msg" ∨ nameSource g [] owner = g.messages then [name] else []
  | member obj _ _ => obj.members g
  | call callee args _ => callee.members g ++ membersAll g args
  | literal .. | ident .. | node .. => []

def membersAll (g : Naming) : List Expr → List String
  | [] => []
  | e :: rest => e.members g ++ membersAll g rest

end

end Expr

/-- The members of the enumeration of messages that a message names. -/
def Part.members (g : Naming) (p : Part) : List String :=
  match p.variant? with
  | some v => [v]
  | none => match p with
    | .code e => e.members g
    | .known _ => []

section Written

variable {g : Naming} {x : String}

theorem within_commaSeparated {s part : String} (h : Within s part) :
    ∀ {parts : List String}, part ∈ parts → Within s (commaSeparated parts)
  | [p], hp => by
    cases List.mem_singleton.mp hp
    rw [commaSeparated, String.intercalate_singleton]
    exact h
  | p :: q :: rest, hp => by
    rw [Within, Expr.commaSeparated_cons]
    rcases List.mem_cons.mp hp with rfl | hp
    · exact List.IsInfix.trans h (List.prefix_append _ _).isInfix
    · refine List.IsInfix.trans (within_commaSeparated h hp) (List.IsSuffix.isInfix ?_)
      rw [← List.append_assoc]
      exact List.suffix_append _ _

theorem Expr.within_asOperand {s source : String} (e : Expr) (h : Within s source) :
    Within s (e.asOperand source) := by
  unfold asOperand
  split
  · exact (h.after _).before _
  · exact h

namespace Expr

/-- An operand in front of a text that is made one. -/
theorem within_chosen {s source : String} {b : Bool} (e : Expr) (h : Within s source) :
    Within s (if b then "str(" ++ source ++ ")" else e.asOperand source) := by
  split
  · exact (h.after _).before _
  · exact e.within_asOperand h

/-- A name in front of a point is the enumeration's if it is `Msg`. -/
theorem source_owned (owner : String) (line line' : Nat) (name : String) :
    (member (ident owner line) name line').source g []
      = (if owner = "Msg" then g.messages else nameSource g [] owner) ++ "." ++ name := by
  by_cases howner : owner = "Msg"
  · rw [howner, if_pos rfl]
    rfl
  · rw [if_neg howner]
    generalize hr : nameSource g [] owner ++ "." ++ name = r
    unfold source
    split
    case h_6 heq =>
      cases heq
      exact absurd rfl howner
    case h_7 heq =>
      cases heq
      exact hr
    all_goals contradiction

section Member

variable {obj : Expr} (hobj : ∀ y l, obj ≠ ident y l)

include hobj

theorem source_member_other (name : String) (line : Nat) :
    (member obj name line).source g [] = obj.source g [] ++ "." ++ name := by
  cases obj with
  | ident y l => exact absurd rfl (hobj y l)
  | _ => rfl

theorem members_member_other (name : String) (line : Nat) :
    (member obj name line).members g = obj.members g := by
  cases obj with
  | ident y l => exact absurd rfl (hobj y l)
  | _ => rfl

end Member

theorem source_binary (op : BinaryOp) (l r : Expr) (line : Nat) :
    (binary op l r line).source g [] =
      (if joinsLeft op l r then "str(" ++ l.source g [] ++ ")" else l.asOperand (l.source g [])) ++
        " " ++ op.source ++ " " ++
      (if joinsRight op l r then "str(" ++ r.source g [] ++ ")"
        else r.asOperand (r.source g [])) := rfl

mutual

/-- The members that an expression names stand in its source. -/
theorem members_written : ∀ e : Expr, x ∈ e.members g →
    Within (g.messages ++ "." ++ x) (e.source g [])
  | array items _, h => by
    obtain ⟨part, hpart, hin⟩ := membersAll_written items h
    exact ((within_commaSeparated hin hpart).after _).before _
  | unary op e _, h => (e.within_asOperand (members_written e h)).after _
  | binary op l r _, h => by
    rw [source_binary]
    rcases List.mem_append.mp h with h | h
    · have hl := within_chosen (b := joinsLeft op l r) l (members_written l h)
      exact (((hl.before _).before _).before _).before _
    · have hr := within_chosen (b := joinsRight op l r) r (members_written r h)
      exact hr.after _
  | member obj name line, h => by
    rcases ident_or_not obj with ⟨owner, l, rfl⟩ | hobj
    · rw [members] at h
      rw [source_owned]
      split at h
      · next howner =>
        cases List.mem_singleton.mp h
        split
        · exact .refl _
        · next hne =>
          rw [howner.resolve_left hne]
          exact .refl _
      · cases h
    · rw [members_member_other hobj] at h
      rw [source_member_other hobj]
      exact ((members_written obj h).before _).before _
  | call callee args _, h => by
    rcases List.mem_append.mp h with h | h
    · rcases ident_or_not callee with ⟨y, l, rfl⟩ | hcallee
      · cases h
      · rw [source_call hcallee]
        exact (((members_written callee h).before _).before _).before _
    · obtain ⟨part, hpart, hin⟩ := membersAll_written args h
      have hargs := within_commaSeparated hin hpart
      rcases ident_or_not callee with ⟨y, l, rfl⟩ | hcallee
      · rw [source_call_ident]
        exact (hargs.after _).before _
      · rw [source_call hcallee]
        exact (hargs.after _).before _
  | literal .., h => nomatch h
  | ident .., h => nomatch h
  | node .., h => nomatch h

theorem membersAll_written : ∀ es : List Expr, x ∈ membersAll g es →
    ∃ part ∈ sources g [] es, Within (g.messages ++ "." ++ x) part
  | [], h => nomatch h
  | e :: rest, h => by
    rw [sources]
    rcases List.mem_append.mp h with h | h
    · exact ⟨_, List.mem_cons_self, members_written e h⟩
    · obtain ⟨part, hpart, hin⟩ := membersAll_written rest h
      exact ⟨part, List.mem_cons_of_mem _ hpart, hin⟩

end

end Expr

/-- The members that a message names stand in its source. -/
theorem Part.members_written {p : Part} (hx : x ∈ p.members g) {s : String}
    (h : p.messageSource g = .ok s) : Within (g.messages ++ "." ++ x) s := by
  unfold members at hx
  unfold messageSource at h
  cases hv : p.variant? with
  | some v =>
    rw [hv] at hx h
    cases List.mem_singleton.mp hx
    cases h
    exact .refl _
  | none =>
    rw [hv] at hx h
    cases p with
    | code e =>
      cases h
      exact e.members_written hx
    | known v => cases hx

end Written

/-! ## Where the messages are written -/

/-- The texts of the lines on a level. -/
def Line.textsAt (n : Nat) (ls : List Line) : List String :=
  (ls.filter (·.level == n)).map (·.text)

namespace Line

variable {n : Nat} {l : Line} {ls ms : List Line}

theorem textsAt_append : textsAt n (ls ++ ms) = textsAt n ls ++ textsAt n ms := by
  simp [textsAt]

theorem textsAt_cons : textsAt n (l :: ls) = textsAt n [l] ++ textsAt n ls :=
  (textsAt_append : textsAt n ([l] ++ ls) = _)

theorem textsAt_indented : textsAt (n + 1) (indented ls) = textsAt n ls := by
  simp [textsAt, indented, List.filter_map, Function.comp_def]

theorem textsAt_indented_zero : textsAt 0 (indented ls) = [] := by
  simp [textsAt, indented]

end Line

namespace Widget

variable {w : Widget} {types : TypeMap} {messages : String} {c : Component} {g : Naming}

/-- The lines of the members of the enumeration of messages. -/
theorem enumLines_members (messages : String) (variants : List String) :
    enumLines messages variants = .at0 ("class " ++ messages ++ "(Enum):") ::
      if variants = [] then [⟨1, "pass"⟩]
      else variants.map fun v => ⟨1, v ++ " = " ++ Json.quoted v⟩ := by
  cases variants with
  | nil => rfl
  | cons v rest => simp [enumLines, Line.indented, Line.at0]

theorem caseLines_first (locals : List String) (cs : List (String × List Stmt)) :
    Line.textsAt 0 (cs.flatMap (caseLines g locals)) = cs.map fun c => "case " ++ c.1 ++ ":" := by
  induction cs with
  | nil => rfl
  | cons c rest ih =>
    rw [List.flatMap_cons, Line.textsAt_append, ih, caseLines, Line.textsAt_cons,
      Line.textsAt_indented_zero]
    rfl

/-- The cases of the outermost choice of the event method. -/
theorem eventLines_cases (w : Widget) (variants : List String) :
    Line.textsAt 2 (w.eventLines g variants)
      = variants.map (fun v => "case " ++ (g.messages ++ "." ++ v) ++ ":") ++
        if (w.handlers.lookup wildcard).isSome then ["case " ++ wildcard ++ ":"] else [] := by
  have hcases : (w.cases g.messages variants).map (fun c => "case " ++ c.1 ++ ":")
      = variants.map (fun v => "case " ++ (g.messages ++ "." ++ v) ++ ":") ++
        if (w.handlers.lookup wildcard).isSome then ["case " ++ wildcard ++ ":"] else [] := by
    unfold cases
    cases w.handlers.lookup wildcard <;> simp [Function.comp_def]
  have hremarks : Line.textsAt 1 ((w.unreferenced variants).map fun v =>
      .at0 ("# no view event references " ++ g.messages ++ "." ++ v)) = [] := by
    simp [Line.textsAt, Line.at0]
  rw [← hcases, eventLines, Line.textsAt_cons, Line.textsAt_indented, Line.textsAt_append, hremarks]
  cases w.cases g.messages variants with
  | nil => rfl
  | cons first rest =>
    have hbody : Line.textsAt 1 (.at0 ("match " ++ w.eventName ++ ":") ::
        Line.indented ((first :: rest).flatMap (caseLines g [w.eventName])))
        = (first :: rest).map fun c => "case " ++ c.1 ++ ":" := by
      rw [Line.textsAt_cons, Line.textsAt_indented, caseLines_first]
      rfl
    exact hbody

/-- The lines that build the view stand in the class. -/
theorem classLines_view {variants : List String} {ls : List Line}
    (h : w.classLines g types variants = .ok ls) : ∃ body, w.view.lines g "return " "" = .ok body ∧
      ∀ l ∈ body, l.text ∈ Line.texts ls := by
  obtain ⟨_, -, h⟩ := bind_eq_ok.mp h
  obtain ⟨view, hview, h⟩ := bind_eq_ok.mp h
  cases h
  obtain ⟨body, hbody, h⟩ := bind_eq_ok.mp hview
  cases h
  refine ⟨body, hbody, fun l hl => ?_⟩
  have htext : l.text ∈ Line.texts body := List.mem_map_of_mem hl
  simp [htext]

/-- **The messages of a component agree with what is written.** They are sorted; the enumeration
has one member for each of them, and the event method one case for each in the same order, and one
for all others exactly if there is a handler for these. The message of every node that the view
shows is written into it, and all these messages name members of the enumeration exactly if every
member inside a message that is none itself is a message of some property of the view. -/
theorem component_variants (h : w.component types messages = .ok c) :
    c.variants.Pairwise (· < ·) ∧
    ((.at0 ("class " ++ messages ++ "(Enum):") ::
      if c.variants = [] then [⟨1, "pass"⟩]
      else c.variants.map fun v => ⟨1, v ++ " = " ++ Json.quoted v⟩) ++
        [.blank, .blank] <+: c.lines) ∧
    (Line.indented (w.eventLines (w.naming messages) c.variants) <:+: c.lines ∧
      Line.textsAt 2 (w.eventLines (w.naming messages) c.variants)
        = c.variants.map (fun v => "case " ++ (messages ++ "." ++ v) ++ ":") ++
          if (w.handlers.lookup wildcard).isSome then ["case " ++ wildcard ++ ":"] else []) ∧
    (∀ u, w.view.Shows u → ∀ p, u.event? = some p →
      ∃ m, p.messageSource (w.naming messages) = .ok m ∧ ∃ l ∈ c.lines, Within m l.text) ∧
    ((∀ u, w.view.Shows u → ∀ p, u.event? = some p →
        ∀ x ∈ p.members (w.naming messages), x ∈ c.variants) ↔
      ∀ u, w.view.Shows u → ∀ p, u.event? = some p → p.variant? = none →
        ∀ x ∈ p.members (w.naming messages), w.view.Refers x) := by
  have hevents := eventLines_within h
  obtain ⟨_, -, h⟩ := bind_eq_ok.mp h
  obtain ⟨symbols, hsymbols, h⟩ := bind_eq_ok.mp h
  obtain ⟨_, -, h⟩ := bind_eq_ok.mp h
  obtain ⟨lines, hlines, h⟩ := bind_eq_ok.mp h
  obtain ⟨_, -, h⟩ := bind_eq_ok.mp h
  cases h
  have hsymbols : w.view.symbols = .ok symbols := by
    cases hview : w.view.symbols with
    | error f =>
      rw [hview] at hsymbols
      cases hsymbols
    | ok s =>
      rw [hview] at hsymbols
      cases hsymbols
      rfl
  obtain ⟨hsorted, hmem⟩ := Template.symbols_variants hsymbols
  refine ⟨hsorted, ?_, ⟨hevents, eventLines_cases w _⟩, fun u hu p hp => ?_,
    fun hall u hu p hp _ x hx => ?_, fun hnone u hu p hp x hx => ?_⟩
  · rw [← enumLines_members]
    exact List.prefix_append _ _
  · obtain ⟨body, hbody, hin⟩ := classLines_view hlines
    obtain ⟨m, hm, l, hl, hwithin⟩ := hu.written hp hbody
    obtain ⟨l', hl', htext⟩ := List.mem_map.mp (hin l hl)
    exact ⟨m, hm, l', List.mem_append_right _ hl', htext ▸ hwithin⟩
  · exact (hmem x).mp (hall u hu p hp x hx)
  · rw [hmem]
    cases hv : p.variant? with
    | none => exact hnone u hu p hp hv x hx
    | some v =>
      unfold Part.members at hx
      rw [hv] at hx
      cases List.mem_singleton.mp hx
      exact hu.refers hp hv

/-! ## Two buttons -/

/-- The only widget of a text. -/
def ofText? (source : String) : Option Widget :=
  (parse source none).toOption.bind fun code =>
    (Generation.widgetsOf {} none code.widgets).toOption.bind List.head?

/-- A button whose message is a member. -/
def clickedSource : String :=
  "type W is Widget \x7b fn view() \x7b button(\"go\") \x7b onclick: Msg.A \x7d \x7d \x7d"

/-- Its message is the member of the enumeration, and the one case of the event method. -/
theorem clicked_declared : ∃ w c, ofText? clickedSource = some w ∧
    w.component .standard "Msg" = .ok c ∧ c.variants = ["A"] ∧
    Line.textsAt 2 (w.eventLines (w.naming "Msg") c.variants) = ["case Msg.A:"] ∧
    ∀ u, w.view.Shows u → ∀ p, u.event? = some p →
      ∀ x ∈ p.members (w.naming "Msg"), x ∈ c.variants := by
  have hwidget : (ofText? clickedSource).any (fun w =>
      (w.handlers.lookup wildcard).isNone && w.view.shown.isEmpty &&
        w.view.event?.all (·.variant?.isSome) &&
        (w.component .standard "Msg").toOption.any (·.variants == ["A"])) = true := by
    decide +kernel
  cases hw : ofText? clickedSource with
  | none =>
    rw [hw] at hwidget
    cases hwidget
  | some w =>
    rw [hw, Option.any_some, Bool.and_eq_true, Bool.and_eq_true, Bool.and_eq_true,
      List.isEmpty_iff] at hwidget
    obtain ⟨⟨⟨hother, hshown⟩, hevent⟩, hc⟩ := hwidget
    cases hc' : w.component .standard "Msg" with
    | error f =>
      rw [hc'] at hc
      cases hc
    | ok c =>
      rw [hc', Except.toOption, Option.any_some, beq_iff_eq] at hc
      obtain ⟨-, -, ⟨-, hcases⟩, -, hnames⟩ := component_variants hc'
      refine ⟨w, c, rfl, hc', hc, ?_, hnames.mpr fun u hu p hp hnone => ?_⟩
      · rw [hcases, hc, Option.isNone_iff_eq_none.mp hother]
        rfl
      · cases hu with
        | self =>
          rw [hp, Option.all_some, hnone] at hevent
          cases hevent
        | step hstep =>
          rw [hshown] at hstep
          cases hstep

/-- A button whose message is picked by a method. -/
def pickedSource : String :=
  "type W is Widget \x7b fn pick(m) \x7b m \x7d " ++
    "fn view() \x7b button(\"go\") \x7b onclick: pick(Msg.A) \x7d \x7d \x7d"

/-- It is shown, and its message names a member that the enumeration does not have. -/
theorem picked_undeclared : ∃ w c, ofText? pickedSource = some w ∧
    w.component .standard "Msg" = .ok c ∧ c.variants = [] ∧
    (∃ l ∈ c.lines, l.text = "return View.button(\"go\", self.pick(Msg.A))") ∧
    ∃ p, w.view.event? = some p ∧ "A" ∈ p.members (w.naming "Msg") := by
  have hwidget : (ofText? pickedSource).any (fun w =>
      w.view.event?.any (fun p => (p.members (w.naming "Msg")).contains "A") &&
        (w.component .standard "Msg").toOption.any fun c => c.variants == [] &&
          c.lines.any (·.text == "return View.button(\"go\", self.pick(Msg.A))")) = true := by
    decide +kernel
  obtain ⟨w, hw, hwidget⟩ := (Option.any_eq_true _ _).mp hwidget
  rw [Bool.and_eq_true] at hwidget
  obtain ⟨p, hp, hmember⟩ := (Option.any_eq_true _ _).mp hwidget.1
  obtain ⟨c, hc, hlines⟩ := (Option.any_eq_true _ _).mp hwidget.2
  rw [Bool.and_eq_true, beq_iff_eq] at hlines
  obtain ⟨l, hl, htext⟩ := List.any_eq_true.mp hlines.2
  refine ⟨w, c, hw, ?_, hlines.1, ⟨l, hl, eq_of_beq htext⟩, p, hp,
    List.contains_iff_mem.mp hmember⟩
  cases hc' : w.component .standard "Msg" with
  | error f =>
    rw [hc'] at hc
    cases hc
  | ok c' =>
    rw [hc'] at hc
    cases hc
    rfl

end Widget

end Widgetry
