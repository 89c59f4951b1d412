import Widgetry.Generation.Builder
import Widgetry.Proofs.Generation.Remarks
import Widgetry.Proofs.Value.References

/-!
# Remarks in generated views

An element writes some of the arguments and properties of its node, and always in front of something
else on the same line. So none of these may hold a node expression: its remark would swallow the
rest of the line. A node of an unknown kind leaves a remark too, but behind all else on its line.

> `Template.lines_blocks`: the lines that build a view can be read up to their end if no element in
> it writes a node expression (`Template.nodeFree`), and cannot be read otherwise.

Children do no harm, as each is built by lines of its own.
-/

namespace Widgetry

open Lexical

/-! ## What an element writes -/

namespace Element

/-- The properties that an element writes. -/
def properties : Element → List String
  | column | row => ["spacing", "padding", "style"]
  | center => []
  | container => ["padding", "width", "height", "style"]
  | scrollable => ["width", "height", "style"]
  | text => ["style"]
  | button => ["onclick", "style"]
  | input => ["value", "width", "on_change", "style"]
  | checkbox => ["is_checked", "style", "on_toggle"]
  | radio => ["is_selected", "style", "on_select"]
  | select => ["options", "selected_index", "style", "on_select"]
  | list => ["spacing", "style"]
  | table => ["spacing", "col_spacing", "style"]

/-- Whether an element writes its first argument. -/
def hasText : Element → Bool
  | text | button | input | checkbox | radio => true
  | _ => false

end Element

namespace Part

/-- Whether no node expression is written into the source of a part. -/
def nodeFree : Part → Bool
  | .known _ => true
  | .code e => e.nodeFree

/-- Whether all names in a part are words. -/
def Worded (p : Part) : Prop := ∀ e, p = .code e → e.Worded

end Part

namespace Template

/-- Whether no node expression is written for the first argument. -/
def textFree (t : Template) : Bool := t.args.head?.all Part.nodeFree

/-- Whether no node expression is written for a property. -/
def propFree (t : Template) (name : String) : Bool := (t.prop? name).all Part.nodeFree

/-- Whether an element writes no node expression of its own. -/
def ownFree (t : Template) (e : Element) : Bool :=
  (!e.hasText || t.textFree) && e.properties.all t.propFree

mutual

/-- Whether no node expression is written into the lines that build a view. -/
def nodeFree : Template → Bool
  | mk kind args props children =>
    match Element.ofKind? kind with
    | none => true
    | some e => (mk kind args props children).ownFree e &&
      match e with
      | .column | .row | .list => allNodeFree children
      | .center | .container | .scrollable => firstNodeFree children
      | .table => headersNodeFree children && rowsNodeFree children
      | _ => true

def firstNodeFree : List Template → Bool
  | [] => true
  | t :: _ => t.nodeFree

def allNodeFree : List Template → Bool
  | [] => true
  | t :: rest => t.nodeFree && allNodeFree rest

/-- A header without children is written as a text. -/
def headersNodeFree : List Template → Bool
  | [] => true
  | mk kind args props children :: rest =>
    (if kind.same (.str "header") then
      match children with
      | [] => (mk kind args props []).ownFree .text
      | t :: _ => t.nodeFree
    else true) && headersNodeFree rest

def rowsNodeFree : List Template → Bool
  | [] => true
  | mk kind _ _ children :: rest =>
    (if kind.same (.str "row") then allNodeFree children else true) && rowsNodeFree rest

end

/-- Whether all names in a template are words. -/
inductive Worded : Template → Prop where
  | mk {kind : String} {args : List Part} {props : List (Key × Part)} {children : List Template} :
      IsWord kind → (∀ p ∈ args, p.Worded) → (∀ e ∈ props, e.2.Worded) →
      (∀ c ∈ children, Worded c) → Worded (.mk (.str kind) args props children)

abbrev AllWorded (ts : List Template) : Prop := ∀ t ∈ ts, t.Worded

theorem Worded.arg {t : Template} (h : t.Worded) : ∀ p ∈ t.args, p.Worded := by
  cases h with
  | mk _ hargs _ _ => exact hargs

theorem Worded.children {t : Template} (h : t.Worded) : AllWorded t.children := by
  cases h with
  | mk _ _ _ hchildren => exact hchildren

theorem Worded.prop {t : Template} (h : t.Worded) {name : String} {p : Part}
    (hp : t.prop? name = some p) : p.Worded := by
  cases h with
  | mk _ _ hprops _ =>
    obtain ⟨e, he, rfl⟩ := Entries.mem_of_find? hp
    exact hprops e he

end Template

/-! ## Parts -/

variable {g : Naming}

theorem Scalar.variant?_named {s : Scalar} {v : String} (h : s.variant? = some v) : Named v := by
  cases s with
  | str text =>
    rw [Scalar.variant?, textVariant?] at h
    split at h
    · next hname =>
      cases h
      exact named_of_isIdentifier hname
    · cases h
  | _ => cases h

/-- What is written as a message has a name and no node expression. -/
theorem Expr.variant?_named {e : Expr} (he : e.Worded) {v : String} (h : e.variant? = some v) :
    Named v ∧ e.nodeFree = true := by
  unfold Expr.variant? at h
  split at h
  · split at h
    · cases h
    · cases h
      cases he with
      | member _ hv => exact ⟨named_of_word hv, rfl⟩
  · exact ⟨Scalar.variant?_named h, rfl⟩
  · cases h

namespace Part

theorem variant?_named {p : Part} (hp : p.Worded) {v : String} (h : p.variant? = some v) :
    Named v ∧ p.nodeFree = true := by
  cases p with
  | code e => exact Expr.variant?_named (hp e rfl) h
  | known u =>
    cases u with
    | scalar s => exact ⟨Scalar.variant?_named h, rfl⟩
    | _ => cases h

theorem source_moves (hg : Named g.messages) {p : Part} (hp : p.Worded) {s : String}
    (h : p.source g = .ok s) : Moves Interrupted p.nodeFree [] [] s := by
  cases p with
  | code e =>
    cases h
    exact (Expr.source_moves [] hg e (hp e rfl)).within
  | known v =>
    cases v with
    | node n =>
      cases h
      exact moves_fixed rfl
    | _ => exact (moves_literal _ h).within

theorem messageSource_moves (hg : Named g.messages) {p : Part} (hp : p.Worded) {s : String}
    (h : p.messageSource g = .ok s) : Moves Interrupted p.nodeFree [] [] s := by
  unfold messageSource at h
  split at h
  · next v hv =>
    cases h
    obtain ⟨hname, hfree⟩ := variant?_named hp hv
    have hpoint : Moves Any true [] [] "." := moves_fixed rfl
    rw [hfree]
    exact (hg.moves.after hpoint).after hname.moves
  · exact source_moves hg hp h

end Part

namespace Template

/-! ## Settings -/

variable {t : Template} {s : String}

theorem mainSource_moves (hg : Named g.messages) (ht : t.Worded) (h : t.mainSource g = .ok s) :
    Moves Interrupted t.textFree [] [] s := by
  have hargs := ht.arg
  unfold mainSource at h
  unfold textFree
  split at h
  · next hnil =>
    cases h
    have hquoted : Json.quoted "" = "\"\"" := by decide +kernel
    rw [hnil, ← hquoted]
    exact (moves_quoted "").within
  · next p rest hcons =>
    rw [hcons] at hargs ⊢
    exact Part.source_moves hg (hargs p List.mem_cons_self) h

theorem propSource_moves (hg : Named g.messages) (ht : t.Worded) {name default : String}
    (hdefault : pushes [] default.toList = some []) (h : t.propSource g name default = .ok s) :
    Moves Interrupted (t.propFree name) [] [] s := by
  unfold propSource at h
  unfold propFree
  split at h
  · next p hp =>
    rw [hp]
    exact Part.source_moves hg (ht.prop hp) h
  · next hnone =>
    cases h
    rw [hnone]
    exact moves_fixed hdefault

/-- What is not given is not written. -/
theorem given?_cases (t : Template) (name : String) :
    (t.given? name = none ∧ t.propFree name = true) ∨
      ∃ p, t.given? name = some p ∧ t.prop? name = some p ∧ t.propFree name = p.nodeFree := by
  unfold given? propFree
  cases hp : t.prop? name with
  | none => exact Or.inl ⟨rfl, rfl⟩
  | some p =>
    cases hnil : p.isNil with
    | true =>
      refine Or.inl ⟨by simp [hnil], ?_⟩
      unfold Part.isNil at hnil
      split at hnil
      · rfl
      · cases hnil
    | false => exact Or.inr ⟨p, by simp [hnil], rfl, rfl⟩

theorem call_moves {source : Part → Except GenerationFault String}
    (hsource : ∀ p, p.Worded → ∀ s, source p = .ok s → Moves Interrupted p.nodeFree [] [] s)
    (ht : t.Worded) {set : Setting} (hset : Named set.method) (h : set.call source t = .ok s) :
    Moves Any (t.propFree set.prop) [] [] s := by
  unfold Setting.call at h
  rcases t.given?_cases set.prop with ⟨hnone, hfree⟩ | ⟨p, hsome, hp, hfree⟩
  · rw [hnone] at h
    cases h
    rw [hfree]
    exact .empty
  · rw [hsome] at h
    obtain ⟨text, htext, h⟩ := bind_eq_ok.mp h
    cases h
    have hmethod : Moves Any true [] [')'] ("." ++ set.method ++ "(") :=
      ((moves_fixed rfl).after hset.moves).after (moves_fixed rfl)
    rw [hfree]
    exact moves_enclosed hmethod (hsource p (ht.prop hp) text htext)
      (interrupts_of rfl (by decide)) (moves_fixed rfl)

theorem calls_moves {source : Part → Except GenerationFault String}
    (hsource : ∀ p, p.Worded → ∀ s, source p = .ok s → Moves Interrupted p.nodeFree [] [] s)
    (ht : t.Worded) {sets : List Setting} (hsets : ∀ set ∈ sets, Named set.method) {s : String}
    (h : Setting.calls source t sets = .ok s) :
    Moves Any ((sets.map (·.prop)).all t.propFree) [] [] s := by
  induction sets generalizing s with
  | nil =>
    cases h
    exact .empty
  | cons set rest ih =>
    obtain ⟨first, hfirst, h⟩ := bind_eq_ok.mp h
    obtain ⟨others, hothers, h⟩ := bind_eq_ok.mp h
    cases h
    have hset := call_moves hsource ht (hsets set List.mem_cons_self) hfirst
    have hrest := ih (fun set hs => hsets set (List.mem_cons_of_mem _ hs)) hothers
    exact hset.both hrest

theorem valueCalls_moves (hg : Named g.messages) (ht : t.Worded) {sets : List Setting}
    (hsets : sets.all (Text.isIdentifier ·.method) = true) (h : t.valueCalls g sets = .ok s) :
    Moves Any ((sets.map (·.prop)).all t.propFree) [] [] s :=
  calls_moves (fun _ hp _ => Part.source_moves hg hp) ht
    (fun set hs => named_of_isIdentifier (List.all_eq_true.mp hsets set hs)) h

theorem messageCall_moves (hg : Named g.messages) (ht : t.Worded) {prop method : String}
    (hmethod : Text.isIdentifier method = true) (h : t.messageCall g prop method = .ok s) :
    Moves Any (t.propFree prop) [] [] s := by
  have hname : Named (Setting.mk prop method).method := named_of_isIdentifier hmethod
  exact call_moves (fun _ hp _ => Part.messageSource_moves hg hp) ht hname h

theorem flagCall_moves (t : Template) {name : String} (hname : Text.isIdentifier name = true) :
    Moves Any true [] [] (t.flagCall name) := by
  have hcall : Moves Any true [] [] ("." ++ name ++ "()") :=
    ((moves_fixed rfl).after (named_of_isIdentifier hname).moves).after (moves_fixed rfl)
  unfold flagCall
  split
  · split
    · exact hcall
    · exact .empty
  · exact .empty

/-- An argument with the style behind it. -/
theorem styled_moves (hg : Named g.messages) (ht : t.Worded) {b : Bool} {main : String}
    (hmain : Moves Interrupted b [] [] main) (h : t.styleArgument g = .ok s) :
    Moves Interrupted (b && t.propFree "style") [] [] (main ++ s) := by
  unfold styleArgument at h
  rcases t.given?_cases "style" with ⟨hnone, hfree⟩ | ⟨p, hsome, hp, hfree⟩
  · rw [hnone] at h
    cases h
    rwa [hfree, Bool.and_true, String.append_empty]
  · rw [hsome] at h
    obtain ⟨text, htext, h⟩ := bind_eq_ok.mp h
    cases h
    have hstart : Interrupts ", style=" := interrupts_of rfl (by decide)
    have hstyle := Part.source_moves hg (ht.prop hp) htext
    rw [hfree]
    exact hmain.then (hstart.append text) ((moves_fixed rfl).after hstyle)

/-! ## Elements without children -/

theorem textSource_moves (hg : Named g.messages) (ht : t.Worded) (h : t.textSource g = .ok s) :
    Moves Any (t.ownFree .text) [] [] s := by
  obtain ⟨style, hstyle, h⟩ := bind_eq_ok.mp h
  obtain ⟨main, hmain, h⟩ := bind_eq_ok.mp h
  cases h
  have hall : Moves Any _ [] [] ("View.text(" ++ (main ++ style) ++ ")") :=
    moves_enclosed (moves_fixed rfl) (styled_moves hg ht (mainSource_moves hg ht hmain) hstyle)
      (interrupts_of rfl (by decide)) (moves_fixed rfl)
  simpa [ownFree, Element.hasText, Element.properties, String.append_assoc] using hall

theorem buttonSource_moves (hg : Named g.messages) (ht : t.Worded) (h : t.buttonSource g = .ok s) :
    Moves Any (t.ownFree .button) [] [] s := by
  unfold buttonSource at h
  -- with a message or without, the rest is the same
  have hclick : ∃ message, Moves Interrupted (t.propFree "onclick") [] [] message ∧
      (do
        let style ← t.styleArgument g
        let main ← t.mainSource g
        return "View.button(" ++ main ++ ", " ++ message ++ style ++ ")") = .ok s := by
    rcases t.given?_cases "onclick" with ⟨hnone, hfree⟩ | ⟨p, hsome, hp, hfree⟩
    · rw [hnone] at h
      exact ⟨"None", hfree ▸ moves_fixed rfl, h⟩
    · rw [hsome] at h
      obtain ⟨message, hmessage, h⟩ := bind_eq_ok.mp h
      exact ⟨message, hfree ▸ Part.messageSource_moves hg (ht.prop hp) hmessage, h⟩
  obtain ⟨message, hclick, h⟩ := hclick
  obtain ⟨style, hstyle, h⟩ := bind_eq_ok.mp h
  obtain ⟨main, hmain, h⟩ := bind_eq_ok.mp h
  cases h
  have hcomma : Moves Any true [] [] ", " := moves_fixed rfl
  have hstart : Interrupts ", " := interrupts_of rfl (by decide)
  have hmain' := (mainSource_moves hg ht hmain).then (hstart.append message) (hcomma.after hclick)
  have hall : Moves Any _ [] [] ("View.button(" ++ (main ++ (", " ++ message) ++ style) ++ ")") :=
    moves_enclosed (moves_fixed rfl) (styled_moves hg ht hmain' hstyle)
      (interrupts_of rfl (by decide)) (moves_fixed rfl)
  simpa [ownFree, Element.hasText, Element.properties, String.append_assoc, Bool.and_assoc]
    using hall

theorem inputSource_moves (hg : Named g.messages) (ht : t.Worded) (h : t.inputSource g = .ok s) :
    Moves Any (t.ownFree .input) [] [] s := by
  obtain ⟨settings, hsettings, h⟩ := bind_eq_ok.mp h
  obtain ⟨message, hmessage, h⟩ := bind_eq_ok.mp h
  obtain ⟨style, hstyle, h⟩ := bind_eq_ok.mp h
  obtain ⟨main, hmain, h⟩ := bind_eq_ok.mp h
  cases h
  have hcall : Moves Any t.textFree [] [] ("View.input(" ++ main ++ ")") :=
    moves_enclosed (moves_fixed rfl) (mainSource_moves hg ht hmain)
      (interrupts_of rfl (by decide)) (moves_fixed rfl)
  have hvalue := valueCalls_moves hg ht (by decide +kernel) hsettings
  have hchange := messageCall_moves hg ht (by decide +kernel) hmessage
  have hpassword := t.flagCall_moves (by decide +kernel : Text.isIdentifier "password" = true)
  have hlook := valueCalls_moves hg ht (by decide +kernel) hstyle
  have hbuild : Moves Any true [] [] ".build()" := moves_fixed rfl
  have hfront := (hcall.both hvalue).both hchange
  have hall := ((hfront.before hpassword).both hlook).before hbuild
  simpa [ownFree, Element.hasText, Element.properties, Setting.named, Setting.style,
    Bool.and_assoc] using hall

theorem choiceSource_moves (hg : Named g.messages) (ht : t.Worded)
    {call state prop method : String} (hcall : pushes [] (call ++ "(").toList = some [')'])
    (hmethod : Text.isIdentifier method = true)
    (h : t.choiceSource g call state prop method = .ok s) :
    Moves Any (t.textFree && [state, "style", prop].all t.propFree) [] [] s := by
  obtain ⟨on, hon, h⟩ := bind_eq_ok.mp h
  obtain ⟨main, hmain, h⟩ := bind_eq_ok.mp h
  obtain ⟨style, hstyle, h⟩ := bind_eq_ok.mp h
  obtain ⟨message, hmessage, h⟩ := bind_eq_ok.mp h
  cases h
  have hcomma : Moves Any true [] [] ", " := moves_fixed rfl
  have hstart : Interrupts ", " := interrupts_of rfl (by decide)
  have hstate := propSource_moves hg ht rfl hon
  have harguments := hstate.then (hstart.append main) (hcomma.after (mainSource_moves hg ht hmain))
  have hhead : Moves Any _ [] [] (call ++ "(" ++ (on ++ (", " ++ main)) ++ ")") :=
    moves_enclosed (moves_fixed hcall) harguments (interrupts_of rfl (by decide)) (moves_fixed rfl)
  have hlook := valueCalls_moves hg ht (by decide +kernel) hstyle
  have htail := hlook.both (messageCall_moves hg ht hmethod hmessage)
  have hall := hhead.both htail
  simpa [Setting.elementStyle, String.append_assoc, Bool.and_left_comm, Bool.and_assoc] using hall

theorem selectSource_moves (hg : Named g.messages) (ht : t.Worded) (h : t.selectSource g = .ok s) :
    Moves Any (t.ownFree .select) [] [] s := by
  obtain ⟨options, hoptions, h⟩ := bind_eq_ok.mp h
  obtain ⟨settings, hsettings, h⟩ := bind_eq_ok.mp h
  obtain ⟨message, hmessage, h⟩ := bind_eq_ok.mp h
  cases h
  have hcall : Moves Any (t.propFree "options") [] [] ("View.select(" ++ options ++ ")") :=
    moves_enclosed (moves_fixed rfl) (propSource_moves hg ht rfl hoptions)
      (interrupts_of rfl (by decide)) (moves_fixed rfl)
  have hchosen := valueCalls_moves hg ht (by decide +kernel) hsettings
  have hmessage' := messageCall_moves hg ht (by decide +kernel) hmessage
  have hall := (hcall.both hchosen).both hmessage'
  simpa [ownFree, Element.hasText, Element.properties, Setting.elementStyle, Bool.and_assoc]
    using hall

theorem containerTail_moves (hg : Named g.messages) (ht : t.Worded)
    (h : t.containerTail g = .ok s) : Moves Any (t.ownFree .container) [] [] s := by
  obtain ⟨settings, hsettings, h⟩ := bind_eq_ok.mp h
  obtain ⟨style, hstyle, h⟩ := bind_eq_ok.mp h
  cases h
  have hsize := valueCalls_moves hg ht (by decide +kernel) hsettings
  have hx := t.flagCall_moves (by decide +kernel : Text.isIdentifier "center_x" = true)
  have hy := t.flagCall_moves (by decide +kernel : Text.isIdentifier "center_y" = true)
  have hlook := valueCalls_moves hg ht (by decide +kernel) hstyle
  have hbuild : Moves Any true [] [] ".build()" := moves_fixed rfl
  have hall := (((hsize.before hx).before hy).both hlook).before hbuild
  simpa [ownFree, Element.hasText, Element.properties, Setting.named, Setting.style,
    Bool.and_assoc] using hall

/-! ## Trees -/

/-- An element on a line of its own. -/
theorem blocks_element {b : Bool} {before after : String} {ls : List Line}
    {source : Except GenerationFault String} (hbefore : Moves Any true [] [] before)
    (hsource : ∀ s, source = .ok s → Moves Any b [] [] s) (hafter : Moves Any true [] [] after)
    (h : (do
      let s ← source
      return [Line.at0 (before ++ s ++ after)]) = .ok ls) : Blocks (b && true) [] [] ls := by
  obtain ⟨s, hs, h⟩ := bind_eq_ok.mp h
  cases h
  rw [Bool.and_true]
  exact .line ((hbefore.after (hsource s hs)).before hafter.any)

/-- A node of an unknown kind, whose remark stands behind all else on its line. -/
theorem blocks_unknown {before after name : String} (hbefore : Moves Any true [] [] before)
    (hafter : Moves Any true [] [] after) (hname : Named name) :
    Blocks true [] []
      [.at0 (before ++ "View.empty()" ++ after ++ "  # unknown call: " ++ name)] := by
  have hview : Moves Any true [] [] "View.empty()" := moves_fixed rfl
  have hblank : Moves Any true [] [] "  " := moves_fixed rfl
  have hremark : Moves LineEnd true [] [] ("#" ++ (" unknown call: " ++ name)) :=
    moves_nameRemark (by simp [remarks]) hname
  have hall := (((hbefore.after hview).after hafter).after hblank).after hremark
  have hsplit : before ++ "View.empty()" ++ after ++ "  # unknown call: " ++ name
      = before ++ "View.empty()" ++ after ++ "  " ++ ("#" ++ (" unknown call: " ++ name)) := by
    apply String.toList_injective
    simp
  rw [hsplit]
  exact .line hall

/-- The lines of a table, between those of its headers and those of its rows. -/
theorem blocks_table {b b' b₂ : Bool} {before tail after : String} {headers rows : List Line}
    (hbefore : Moves Any true [] [] before) (hheaders : Blocks b [] [] headers)
    (hrows : Blocks b' [] [] rows) (htail : Moves Any b₂ [] [] tail)
    (hafter : Moves Any true [] [] after) :
    Blocks ((b && b') && b₂) [] [] (.at0 (before ++ "View.table(") ::
      Line.indented (.at0 "[" :: Line.indented headers ++ .at0 "]," ::
        .at0 "[" :: Line.indented rows ++ [.at0 "],"]) ++
      [.at0 (")" ++ tail ++ ".build()" ++ after)]) := by
  have hopening : Moves LineEnd true [] [']'] "[" := moves_fixed rfl
  have hclosing : Moves LineEnd true [']'] [] "]," := moves_fixed rfl
  have hfirst : Blocks b [] [] (.at0 "[" :: Line.indented headers ++ [.at0 "],"]) := by
    simpa using Blocks.around hopening hheaders hclosing
  have hsecond : Blocks b' [] [] (.at0 "[" :: Line.indented rows ++ [.at0 "],"]) := by
    simpa using Blocks.around hopening hrows hclosing
  have htable : Moves LineEnd true [] [')'] (before ++ "View.table(") :=
    hbefore.after (moves_fixed rfl)
  have hfront : Moves Any true [')'] [] ")" := moves_fixed rfl
  have hlast : Moves LineEnd b₂ [')'] [] (")" ++ tail ++ ".build()" ++ after) :=
    ((hfront.after htail).before (moves_fixed rfl)).before hafter.any
  simpa using Blocks.around htable (hfirst.append hsecond) hlast

mutual

/-- **The lines that build a view can be read up to their end if no node expression is written into
them, and cannot be read otherwise.** -/
theorem lines_blocks (hg : Named g.messages) : ∀ (t : Template) {before after : String}
    {ls : List Line}, t.Worded → Moves Any true [] [] before → Moves Any true [] [] after →
    t.lines g before after = .ok ls → Blocks t.nodeFree [] [] ls
  | mk kind args props children, before, after, ls, ht, hbefore, hafter, h => by
    have hchildren : AllWorded children := ht.children
    have hbuild : Moves Any true [] [] ".build()" := moves_fixed rfl
    rw [lines] at h
    rw [nodeFree]
    cases hkind : Element.ofKind? kind with
    | none =>
      rw [hkind] at h
      cases ht with
      | mk hname _ _ _ =>
        cases h
        exact blocks_unknown hbefore hafter (Expr.named_of_word hname)
    | some e =>
      rw [hkind] at h
      cases e with
      | text => exact blocks_element hbefore (fun _ => textSource_moves hg ht) hafter h
      | button => exact blocks_element hbefore (fun _ => buttonSource_moves hg ht) hafter h
      | input => exact blocks_element hbefore (fun _ => inputSource_moves hg ht) hafter h
      | checkbox =>
        have hmethod : Text.isIdentifier "with_toggle" = true := by decide +kernel
        exact blocks_element hbefore (fun _ => choiceSource_moves hg ht rfl hmethod) hafter h
      | radio =>
        have hmethod : Text.isIdentifier "with_select" = true := by decide +kernel
        exact blocks_element hbefore (fun _ => choiceSource_moves hg ht rfl hmethod) hafter h
      | select => exact blocks_element hbefore (fun _ => selectSource_moves hg ht) hafter h
      | column =>
        obtain ⟨settings, hsettings, h⟩ := bind_eq_ok.mp h
        have hcol : Moves Any true [] [] "View.col()" := moves_fixed rfl
        have hhead := hcol.after (valueCalls_moves hg ht (by decide +kernel) hsettings)
        exact layoutLines_blocks hg children hchildren hbefore hhead hafter h
      | row =>
        obtain ⟨settings, hsettings, h⟩ := bind_eq_ok.mp h
        have hrow : Moves Any true [] [] "View.row()" := moves_fixed rfl
        have hhead := hrow.after (valueCalls_moves hg ht (by decide +kernel) hsettings)
        exact layoutLines_blocks hg children hchildren hbefore hhead hafter h
      | center =>
        have htail : Moves Any true [] [] ".center().build()" := moves_fixed rfl
        exact singleLines_blocks hg children hchildren hbefore rfl htail hafter h
      | container =>
        obtain ⟨tail, htail, h⟩ := bind_eq_ok.mp h
        have htail' := containerTail_moves hg ht htail
        exact singleLines_blocks hg children hchildren hbefore rfl htail' hafter h
      | scrollable =>
        obtain ⟨settings, hsettings, h⟩ := bind_eq_ok.mp h
        have htail := (valueCalls_moves hg ht (by decide +kernel) hsettings).before hbuild
        exact singleLines_blocks hg children hchildren hbefore rfl htail hafter h
      | list =>
        obtain ⟨tail, htail, h⟩ := bind_eq_ok.mp h
        have htail' := valueCalls_moves hg ht (by decide +kernel) htail
        cases children with
        | nil =>
          cases h
          have hlist : Moves Any true [] [] "View.list([])" := moves_fixed rfl
          have hend : Moves LineEnd true [] [] (".build()" ++ after) := hbuild.before hafter.any
          have hall := ((hbefore.after hlist).after htail').both hend
          rw [← String.append_assoc] at hall
          exact .line hall
        | cons c rest =>
          obtain ⟨inside, hinside, h⟩ := bind_eq_ok.mp h
          cases h
          have hopening : Moves LineEnd true [] [']', ')'] "View.list([" := moves_fixed rfl
          have hclosing : Moves Any true [']', ')'] [] "])" := moves_fixed rfl
          have hall := Blocks.around (hbefore.after hopening)
            (eachLines_blocks hg (c :: rest) hchildren hinside)
            (((hclosing.after htail').before hbuild).before hafter.any)
          rwa [Bool.true_and, Bool.and_comm] at hall
      | table =>
        obtain ⟨tail, htail, h⟩ := bind_eq_ok.mp h
        obtain ⟨headers, hheaders, h⟩ := bind_eq_ok.mp h
        obtain ⟨rows, hrows, h⟩ := bind_eq_ok.mp h
        cases h
        have htail' := valueCalls_moves hg ht (by decide +kernel) htail
        have hall := blocks_table hbefore (headerLines_blocks hg children hchildren hheaders)
          (rowLines_blocks hg children hchildren hrows) htail' hafter
        rwa [Bool.and_comm] at hall

/-- A row or a column, whose settings stand in front of its children. -/
theorem layoutLines_blocks (hg : Named g.messages) : ∀ (children : List Template) {b : Bool}
    {before after head : String} {ls : List Line}, AllWorded children →
    Moves Any true [] [] before → Moves Any b [] [] head → Moves Any true [] [] after →
    layoutLines g before after head children = .ok ls → Blocks (b && allNodeFree children) [] [] ls
  | [], b, before, after, head, ls, _, hbefore, hhead, hafter, h => by
    cases h
    have hbuild : Moves Any true [] [] ".build()" := moves_fixed rfl
    rw [allNodeFree, Bool.and_true]
    exact .line (((hbefore.after hhead).before hbuild).before hafter.any)
  | t :: rest, b, before, after, head, ls, hts, hbefore, hhead, hafter, h => by
    obtain ⟨first, hfirst, h⟩ := bind_eq_ok.mp h
    obtain ⟨others, hothers, h⟩ := bind_eq_ok.mp h
    cases h
    have ht := lines_blocks hg t (hts t List.mem_cons_self) .empty (moves_fixed rfl) hfirst
    have hrest := eachLines_blocks hg rest (fun t ht => hts t (List.mem_cons_of_mem _ ht)) hothers
    have hopening : Moves LineEnd true [] [')', ']'].reverse ".children([" := moves_fixed rfl
    have hclosing : Moves Any true [']', ')'] [] "]).build()" := moves_fixed rfl
    have hall := Blocks.around ((hbefore.after hhead).before hopening) (ht.append hrest)
      (hclosing.after hafter.any)
    rwa [Bool.and_true] at hall

/-- An element around its first child, whose settings stand behind it. -/
theorem singleLines_blocks (hg : Named g.messages) : ∀ (children : List Template) {b : Bool}
    {before after call tail : String} {ls : List Line}, AllWorded children →
    Moves Any true [] [] before → pushes [] call.toList = some [] → Moves Any b [] [] tail →
    Moves Any true [] [] after → singleLines g before after call tail children = .ok ls →
    Blocks (b && firstNodeFree children) [] [] ls
  | [], b, before, after, call, tail, ls, _, hbefore, hcall, htail, hafter, h => by
    cases h
    have hcall' : Moves Any true [] [] call := moves_fixed hcall
    have hempty : Moves Any true [] [] "(View.empty())" := moves_fixed rfl
    rw [firstNodeFree, Bool.and_true]
    exact .line ((((hbefore.after hcall').after hempty).after htail).before hafter.any)
  | t :: _, b, before, after, call, tail, ls, hts, hbefore, hcall, htail, hafter, h => by
    obtain ⟨inside, hinside, h⟩ := bind_eq_ok.mp h
    cases h
    have ht := lines_blocks hg t (hts t List.mem_cons_self) .empty .empty hinside
    have hcall' : Moves Any true [] [] call := moves_fixed hcall
    have hopening : Moves LineEnd true [] [')'] "(" := moves_fixed rfl
    have hclosing : Moves Any true [')'] [] ")" := moves_fixed rfl
    have hall := Blocks.around ((hbefore.after hcall').after hopening) ht
      ((hclosing.after htail).before hafter.any)
    rwa [Bool.true_and, Bool.and_comm] at hall

theorem eachLines_blocks (hg : Named g.messages) : ∀ (ts : List Template) {ls : List Line},
    AllWorded ts → eachLines g ts = .ok ls → Blocks (allNodeFree ts) [] [] ls
  | [], ls, _, h => by
    cases h
    exact .nil
  | t :: rest, ls, hts, h => by
    obtain ⟨first, hfirst, h⟩ := bind_eq_ok.mp h
    obtain ⟨others, hothers, h⟩ := bind_eq_ok.mp h
    cases h
    have ht := lines_blocks hg t (hts t List.mem_cons_self) .empty (moves_fixed rfl) hfirst
    have hrest := eachLines_blocks hg rest (fun t ht => hts t (List.mem_cons_of_mem _ ht)) hothers
    exact ht.append hrest

theorem headerLines_blocks (hg : Named g.messages) : ∀ (ts : List Template) {ls : List Line},
    AllWorded ts → headerLines g ts = .ok ls → Blocks (headersNodeFree ts) [] [] ls
  | [], ls, _, h => by
    cases h
    exact .nil
  | mk kind args props children :: rest, ls, hts, h => by
    have ht := hts _ List.mem_cons_self
    have hrest : ∀ ls, headerLines g rest = .ok ls → Blocks (headersNodeFree rest) [] [] ls :=
      fun ls => headerLines_blocks hg rest fun t ht => hts t (List.mem_cons_of_mem _ ht)
    by_cases hkind : kind.same (.str "header")
    · cases children with
      | nil =>
        rw [headerLines, if_pos hkind] at h
        rw [headersNodeFree, if_pos hkind]
        obtain ⟨source, hsource, h⟩ := bind_eq_ok.mp h
        obtain ⟨first, hfirst, h⟩ := bind_eq_ok.mp h
        obtain ⟨others, hothers, h⟩ := bind_eq_ok.mp h
        cases hfirst
        cases h
        have hcomma : Moves LineEnd true [] [] "," := moves_fixed rfl
        exact .cons ((textSource_moves hg ht hsource).before hcomma) (hrest others hothers)
      | cons c cs =>
        rw [headerLines, if_pos hkind] at h
        rw [headersNodeFree, if_pos hkind]
        obtain ⟨first, hfirst, h⟩ := bind_eq_ok.mp h
        obtain ⟨others, hothers, h⟩ := bind_eq_ok.mp h
        cases h
        have hworded := ht.children c List.mem_cons_self
        have hc := lines_blocks hg c hworded .empty (moves_fixed rfl) hfirst
        exact hc.append (hrest others hothers)
    · rw [headerLines, if_neg hkind] at h
      cases children with
      | nil =>
        rw [headersNodeFree, if_neg hkind]
        exact hrest ls h
      | cons c cs =>
        rw [headersNodeFree, if_neg hkind]
        exact hrest ls h

theorem rowLines_blocks (hg : Named g.messages) : ∀ (ts : List Template) {ls : List Line},
    AllWorded ts → rowLines g ts = .ok ls → Blocks (rowsNodeFree ts) [] [] ls
  | [], ls, _, h => by
    cases h
    exact .nil
  | mk kind args props children :: rest, ls, hts, h => by
    have hrest : ∀ ls, rowLines g rest = .ok ls → Blocks (rowsNodeFree rest) [] [] ls :=
      fun ls => rowLines_blocks hg rest fun t ht => hts t (List.mem_cons_of_mem _ ht)
    rw [rowLines] at h
    rw [rowsNodeFree]
    by_cases hkind : kind.same (.str "row")
    · rw [if_pos hkind] at h ⊢
      obtain ⟨inside, hinside, h⟩ := bind_eq_ok.mp h
      obtain ⟨others, hothers, h⟩ := bind_eq_ok.mp h
      cases h
      have hchildren := (hts _ List.mem_cons_self).children
      have hopening : Moves LineEnd true [] [']'] "[" := moves_fixed rfl
      have hclosing : Moves LineEnd true [']'] [] "]," := moves_fixed rfl
      have hrow := Blocks.around hopening (eachLines_blocks hg children hchildren hinside) hclosing
      have hall := hrow.append (hrest others hothers)
      simpa using hall
    · rw [if_neg hkind] at h ⊢
      exact hrest ls h

end

end Template

end Widgetry
