import Widgetry.Generation.Component
import Widgetry.Proofs.Generation.Builders

/-!
# Remarks in generated components

> `ofType_worded`: all names in a widget that was read off a parsed declaration are words;
> `component_blocks`: the source of such a widget can be read up to its end if neither its view nor
> a statement of its methods has something behind a node expression (`Widget.nodesLast`), and cannot
> be read otherwise.

Names, hints and literals close all brackets that they open, so this only depends on expressions.
-/

namespace Widgetry

open Lexical

/-! ## Words of a template -/

theorem Part.ofExpr_worded {e : Expr} (he : e.Worded) {p : Part} (h : Part.ofExpr e = .ok p) :
    p.Worded := by
  obtain ⟨r, -, h⟩ := bind_eq_ok.mp h
  intro e' hcode
  cases r with
  | ok v =>
    cases h
    cases hcode
  | error f =>
    cases h
    cases hcode
    exact he

theorem partsOf_worded : ∀ {es : List Expr} {ps : List Part}, WordedItems es →
    partsOf es = .ok ps → ∀ p ∈ ps, p.Worded
  | [], ps, _, h => by
    cases h
    exact nofun
  | e :: rest, ps, hes, h => by
    obtain ⟨p, hp, h⟩ := bind_eq_ok.mp h
    obtain ⟨ps', hps, h⟩ := bind_eq_ok.mp h
    cases h
    have hrest := partsOf_worded (fun e he => hes e (List.mem_cons_of_mem _ he)) hps
    exact List.forall_mem_cons.mpr ⟨Part.ofExpr_worded (hes e List.mem_cons_self) hp, hrest⟩

theorem propParts_worded {props : List Property} (hprops : ∀ p ∈ props, p.value.Worded)
    {ps : List (Key × Part)} (h : propParts props = .ok ps) : ∀ e ∈ ps, e.2.Worded := by
  obtain ⟨values, hvalues, h⟩ := bind_eq_ok.mp h
  cases h
  have hworded : WordedItems (props.map (·.value)) := by
    intro e he
    obtain ⟨p, hp, rfl⟩ := List.mem_map.mp he
    exact hprops p hp
  intro e he
  obtain ⟨f, hf, hvalue⟩ := Entries.mem_ofPairs he
  rw [← hvalue]
  exact partsOf_worded hworded hvalues f.2 (List.of_mem_zip hf).2

mutual

/-- All names in the template of an expression are words. -/
theorem template?_worded : ∀ (e : Expr) {t : Template}, e.Worded → e.template? = .ok (some t) →
    t.Worded
  | .node kind args props body _, t, he, h => by
    obtain ⟨as, has, h⟩ := bind_eq_ok.mp h
    obtain ⟨ps, hps, h⟩ := bind_eq_ok.mp h
    obtain ⟨cs, hcs, h⟩ := bind_eq_ok.mp h
    cases h
    cases he with
    | node hkind hargs _ hprops hbody =>
      exact .mk hkind (partsOf_worded hargs has) (propParts_worded hprops hps)
        (templatesOf_worded body hbody hcs)
  | .call (.ident name _) args _, t, he, h => by
    rw [Expr.template?] at h
    split at h
    · cases h
    · obtain ⟨as, has, h⟩ := bind_eq_ok.mp h
      cases h
      cases he with
      | call hcallee hargs =>
        cases hcallee with
        | ident hname => exact .mk hname (partsOf_worded hargs has) nofun nofun

theorem templatesOf_worded : ∀ (ss : List Stmt) {ts : List Template}, WordedBody ss →
    templatesOf ss = .ok ts → Template.AllWorded ts
  | [], ts, _, h => by
    cases h
    exact nofun
  | s :: rest, ts, hss, h => by
    have hrest : ∀ ts, templatesOf rest = .ok ts → Template.AllWorded ts :=
      fun ts => templatesOf_worded rest fun s hs => hss s (List.mem_cons_of_mem _ hs)
    cases s with
    | expr e l =>
      obtain ⟨t, ht, h⟩ := bind_eq_ok.mp h
      obtain ⟨ts', hts, h⟩ := bind_eq_ok.mp h
      cases h
      have hs := hss _ List.mem_cons_self
      cases t with
      | none => exact hrest ts' hts
      | some t =>
        cases hs with
        | expr he =>
          have ht' := template?_worded e he ht
          exact List.forall_mem_cons.mpr ⟨ht', hrest ts' hts⟩
    | _ => exact hrest ts h

end

/-! ## Words of a widget -/

namespace Widget

/-- Whether what is written of a widget has words for names. -/
structure Worded (w : Widget) : Prop where
  name : Named w.name
  view : w.view.Worded
  keys : ∀ h ∈ w.handlers, Named h.1
  handlers : ∀ h ∈ w.handlers, WordedBody h.2
  event : ∀ p, w.eventParam = some p → Named p
  helpers : ∀ fn ∈ w.helpers, WordedBody fn.body

theorem placeholder_worded : Template.placeholder.Worded := by
  have hword : ("view".toList).all Lexer.continuesWord = true := by decide +kernel
  exact .mk ⟨by decide, List.all_eq_true.mp hword⟩ nofun nofun nofun

/-- What a handler is made of. -/
theorem mem_addHandler {hs : List (String × List Stmt)} {a : Arm} {h : String × List Stmt}
    (hm : h ∈ addHandler hs a) : h ∈ hs ∨ armKey? a = some h.1 ∧ h.2 = a.body := by
  unfold addHandler at hm
  split at hm
  · exact Or.inl hm
  · next key hkey =>
    split at hm
    · exact Or.inl hm
    · rcases List.mem_append.mp hm with hm | hm
      · exact Or.inl hm
      · cases List.mem_singleton.mp hm
        exact Or.inr ⟨hkey, rfl⟩

theorem mem_handlers {arms : List Arm} {h : String × List Stmt}
    (hm : h ∈ arms.foldl addHandler []) : ∃ a ∈ arms, armKey? a = some h.1 ∧ h.2 = a.body := by
  have hgo : ∀ (arms : List Arm) (hs : List (String × List Stmt)), h ∈ arms.foldl addHandler hs →
      h ∈ hs ∨ ∃ a ∈ arms, armKey? a = some h.1 ∧ h.2 = a.body := by
    intro arms
    induction arms with
    | nil => exact fun _ hm => Or.inl hm
    | cons a rest ih =>
      intro hs hm
      rcases ih _ hm with hm | ⟨b, hb, hkey⟩
      · rcases mem_addHandler hm with hm | hkey
        · exact Or.inl hm
        · exact Or.inr ⟨a, List.mem_cons_self, hkey⟩
      · exact Or.inr ⟨b, List.mem_cons_of_mem _ hb, hkey⟩
  rcases hgo arms [] hm with hm | ha
  · cases hm
  · exact ha

theorem armKey?_named {a : Arm} (ha : Parser.WordedArm a) {key : String}
    (h : armKey? a = some key) : Named key := by
  unfold armKey? at h
  split at h
  · cases h
    exact named_of_isIdentifier (by decide +kernel)
  · next p hp => exact (Expr.variant?_named (ha.1 p hp) h).1

theorem armsOn_worded {param : Option String} {s : Stmt} (hs : s.Worded) :
    ∀ a ∈ armsOn param s, Parser.WordedArm a := by
  unfold armsOn
  split
  · split
    · cases hs with
      | choose _ hpatterns hbodies => exact fun a ha => ⟨hpatterns a ha, hbodies a ha⟩
    · exact nofun
  · exact nofun

theorem handlersOf_worded {decl : TypeDecl} (hdecl : Stmt.Worded (.type decl)) :
    (∀ p, (handlersOf decl).1 = some p → Named p) ∧
      ∀ h ∈ (handlersOf decl).2, Named h.1 ∧ WordedBody h.2 := by
  unfold handlersOf
  cases hon : decl.method? "on" with
  | none => exact ⟨nofun, nofun⟩
  | some fn =>
    cases hdecl with
    | type _ _ _ hmethods =>
      cases hmethods fn (List.mem_of_find?_eq_some hon) with
      | fn _ hparams hbody =>
        constructor
        · intro p hp
          exact Expr.named_of_word (hparams p (List.mem_of_head? hp))
        · intro h hm
          obtain ⟨a, ha, hkey, hblock⟩ := mem_handlers hm
          obtain ⟨s, hs, ha⟩ := List.mem_flatMap.mp ha
          have hworded := armsOn_worded (hbody s hs) a ha
          exact ⟨armKey?_named hworded hkey, hblock ▸ hworded.2⟩

theorem templateOf_worded {fn : FnDecl} (hfn : WordedBody fn.body) {t : Template}
    (h : templateOf (some fn) = .ok (.ok t)) : t.Worded := by
  rw [templateOf] at h
  split at h
  · cases h
  · next e l hlast =>
    obtain ⟨r, hr, h⟩ := bind_eq_ok.mp h
    cases r with
    | none => cases h
    | some t' =>
      cases h
      cases hfn _ (List.mem_of_getLast? hlast) with
      | expr he => exact template?_worded e he hr
  · cases h

theorem viewOf_worded {decl : TypeDecl} (hdecl : Stmt.Worded (.type decl)) {policy : Policy}
    {file : Option String} {t : Template} (h : viewOf decl policy file = .ok t) : t.Worded := by
  unfold viewOf at h
  obtain ⟨r, hr, h⟩ := bind_eq_ok.mp h
  cases r with
  | error reason =>
    cases policy with
    | permissive =>
      cases h
      exact placeholder_worded
    | strict => cases h
  | ok t' =>
    cases h
    cases hview : decl.method? "view" with
    | none =>
      rw [hview] at hr
      cases hr
    | some fn =>
      rw [hview] at hr
      cases hdecl with
      | type _ _ _ hmethods =>
        cases hmethods fn (List.mem_of_find?_eq_some hview) with
        | fn _ _ hbody =>
          cases htemplate : templateOf (some fn) with
          | error f =>
            rw [htemplate] at hr
            cases hr
          | ok r =>
            rw [htemplate] at hr
            cases hr
            exact templateOf_worded hbody htemplate

/-- **All names in a widget that was read off a parsed declaration are words.** -/
theorem ofType_worded {decl : TypeDecl} (hdecl : Stmt.Worded (.type decl)) {policy : Policy}
    {file : Option String} {w : Widget} (h : ofType decl policy file = .ok w) : w.Worded := by
  obtain ⟨fields, -, h⟩ := bind_eq_ok.mp h
  obtain ⟨view, hview, h⟩ := bind_eq_ok.mp h
  cases h
  obtain ⟨hevent, hhandlers⟩ := handlersOf_worded hdecl
  have hview' := viewOf_worded hdecl hview
  cases hdecl with
  | type hname _ _ hmethods =>
    refine ⟨Expr.named_of_word hname, hview', fun h hm => (hhandlers h hm).1,
      fun h hm => (hhandlers h hm).2, hevent, fun fn hfn => ?_⟩
    cases hmethods fn (List.mem_of_mem_filter hfn) with
    | fn _ _ hbody => exact hbody

end Widget

/-! ## Names and lists of them -/

namespace Lexical

/-- A character of a name stands for itself in a text. -/
theorem escapeChar_named {c : Char} (h : nameChar c = true) : Json.escapeChar c = [c] := by
  have hshort : Json.shortEscape? c = none := by
    have hall : ['"', '\\', '\x08', '\t', '\n', '\x0c', '\r'].all (!nameChar ·) = true := by
      decide +kernel
    unfold Json.shortEscape?
    rw [List.lookup_eq_none_iff]
    intro p hp
    have hmem : p.1 ∈ ['"', '\\', '\x08', '\t', '\n', '\x0c', '\r'] := List.mem_map_of_mem hp
    have hp' := List.all_eq_true.mp hall p.1 hmem
    rw [bne_iff_ne]
    rintro rfl
    rw [h] at hp'
    cases hp'
  have hlow : ¬ c.toNat < 0x20 := by
    intro hlow
    have hall : ∀ n < 0x20, nameChar (Char.ofNat n) = false := by decide +kernel
    have hc := hall c.toNat hlow
    rw [Char.ofNat_toNat, h] at hc
    cases hc
  unfold Json.escapeChar
  rw [hshort]
  exact if_neg hlow

theorem quoted_named {s : String} (h : Named s) : Json.quoted s = "\"" ++ s ++ "\"" := by
  have hself : ∀ cs : List Char, (∀ c ∈ cs, nameChar c = true) →
      cs.flatMap Json.escapeChar = cs := by
    intro cs hcs
    induction cs with
    | nil => rfl
    | cons c cs ih =>
      rw [List.flatMap_cons, escapeChar_named (hcs c List.mem_cons_self),
        ih fun d hd => hcs d (List.mem_cons_of_mem _ hd)]
      rfl
  apply String.toList_injective
  rw [Json.quoted, hself s.toList h]
  simp

/-- Pieces that may all follow others on their line. -/
theorem moves_join {ps : List String} (hps : ∀ p ∈ ps, Moves Interrupted true [] [] p)
    (hstart : ∀ p ∈ ps, Interrupts p) : Moves Interrupted true [] [] (String.join ps) := by
  induction ps with
  | nil => exact .empty
  | cons p rest ih =>
    have hrest := ih (fun p hp => hps p (List.mem_cons_of_mem _ hp))
      fun p hp => hstart p (List.mem_cons_of_mem _ hp)
    rw [String.join_cons]
    refine (hps p List.mem_cons_self).append hrest fun k hk => ?_
    cases rest with
    | nil => exact hk
    | cons q rest =>
      rw [String.join_cons]
      exact ((hstart q (by simp)).append _).follows k

/-- A definition with its parameters. -/
theorem moves_definition {before behind : String} {ps : List String}
    (hbefore : Moves Any true [] [')'] before) (hps : ∀ p ∈ ps, Moves Interrupted true [] [] p)
    (hstart : ∀ p ∈ ps, Interrupts p) (hinterrupts : Interrupts behind)
    (hbehind : Moves LineEnd true [')'] [] behind) :
    Moves LineEnd true [] [] (before ++ String.join ps ++ behind) :=
  moves_enclosed hbefore (moves_join hps hstart) hinterrupts hbehind

/-- Lines of which each closes what it opens. -/
theorem blocks_map {α : Type} {f : α → String} {as : List α}
    (h : ∀ a ∈ as, Moves LineEnd true [] [] (f a)) :
    Blocks true [] [] (as.map fun a => .at0 (f a)) := by
  induction as with
  | nil => exact .nil
  | cons a rest ih =>
    have hrest := ih fun b hb => h b (List.mem_cons_of_mem _ hb)
    exact .cons (l := .at0 (f a)) (h a List.mem_cons_self) hrest

end Lexical

/-! ## Hints -/

namespace TypeMap

/-- Whether all hints close what they open. -/
def Closed (m : TypeMap) : Prop := ∀ e ∈ m.entries, Moves Unquoted true [] [] e.2

theorem standard_closed : standard.Closed := by
  have hall : standard.entries.all (fun e => pushes [] e.2.toList == some []) = true := by
    decide +kernel
  intro e he
  exact moves_fixed (beq_iff_eq.mp (List.all_eq_true.mp hall e he))

variable {m : TypeMap}

theorem Closed.plainHint (h : m.Closed) (type : String) :
    Moves Unquoted true [] [] (m.plainHint type) := by
  unfold TypeMap.plainHint
  split
  · next a ha =>
    exact h (type, a) (mem_of_lookup ha)
  · dsimp only
    split_ifs with htype
    · exact (named_of_isIdentifier (Bool.and_eq_true_iff.mp htype).2).moves
    · exact moves_fixed rfl

theorem Closed.hintOf (h : m.Closed) (cs : List Char) :
    Moves Unquoted true [] [] (m.hintOf cs) := by
  fun_induction TypeMap.hintOf m cs with
  | case1 item ih =>
    exact moves_enclosed (moves_fixed rfl) ih.within
      (interrupts_of rfl (by decide)) (moves_fixed rfl)
  | case2 cs => exact h.plainHint _

end TypeMap

/-! ## The source of a widget -/

namespace Widget

/-- The message variants that the view refers to. -/
def drawnVariants (w : Widget) : List String :=
  match w.view.symbols with
  | .ok s => s.variants
  | .error _ => []

theorem drawnVariants_eq {w : Widget} {s : Symbols} (h : w.view.symbols = .ok s) :
    w.drawnVariants = s.variants := by
  rw [drawnVariants, h]

/-- The statements for some variants, and those for all others. -/
def handled (w : Widget) (variants : List String) : List (List Stmt) :=
  variants.map w.handlerOf ++ (w.handlers.lookup wildcard).toList

/-- Whether no line in the source of a widget has something behind a node expression. -/
def nodesLast (w : Widget) : Bool :=
  (w.helpers.all fun fn => Stmt.bodyNodesLast fn.body) &&
    ((w.handled w.drawnVariants).all Stmt.bodyNodesLast && w.view.nodeFree)

/-- Names that are not refused can be written. -/
theorem checkNames_names {cause : String → GenerationCause} {names : List String} {u : Unit}
    (h : checkNames cause names = .ok u) : ∀ n ∈ names, Formula.IsName n := by
  induction names with
  | nil => exact nofun
  | cons n rest ih =>
    rw [checkNames] at h
    split at h
    · next hn =>
      obtain ⟨hidentifier, hreserved⟩ := Bool.and_eq_true_iff.mp hn
      exact List.forall_mem_cons.mpr
        ⟨⟨hidentifier, (Bool.not_eq_true' _).mp hreserved⟩, ih h⟩
    · cases h

theorem checkNames_identifiers {cause : String → GenerationCause} {names : List String} {u : Unit}
    (h : checkNames cause names = .ok u) : ∀ n ∈ names, Text.isIdentifier n = true :=
  fun n hn => (checkNames_names h n hn).1

theorem checkNames_named {cause : String → GenerationCause} {names : List String} {u : Unit}
    (h : checkNames cause names = .ok u) : ∀ n ∈ names, Named n :=
  fun n hn => named_of_isIdentifier (checkNames_identifiers h n hn)

theorem enumLines_blocks {messages : String} {variants : List String} (hm : Named messages)
    (hvs : ∀ v ∈ variants, Named v) : Blocks true [] [] (enumLines messages variants) := by
  have hclass : Moves Any true [] [] "class " := moves_fixed rfl
  have hhead : Moves LineEnd true [] [] ("class " ++ messages ++ "(Enum):") :=
    (hclass.after hm.moves).after (moves_fixed rfl)
  refine .below hhead ?_
  cases variants with
  | nil => exact .line (moves_fixed rfl)
  | cons v rest =>
    refine blocks_map fun v hv => ?_
    have hname : Moves Any true [] [] (v ++ " = ") := (hvs v hv).moves.after (moves_fixed rfl)
    exact hname.after (moves_quoted v).last

/-- Whether names and hints close what they open. -/
abbrev ClosedHints (hints : List (String × String)) : Prop :=
  ∀ a ∈ hints, Named a.1 ∧ Moves Unquoted true [] [] a.2

theorem fieldLines_blocks {hints : List (String × String)} (h : ClosedHints hints) :
    Blocks true [] [] (fieldLines hints) := by
  cases hints with
  | nil => exact .nil
  | cons a rest =>
    refine (blocks_map fun a ha => ?_).append .blank
    obtain ⟨hname, hhint⟩ := h a ha
    have hfront : Moves Any true [] [] (a.1 ++ ": ") := hname.moves.after (moves_fixed rfl)
    exact hfront.after hhint.last

theorem constructorLines_blocks {hints : List (String × String)} (h : ClosedHints hints) :
    Blocks true [] [] (constructorLines hints) := by
  have hparams : ∀ p ∈ hints.map (fun a => ", " ++ a.1 ++ ": " ++ a.2),
      Moves Interrupted true [] [] p ∧ Interrupts p := by
    intro p hp
    obtain ⟨a, ha, rfl⟩ := List.mem_map.mp hp
    obtain ⟨hname, hhint⟩ := h a ha
    have hcomma : Moves Any true [] [] ", " := moves_fixed rfl
    have hfront : Moves Any true [] [] (", " ++ a.1 ++ ": ") :=
      (hcomma.after hname.moves).after (moves_fixed rfl)
    have hstart : Interrupts ", " := interrupts_of rfl (by decide)
    exact ⟨hfront.after hhint.within,
      ((hstart.append _).append _).append _⟩
  refine .below (moves_definition (moves_fixed rfl) (fun p hp => (hparams p hp).1)
    (fun p hp => (hparams p hp).2) (interrupts_of rfl (by decide)) (moves_fixed rfl)) ?_
  cases hints with
  | nil => exact .line (moves_fixed rfl)
  | cons a rest =>
    refine blocks_map fun a ha => ?_
    have hself : Moves Any true [] [] "self." := moves_fixed rfl
    have hequals : Moves Any true [] [] " = " := moves_fixed rfl
    exact ((hself.after (h a ha).1.moves).after hequals).after (h a ha).1.moves

theorem startLiterals_items {fs : List WidgetField} {texts : List String}
    (h : startLiterals fs = .ok texts) : literalItems (fs.map WidgetField.start) = .ok texts := by
  induction fs generalizing texts with
  | nil => exact h
  | cons f rest ih =>
    obtain ⟨text, htext, h⟩ := bind_eq_ok.mp h
    obtain ⟨texts', htexts, h⟩ := bind_eq_ok.mp h
    cases h
    rw [List.map_cons, literalItems, htext, ih htexts]
    rfl

theorem defaultLines_blocks {name : String} (hname : Named name) {fs : List WidgetField}
    {literals : List String} (h : startLiterals fs = .ok literals) :
    Blocks true [] [] (defaultLines name literals) := by
  have hhead : Moves LineEnd true [] [] ("def default(cls) -> \"" ++ name ++ "\":") := by
    have hsplit : "def default(cls) -> \"" ++ name ++ "\":"
        = "def default(cls) -> " ++ Json.quoted name ++ ":" := by
      rw [quoted_named hname]
      apply String.toList_injective
      simp
    rw [hsplit]
    exact moves_enclosed (moves_fixed rfl) (moves_quoted name).within
      (interrupts_of rfl (by decide)) (moves_fixed rfl)
  have hcall : Moves LineEnd true [] [] ("return cls(" ++ commaSeparated literals ++ ")") :=
    moves_enclosed (moves_fixed rfl) (moves_literalItems _ (startLiterals_items h))
      (interrupts_of rfl (by decide)) (moves_fixed rfl)
  exact .cons (l := .at0 "@classmethod") (moves_fixed rfl)
    (.cons (l := .at0 _) hhead (.line (l := ⟨1, _⟩) hcall))

section Methods

variable {g : Naming}

theorem helperBody_blocks (hg : Named g.messages) : ∀ (ss : List Stmt) (locals : List String),
    WordedBody ss → Blocks (Stmt.bodyNodesLast ss) [] [] (helperBody g locals ss)
  | [], _, _ => .line (moves_fixed rfl)
  | [s], locals, h => by
    have hs := h s List.mem_cons_self
    rw [Stmt.bodyNodesLast, Stmt.bodyNodesLast, Bool.and_true]
    cases s with
    | expr e l =>
      cases hs with
      | expr he =>
        have hreturn : Moves Any true [] [] "return " := moves_fixed rfl
        exact .line (hreturn.after (Expr.source_moves locals hg e he).last)
    | _ => exact Stmt.lines_blocks hg _ locals hs
  | s :: s' :: rest, locals, h => by
    have hrest := helperBody_blocks hg (s' :: rest) (s.localsAfter locals)
      fun s hs => h s (List.mem_cons_of_mem _ hs)
    rw [helperBody_cons]
    exact (Stmt.lines_blocks hg s locals (h s List.mem_cons_self)).append hrest

theorem helperLines_blocks (hg : Named g.messages) {fn : FnDecl} (hname : Named fn.name)
    (hparams : ∀ p ∈ fn.paramNames, Named p) (hbody : WordedBody fn.body) :
    Blocks (Stmt.bodyNodesLast fn.body) [] [] (helperLines g fn) := by
  have hps : ∀ p ∈ fn.paramNames.map (", " ++ ·),
      Moves Interrupted true [] [] p ∧ Interrupts p := by
    intro p hp
    obtain ⟨x, hx, rfl⟩ := List.mem_map.mp hp
    have hcomma : Moves Any true [] [] ", " := moves_fixed rfl
    have hstart : Interrupts ", " := interrupts_of rfl (by decide)
    exact ⟨hcomma.after (hparams x hx).moves, hstart.append x⟩
  have hdef : Moves Any true [] [] "def " := moves_fixed rfl
  have hopening : Moves Any true [] [')'] ("def " ++ fn.name ++ "(self") :=
    (hdef.after hname.moves).after (moves_fixed rfl)
  have hhead := moves_definition hopening (fun p hp => (hps p hp).1) (fun p hp => (hps p hp).2)
    (interrupts_of rfl (by decide)) (moves_fixed rfl : Moves LineEnd true [')'] [] "):")
  exact .below hhead (helperBody_blocks hg fn.body _ hbody)

theorem helpersLines_blocks (hg : Named g.messages) {helpers : List FnDecl}
    (hnames : ∀ fn ∈ helpers, Named fn.name ∧ ∀ p ∈ fn.paramNames, Named p)
    (hbodies : ∀ fn ∈ helpers, WordedBody fn.body) :
    Blocks (helpers.all fun fn => Stmt.bodyNodesLast fn.body) [] [] (helpersLines g helpers) := by
  induction helpers with
  | nil => exact .nil
  | cons fn rest ih =>
    obtain ⟨hname, hparams⟩ := hnames fn List.mem_cons_self
    have hfn := helperLines_blocks hg hname hparams (hbodies fn List.mem_cons_self)
    have hrest := ih (fun fn h => hnames fn (List.mem_cons_of_mem _ h))
      fun fn h => hbodies fn (List.mem_cons_of_mem _ h)
    have hall := (hfn.append .blank).append hrest
    rwa [Bool.and_true] at hall

variable {w : Widget}

theorem eventName_named (hw : w.Worded) : Named w.eventName := by
  have hmsg : Named "msg" := named_of_isIdentifier (by decide +kernel)
  unfold eventName
  split
  · next p hp =>
    split
    · exact hmsg
    · exact hw.event p hp
  · exact hmsg

theorem handlerOf_worded (hw : w.Worded) (v : String) : WordedBody (w.handlerOf v) := by
  unfold handlerOf
  cases hlookup : w.handlers.lookup v with
  | none => exact nofun
  | some body => exact hw.handlers (v, body) (mem_of_lookup hlookup)

/-- The cases of the event method have names, and the statements that are handled. -/
theorem cases_worded (hw : w.Worded) {messages : String} (hm : Named messages)
    {variants : List String} (hvs : ∀ v ∈ variants, Named v) :
    (w.cases messages variants).map (·.2) = w.handled variants ∧
      ∀ c ∈ w.cases messages variants, Moves Any true [] [] c.1 ∧ WordedBody c.2 := by
  have hknown : ∀ c ∈ variants.map (fun v => (messages ++ "." ++ v, w.handlerOf v)),
      Moves Any true [] [] c.1 ∧ WordedBody c.2 := by
    intro c hc
    obtain ⟨v, hv, rfl⟩ := List.mem_map.mp hc
    have hfront : Moves Any true [] [] (messages ++ ".") := hm.moves.after (moves_fixed rfl)
    exact ⟨hfront.after (hvs v hv).moves, handlerOf_worded hw v⟩
  unfold cases handled
  cases hlookup : w.handlers.lookup wildcard with
  | none =>
    refine ⟨?_, hknown⟩
    simp [Function.comp_def]
  | some body =>
    refine ⟨by simp [Function.comp_def], ?_⟩
    intro c hc
    rcases List.mem_append.mp hc with hc | hc
    · exact hknown c hc
    · cases List.mem_singleton.mp hc
      have hname : Moves Any true [] [] wildcard := moves_fixed rfl
      exact ⟨hname, hw.handlers (wildcard, body) (mem_of_lookup hlookup)⟩

theorem caseLines_blocks (hg : Named g.messages) (locals : List String)
    {cs : List (String × List Stmt)}
    (hcs : ∀ c ∈ cs, Moves Any true [] [] c.1 ∧ WordedBody c.2) :
    Blocks ((cs.map (·.2)).all Stmt.bodyNodesLast) [] [] (cs.flatMap (caseLines g locals)) := by
  induction cs with
  | nil => exact .nil
  | cons c rest ih =>
    obtain ⟨hname, hbody⟩ := hcs c List.mem_cons_self
    have hcase : Moves Any true [] [] "case " := moves_fixed rfl
    have hhead : Moves LineEnd true [] [] ("case " ++ c.1 ++ ":") :=
      (hcase.after hname).after (moves_fixed rfl)
    have hrest := ih fun c hc => hcs c (List.mem_cons_of_mem _ hc)
    exact (Blocks.below hhead (Stmt.blockLines_blocks hg c.2 locals hbody)).append hrest

/-- The remark about a handler of a variant that the view does not refer to. -/
theorem moves_unreferenced (hg : Named g.messages) {v : String} (hv : Named v) :
    Moves LineEnd true [] [] ("# no view event references " ++ g.messages ++ "." ++ v) := by
  have hpointed : ∀ c ∈ (g.messages ++ "." ++ v).toList, (nameChar c || c == '.') = true := by
    intro c hc
    simp only [String.toList_append, List.mem_append, or_assoc] at hc
    rw [Bool.or_eq_true]
    rcases hc with hc | hc | hc
    · exact Or.inl (hg c hc)
    · exact Or.inr (by simpa using hc)
    · exact Or.inl (hv c hc)
  have hline : ∀ c ∈ (g.messages ++ "." ++ v).toList, isBreak c = false := by
    intro c hc
    rcases Bool.or_eq_true_iff.mp (hpointed c hc) with hname | hpoint
    · exact not_break_of_nameChar hname
    · rw [beq_iff_eq.mp hpoint]
      rfl
  have hremark := moves_remarkText
    (r := (" no view event references ", fun c => nameChar c || c == '.')) (by simp [remarks])
    hpointed hline
  have hsplit : "# no view event references " ++ g.messages ++ "." ++ v
      = "#" ++ (" no view event references " ++ (g.messages ++ "." ++ v)) := by
    apply String.toList_injective
    simp
  rwa [hsplit]

theorem eventLines_blocks (hg : Named g.messages) (hw : w.Worded) {variants : List String}
    (hvs : ∀ v ∈ variants, Named v) :
    Blocks ((w.handled variants).all Stmt.bodyNodesLast) [] [] (eventLines g w variants) := by
  have hdef : Moves Any true [] [')'] "def on(self, " := moves_fixed rfl
  have hcolon : Moves Any true [')'] [')'] ": " := moves_fixed rfl
  have hhead : Moves LineEnd true [] []
      ("def on(self, " ++ w.eventName ++ ": " ++ g.messages ++ ") -> None:") :=
    (((hdef.after (eventName_named hw).moves).after hcolon).after hg.moves).after (moves_fixed rfl)
  have hremarks : Blocks true [] [] ((w.unreferenced variants).map fun v =>
      .at0 ("# no view event references " ++ g.messages ++ "." ++ v)) := by
    refine blocks_map fun v hv => moves_unreferenced hg ?_
    obtain ⟨h, hh, rfl⟩ := List.mem_map.mp (List.mem_of_mem_filter (Text.mem_sortedSet.mp hv))
    exact hw.keys h hh
  obtain ⟨hhandled, hcases⟩ := cases_worded hw hg hvs
  rw [← hhandled]
  refine .below hhead (hremarks.append ?_)
  cases hcs : w.cases g.messages variants with
  | nil => exact .line (moves_fixed rfl)
  | cons c rest =>
    have hcaseLines := caseLines_blocks hg [w.eventName] hcases
    rw [hcs] at hcaseLines
    have hmatch : Moves Any true [] [] "match " := moves_fixed rfl
    have hsubject : Moves LineEnd true [] [] ("match " ++ w.eventName ++ ":") :=
      (hmatch.after (eventName_named hw).moves).after (moves_fixed rfl)
    have hall := Blocks.below hsubject hcaseLines
    rwa [Bool.true_and] at hall

theorem viewLines_blocks (hg : Named g.messages) (hw : w.Worded) {ls : List Line}
    (h : viewLines g w = .ok ls) : Blocks w.view.nodeFree [] [] ls := by
  obtain ⟨body, hbody, h⟩ := bind_eq_ok.mp h
  cases h
  have hdef : Moves Any true [] [']'] "def view(self) -> View[" := moves_fixed rfl
  have hhead : Moves LineEnd true [] [] ("def view(self) -> View[" ++ g.messages ++ "]:") :=
    (hdef.after hg.moves).after (moves_fixed rfl)
  exact .below hhead (Template.lines_blocks hg w.view hw.view (moves_fixed rfl) .empty hbody)

theorem hints_closed {types : TypeMap} (htypes : types.Closed)
    (hnames : ∀ f ∈ w.fields, Named f.name) : ClosedHints (w.hints types) := by
  intro a ha
  obtain ⟨f, hf, rfl⟩ := List.mem_map.mp ha
  exact ⟨hnames f hf, htypes.hintOf f.type.toList⟩

/-- What a widget declares has names. -/
structure NamedParts (w : Widget) : Prop where
  fields : ∀ f ∈ w.fields, Named f.name
  helpers : ∀ fn ∈ w.helpers, Named fn.name ∧ ∀ p ∈ fn.paramNames, Named p

/-- What holds of all names that a widget declares holds of those of its fields and methods. -/
theorem forall_declaredNames {P : String → Prop} (h : ∀ n ∈ w.declaredNames, P n) :
    (∀ f ∈ w.fields, P f.name) ∧ ∀ fn ∈ w.helpers, P fn.name ∧ ∀ p ∈ fn.paramNames, P p := by
  obtain ⟨hfields, hhelpers⟩ := List.forall_mem_append.mp (List.forall_mem_cons.mp h).2
  refine ⟨fun f hf => hfields _ (List.mem_map_of_mem hf), fun fn hfn => ?_⟩
  exact List.forall_mem_cons.mp fun n hn => hhelpers n (List.mem_flatMap.mpr ⟨fn, hfn, hn⟩)

theorem declaredNames_named (h : ∀ n ∈ w.declaredNames, Named n) : w.NamedParts where
  fields := (forall_declaredNames h).1
  helpers := (forall_declaredNames h).2

theorem classLines_blocks (hg : Named g.messages) (hw : w.Worded) (hn : w.NamedParts)
    {types : TypeMap} (htypes : types.Closed) {variants : List String}
    (hvs : ∀ v ∈ variants, Named v) {ls : List Line} (h : classLines g w types variants = .ok ls) :
    Blocks ((w.helpers.all fun fn => Stmt.bodyNodesLast fn.body) &&
      ((w.handled variants).all Stmt.bodyNodesLast && w.view.nodeFree)) [] [] ls := by
  obtain ⟨literals, hliterals, h⟩ := bind_eq_ok.mp h
  obtain ⟨view, hview, h⟩ := bind_eq_ok.mp h
  cases h
  have hhints := hints_closed htypes hn.fields
  have hclass : Moves Any true [] [] "class " := moves_fixed rfl
  have hcomponent : Moves Any true [] [']', ')'] "(Component[" := moves_fixed rfl
  have hhead : Moves LineEnd true [] []
      ("class " ++ w.name ++ "(Component[" ++ g.messages ++ "]):") :=
    (((hclass.after hw.name.moves).after hcomponent).after hg.moves).after (moves_fixed rfl)
  have hfields := fieldLines_blocks hhints
  have hconstructor := constructorLines_blocks hhints
  have hdefault := defaultLines_blocks hw.name hliterals
  have hhelpers := helpersLines_blocks hg hn.helpers hw.helpers
  have hevents := eventLines_blocks hg hw hvs
  have hend := Blocks.blank.append (viewLines_blocks hg hw hview)
  have hall := (((hfields.append hconstructor).append (Blocks.blank.append hdefault)).append
    (Blocks.blank.append hhelpers)).append (hevents.append hend)
  simpa [Line.blank] using Blocks.below hhead hall

/-- **The source of a widget can be read up to its end if it has nothing behind a node expression on
its line, and cannot be read otherwise.** -/
theorem component_blocks (hw : w.Worded) {types : TypeMap} (htypes : types.Closed)
    {messages : String} (hm : Named messages) {c : Component}
    (h : w.component types messages = .ok c) : Blocks w.nodesLast [] [] c.lines := by
  obtain ⟨symbols, lines, hdeclared, hsymbols, hvariants, hlines, rfl⟩ := component_parts h
  have hvs := checkNames_named hvariants
  have hclass := classLines_blocks (g := w.naming messages) hm hw
    (declaredNames_named (checkNames_named hdeclared)) htypes hvs hlines
  have hall := (enumLines_blocks hm hvs).append
    ((Blocks.blank.append .blank).append hclass)
  unfold nodesLast
  rw [drawnVariants_eq hsymbols]
  simpa using hall

end Methods

end Widget

end Widgetry
