import Widgetry.Proofs.Generation.Components

/-!
# Lines of generated source

Whatever a program says, it comes into the generated source as a word, as a literal or as a number,
and none of these ends a line.

> `Stmt.lines_unbroken`: no line of a statement has a line end inside;
> `Template.lines_unbroken`: nor has a line that builds a view.

So a line that is written there is a line that is read.
-/

namespace Widgetry

namespace Lexical

/-! ## Texts without line ends -/

/-- Whether a text ends no line. -/
def Unbroken (s : String) : Prop := ∀ c ∈ s.toList, isBreak c = false

/-- Whether no line goes on in another. -/
abbrev UnbrokenLines (ls : List Line) : Prop := ∀ l ∈ ls, Unbroken l.text

variable {s t : String} {ls ms : List Line}

theorem unbroken_fixed (h : s.toList.any isBreak = false) : Unbroken s :=
  fun c hc => Bool.eq_false_iff.mpr (List.any_eq_false.mp h c hc)

theorem Unbroken.append (hs : Unbroken s) (ht : Unbroken t) : Unbroken (s ++ t) := by
  intro c hc
  rw [String.toList_append] at hc
  obtain hc | hc := List.mem_append.mp hc
  · exact hs c hc
  · exact ht c hc

/-- Between two fixed texts. -/
theorem Unbroken.between (hs : Unbroken s) {before behind : String}
    (hbefore : before.toList.any isBreak = false) (hbehind : behind.toList.any isBreak = false) :
    Unbroken (before ++ s ++ behind) :=
  ((unbroken_fixed hbefore).append hs).append (unbroken_fixed hbehind)

theorem Named.unbroken (h : Named s) : Unbroken s := fun c hc => not_break_of_nameChar (h c hc)

theorem unbroken_number (h : ∀ c ∈ s.toList, isNumeral c = true) : Unbroken s :=
  fun c hc => (plain_of_isNumeral (h c hc)).2

theorem unbroken_quoted (s : String) : Unbroken (Json.quoted s) := by
  have hescaped : ∀ c, ∀ d ∈ Json.escapeChar c, isBreak d = false := by
    intro c d hd
    unfold Json.escapeChar at hd
    split at hd
    · next e he =>
      have hall : [('"', '"'), ('\\', '\\'), ('\x08', 'b'), ('\t', 't'), ('\n', 'n'),
          ('\x0c', 'f'), ('\r', 'r')].all (fun p => !isBreak p.2) = true := by decide
      have hshort := List.all_eq_true.mp hall (c, e) (mem_of_lookup he)
      rw [Bool.not_eq_true'] at hshort
      obtain rfl | hd := List.mem_cons.mp hd
      · rfl
      · rwa [List.mem_singleton.mp hd]
    · next hnone =>
      split at hd
      · next hlow =>
        -- written with its number: one of the 32 control characters, and each of them is tried
        have hall : ∀ n < 32, (Json.unitEscape n).any isBreak = false := by decide
        exact Bool.eq_false_iff.mpr (List.any_eq_false.mp (hall c.toNat hlow) d hd)
      · rw [List.mem_singleton.mp hd, ← Bool.not_eq_true, isBreak, Bool.or_eq_true, beq_iff_eq,
          beq_iff_eq]
        rintro (rfl | rfl)
        · cases hnone
        · cases hnone
  intro c hc
  rw [Json.quoted, String.toList_ofList, List.cons_append, List.mem_cons, List.mem_append,
    List.mem_flatMap, List.mem_singleton] at hc
  obtain rfl | ⟨d, -, hc⟩ | rfl := hc
  · rfl
  · exact hescaped d c hc
  · rfl

theorem unbroken_commaSeparated {ts : List String} (h : ∀ t ∈ ts, Unbroken t) :
    Unbroken (commaSeparated ts) := by
  induction ts with
  | nil => exact unbroken_fixed rfl
  | cons t rest ih =>
    have hrest := ih fun t ht => h t (List.mem_cons_of_mem _ ht)
    cases rest with
    | nil =>
      rw [commaSeparated, String.intercalate_singleton]
      exact h t List.mem_cons_self
    | cons u rest =>
      rw [commaSeparated, String.intercalate_cons_cons]
      exact ((h t List.mem_cons_self).append (unbroken_fixed rfl)).append hrest

theorem unbroken_join {ts : List String} (h : ∀ t ∈ ts, Unbroken t) :
    Unbroken (String.join ts) := by
  induction ts with
  | nil => exact unbroken_fixed rfl
  | cons t rest ih =>
    rw [String.join_cons]
    exact (h t List.mem_cons_self).append (ih fun t ht => h t (List.mem_cons_of_mem _ ht))

theorem unbroken_indented (h : UnbrokenLines ls) : UnbrokenLines (Line.indented ls) := by
  intro l hl
  obtain ⟨m, hm, rfl⟩ := List.mem_map.mp hl
  exact h m hm

/-- A line with others further in below it. -/
theorem unbroken_below (hs : Unbroken s) (h : UnbrokenLines ls) :
    UnbrokenLines (.at0 s :: Line.indented ls) :=
  List.forall_mem_cons.mpr ⟨hs, unbroken_indented h⟩

theorem unbroken_line (hs : Unbroken s) : UnbrokenLines [.at0 s] :=
  List.forall_mem_singleton.mpr hs

theorem unbroken_lines (hls : UnbrokenLines ls) (hms : UnbrokenLines ms) :
    UnbrokenLines (ls ++ ms) :=
  List.forall_mem_append.mpr ⟨hls, hms⟩

theorem unbroken_blank : UnbrokenLines [.blank] := unbroken_line (unbroken_fixed rfl)

/-! ## Literals -/

theorem scalar_unbroken (s : Scalar) : Unbroken s.source := by
  cases s with
  | nil => exact unbroken_fixed rfl
  | bool b =>
    cases b with
    | false => exact unbroken_fixed rfl
    | true => exact unbroken_fixed rfl
  | int n => exact unbroken_number (isNumeral_whole n)
  | float x => exact unbroken_number (isNumeral_render x)
  | str s => exact unbroken_quoted s

theorem scalarLiteral_unbroken {s : Scalar} {t : String} (h : s.literal = .ok t) : Unbroken t := by
  cases s with
  | int n =>
    rw [Scalar.literal] at h
    cases hn : wholeText n with
    | error f =>
      rw [hn] at h
      cases h
    | ok t =>
      rw [hn] at h
      cases h
      exact unbroken_number (isNumeral_wholeText hn)
  | _ =>
    cases h
    exact scalar_unbroken _

mutual

theorem literal_unbroken : ∀ (v : Value) {t : String}, v.literal = .ok t → Unbroken t
  | .scalar s, t, h => scalarLiteral_unbroken h
  | .list items, t, h => by
    rw [Value.literal, bind_eq_ok] at h
    obtain ⟨parts, hparts, h⟩ := h
    cases h
    exact (unbroken_commaSeparated (literalItems_unbroken items hparts)).between rfl rfl
  | .object entries, t, h => by
    rw [Value.literal, bind_eq_ok] at h
    obtain ⟨parts, hparts, h⟩ := h
    cases h
    exact (unbroken_commaSeparated (literalEntries_unbroken entries hparts)).between rfl rfl
  | .node _, t, h => by cases h
  | .live _, t, h => by cases h

theorem literalItems_unbroken : ∀ (vs : List Value) {ts : List String},
    literalItems vs = .ok ts → ∀ t ∈ ts, Unbroken t
  | [], ts, h => by
    cases h
    exact nofun
  | v :: rest, ts, h => by
    rw [literalItems, bind_eq_ok] at h
    obtain ⟨part, hpart, h⟩ := h
    obtain ⟨parts, hparts, h⟩ := bind_eq_ok.mp h
    cases h
    exact List.forall_mem_cons.mpr ⟨literal_unbroken v hpart, literalItems_unbroken rest hparts⟩

theorem literalEntries_unbroken : ∀ (es : List (Key × Value)) {ts : List String},
    literalEntries es = .ok ts → ∀ t ∈ ts, Unbroken t
  | [], ts, h => by
    cases h
    exact nofun
  | (k, v) :: rest, ts, h => by
    rw [literalEntries, bind_eq_ok] at h
    obtain ⟨key, hkey, h⟩ := h
    obtain ⟨part, hpart, h⟩ := bind_eq_ok.mp h
    obtain ⟨parts, hparts, h⟩ := bind_eq_ok.mp h
    cases h
    have hcolon : Unbroken (key ++ ": ") :=
      (scalarLiteral_unbroken hkey).append (unbroken_fixed rfl)
    have hentry := hcolon.append (literal_unbroken v hpart)
    exact List.forall_mem_cons.mpr ⟨hentry, literalEntries_unbroken rest hparts⟩

end

end Lexical

open Lexical

/-! ## Expressions -/

namespace Expr

variable {g : Naming} {locals : List String} {s : String}

theorem nameSource_unbroken {x : String} (h : IsWord x) : Unbroken (nameSource g locals x) := by
  have hx : Unbroken x := (named_of_word h).unbroken
  unfold nameSource
  split
  · exact hx
  · split
    · exact (unbroken_fixed rfl).append hx
    · exact hx

theorem asOperand_unbroken (e : Expr) (h : Unbroken s) : Unbroken (e.asOperand s) := by
  unfold asOperand
  split
  · exact h.between rfl rfl
  · exact h

/-- An operand, turned into a text or not. -/
theorem operand_unbroken (e : Expr) {j : Bool} (h : Unbroken s) :
    Unbroken (if j then "str(" ++ s ++ ")" else e.asOperand s) := by
  split
  · exact h.between rfl rfl
  · exact e.asOperand_unbroken h

mutual

/-- The source of an expression stands on one line. -/
theorem source_unbroken (locals : List String) (hg : Named g.messages) :
    ∀ e : Expr, e.Worded → Unbroken (e.source g locals)
  | literal s _, _ => scalar_unbroken s
  | ident x _, h => by
    cases h with
    | ident hx => exact nameSource_unbroken hx
  | array items _, h => by
    cases h with
    | array hitems =>
      exact (unbroken_commaSeparated (sources_unbroken locals hg items hitems)).between rfl rfl
  | unary op operand _, h => by
    cases h with
    | unary ho =>
      have hop : Unbroken op.source := by cases op <;> exact unbroken_fixed rfl
      exact hop.append (operand.asOperand_unbroken (source_unbroken locals hg operand ho))
  | binary op left right _, h => by
    cases h with
    | binary hl hr =>
      have hop : Unbroken op.source := by cases op <;> exact unbroken_fixed rfl
      have hleft := left.operand_unbroken (j := joinsLeft op left right)
        (source_unbroken locals hg left hl)
      have hright := right.operand_unbroken (j := joinsRight op left right)
        (source_unbroken locals hg right hr)
      have hblank : Unbroken " " := unbroken_fixed rfl
      exact (((hleft.append hblank).append hop).append hblank).append hright
  | member obj x line, h => by
    cases h with
    | member hobj hx =>
      have hpoint : Unbroken ("." ++ x) := (unbroken_fixed rfl).append (named_of_word hx).unbroken
      obtain he | ⟨-, he⟩ := source_member_cases g locals obj x line
      · rw [he, String.append_assoc]
        exact (source_unbroken locals hg obj hobj).append hpoint
      · rw [he, String.append_assoc]
        exact hg.unbroken.append hpoint
  | call callee args line, h => by
    cases h with
    | call hcallee hargs =>
      have harguments : Unbroken ("(" ++ commaSeparated (sources g locals args) ++ ")") :=
        (unbroken_commaSeparated (sources_unbroken locals hg args hargs)).between rfl rfl
      obtain ⟨x, l, rfl⟩ | hne := ident_or_not callee
      · cases hcallee with
        | ident hx =>
          have howner : Unbroken (if g.isMethod locals x then "self." else "") := by
            split <;> exact unbroken_fixed rfl
          have hcall := (howner.append (named_of_word hx).unbroken).append harguments
          rw [source_call_ident]
          simpa only [String.append_assoc] using hcall
      · have hcall := (source_unbroken locals hg callee hcallee).append harguments
        rw [source_call hne]
        simpa only [String.append_assoc] using hcall
  | node kind _ _ _ _, h => by
    cases h with
    | node hkind => exact (unbroken_fixed rfl).append (named_of_word hkind).unbroken

theorem sources_unbroken (locals : List String) (hg : Named g.messages) :
    ∀ es : List Expr, WordedItems es → ∀ s ∈ sources g locals es, Unbroken s
  | [], _ => nofun
  | e :: rest, h => by
    have hrest := sources_unbroken locals hg rest fun e he => h e (List.mem_cons_of_mem _ he)
    exact List.forall_mem_cons.mpr ⟨source_unbroken locals hg e (h e List.mem_cons_self), hrest⟩

end

end Expr

/-! ## Statements -/

namespace Stmt

variable {g : Naming}

mutual

/-- No line of a statement goes on in another. -/
theorem lines_unbroken (hg : Named g.messages) : ∀ (s : Stmt) (locals : List String), s.Worded →
    UnbrokenLines (s.lines g locals)
  | expr e _, locals, h => by
    cases h with
    | expr he => exact unbroken_line (e.source_unbroken locals hg he)
  | bind name value _ _ _, locals, h => by
    cases h with
    | bind hname hvalue =>
      have hfront : Unbroken (name ++ " = ") :=
        (Expr.named_of_word hname).unbroken.append (unbroken_fixed rfl)
      exact unbroken_line (hfront.append (value.source_unbroken locals hg hvalue))
  | assign target op value _, locals, h => by
    cases h with
    | assign htarget hvalue =>
      have hop : Unbroken op.symbol := by cases op <;> exact unbroken_fixed rfl
      have hblank : Unbroken " " := unbroken_fixed rfl
      have hleft := target.toExpr.source_unbroken locals hg htarget
      have hfront := ((hleft.append hblank).append hop).append hblank
      exact unbroken_line (hfront.append (value.source_unbroken locals hg hvalue))
  | choose subject arms _, locals, h => by
    cases h with
    | choose hsubject hpatterns hbodies =>
      have hhead : Unbroken ("match " ++ subject.source g locals ++ ":") :=
        (subject.source_unbroken locals hg hsubject).between rfl rfl
      exact unbroken_below hhead (armLines_unbroken hg arms locals ⟨hpatterns, hbodies⟩)
  | each name items body _, locals, h => by
    cases h with
    | each hname hitems hbody =>
      have hvariable : Unbroken ("for " ++ name ++ " in ") :=
        (Expr.named_of_word hname).unbroken.between rfl rfl
      have hitems' := hvariable.append (items.source_unbroken locals hg hitems)
      exact unbroken_below (hitems'.append (unbroken_fixed rfl))
        (blockLines_unbroken hg body _ hbody)
  | fn _, locals, h => unbroken_line (unbroken_fixed rfl)
  | type _, locals, h => unbroken_line (unbroken_fixed rfl)

theorem blockLines_unbroken (hg : Named g.messages) : ∀ (ss : List Stmt) (locals : List String),
    WordedBody ss → UnbrokenLines (blockLines g locals ss)
  | [], _, _ => unbroken_line (unbroken_fixed rfl)
  | s :: rest, locals, h =>
    unbroken_lines (lines_unbroken hg s locals (h s List.mem_cons_self))
      (restLines_unbroken hg rest _ fun s hs => h s (List.mem_cons_of_mem _ hs))

theorem restLines_unbroken (hg : Named g.messages) : ∀ (ss : List Stmt) (locals : List String),
    WordedBody ss → UnbrokenLines (restLines g locals ss)
  | [], _, _ => nofun
  | s :: rest, locals, h =>
    unbroken_lines (lines_unbroken hg s locals (h s List.mem_cons_self))
      (restLines_unbroken hg rest _ fun s hs => h s (List.mem_cons_of_mem _ hs))

theorem armLines_unbroken (hg : Named g.messages) : ∀ (arms : List Arm) (locals : List String),
    WordedArms arms → UnbrokenLines (armLines g locals arms)
  | [], _, _ => nofun
  | ⟨pattern, body, _⟩ :: rest, locals, h => by
    have hrest := armLines_unbroken hg rest locals
      ⟨fun a ha => h.1 a (List.mem_cons_of_mem _ ha), fun a ha => h.2 a (List.mem_cons_of_mem _ ha)⟩
    have hbody := blockLines_unbroken hg body locals (h.2 _ List.mem_cons_self)
    refine unbroken_lines (unbroken_below ?_ hbody) hrest
    cases pattern with
    | none =>
      have hhead : ("case " ++ "_" ++ ":").toList.any isBreak = false := rfl
      exact unbroken_fixed hhead
    | some p =>
      have hp := h.1 _ List.mem_cons_self p rfl
      exact (p.source_unbroken locals hg hp).between rfl rfl

end

end Stmt

/-! ## Views -/

section Views

variable {g : Naming} {s : String}

namespace Part

theorem source_unbroken (hg : Named g.messages) {p : Part} (hp : p.Worded)
    (h : p.source g = .ok s) : Unbroken s := by
  cases p with
  | code e =>
    cases h
    exact e.source_unbroken [] hg (hp e rfl)
  | known v =>
    cases v with
    | node n =>
      cases h
      exact unbroken_fixed rfl
    | _ => exact literal_unbroken _ h

theorem messageSource_unbroken (hg : Named g.messages) {p : Part} (hp : p.Worded)
    (h : p.messageSource g = .ok s) : Unbroken s := by
  unfold messageSource at h
  split at h
  · next v hv =>
    cases h
    have hfront : Unbroken (g.messages ++ ".") := hg.unbroken.append (unbroken_fixed rfl)
    exact hfront.append (variant?_named hp hv).1.unbroken
  · exact source_unbroken hg hp h

end Part

namespace Template

variable {t : Template}

theorem mainSource_unbroken (hg : Named g.messages) (ht : t.Worded) (h : t.mainSource g = .ok s) :
    Unbroken s := by
  have hargs := ht.arg
  unfold mainSource at h
  split at h
  · cases h
    exact unbroken_fixed rfl
  · next p rest hcons =>
    rw [hcons] at hargs
    exact Part.source_unbroken hg (hargs p List.mem_cons_self) h

theorem propSource_unbroken (hg : Named g.messages) (ht : t.Worded) {name default : String}
    (hdefault : default.toList.any isBreak = false) (h : t.propSource g name default = .ok s) :
    Unbroken s := by
  unfold propSource at h
  split at h
  · next p hp => exact Part.source_unbroken hg (ht.prop hp) h
  · cases h
    exact unbroken_fixed hdefault

/-- The call of a setting, if that is given. -/
theorem call_unbroken {source : Part → Except GenerationFault String}
    (hsource : ∀ p, p.Worded → ∀ s, source p = .ok s → Unbroken s) (ht : t.Worded)
    {set : Setting} (hset : Unbroken set.method) (h : set.call source t = .ok s) : Unbroken s := by
  unfold Setting.call at h
  obtain ⟨hnone, -⟩ | ⟨p, hsome, hp, -⟩ := t.given?_cases set.prop
  · rw [hnone] at h
    cases h
    exact unbroken_fixed rfl
  · rw [hsome] at h
    obtain ⟨text, htext, h⟩ := bind_eq_ok.mp h
    cases h
    have hmethod : Unbroken ("." ++ set.method ++ "(") := hset.between rfl rfl
    exact (hmethod.append (hsource p (ht.prop hp) text htext)).append (unbroken_fixed rfl)

theorem calls_unbroken {source : Part → Except GenerationFault String}
    (hsource : ∀ p, p.Worded → ∀ s, source p = .ok s → Unbroken s) (ht : t.Worded)
    {sets : List Setting} (hsets : ∀ set ∈ sets, Unbroken set.method)
    (h : Setting.calls source t sets = .ok s) : Unbroken s := by
  induction sets generalizing s with
  | nil =>
    cases h
    exact unbroken_fixed rfl
  | cons set rest ih =>
    obtain ⟨first, hfirst, h⟩ := bind_eq_ok.mp h
    obtain ⟨others, hothers, h⟩ := bind_eq_ok.mp h
    cases h
    have hset := call_unbroken hsource ht (hsets set List.mem_cons_self) hfirst
    exact hset.append (ih (fun set hs => hsets set (List.mem_cons_of_mem _ hs)) hothers)

theorem valueCalls_unbroken (hg : Named g.messages) (ht : t.Worded) {sets : List Setting}
    (hsets : sets.any (·.method.toList.any isBreak) = false) (h : t.valueCalls g sets = .ok s) :
    Unbroken s := by
  refine calls_unbroken (fun _ hp _ => Part.source_unbroken hg hp) ht (fun set hs => ?_) h
  exact unbroken_fixed (Bool.eq_false_iff.mpr (List.any_eq_false.mp hsets set hs))

theorem messageCall_unbroken (hg : Named g.messages) (ht : t.Worded) {prop method : String}
    (hmethod : method.toList.any isBreak = false) (h : t.messageCall g prop method = .ok s) :
    Unbroken s :=
  call_unbroken (fun _ hp _ => Part.messageSource_unbroken hg hp) ht (unbroken_fixed hmethod) h

theorem flagCall_unbroken (t : Template) {name : String} (hname : Unbroken name) :
    Unbroken (t.flagCall name) := by
  unfold flagCall
  split
  · split
    · exact hname.between rfl rfl
    · exact unbroken_fixed rfl
  · exact unbroken_fixed rfl

theorem styleArgument_unbroken (hg : Named g.messages) (ht : t.Worded)
    (h : t.styleArgument g = .ok s) : Unbroken s := by
  unfold styleArgument at h
  obtain ⟨hnone, -⟩ | ⟨p, hsome, hp, -⟩ := t.given?_cases "style"
  · rw [hnone] at h
    cases h
    exact unbroken_fixed rfl
  · rw [hsome] at h
    obtain ⟨text, htext, h⟩ := bind_eq_ok.mp h
    cases h
    exact (unbroken_fixed rfl).append (Part.source_unbroken hg (ht.prop hp) htext)

theorem textSource_unbroken (hg : Named g.messages) (ht : t.Worded)
    (h : t.textSource g = .ok s) : Unbroken s := by
  obtain ⟨style, hstyle, h⟩ := bind_eq_ok.mp h
  obtain ⟨main, hmain, h⟩ := bind_eq_ok.mp h
  cases h
  have hcall : Unbroken ("View.text(" ++ main) :=
    (unbroken_fixed rfl).append (mainSource_unbroken hg ht hmain)
  exact (hcall.append (styleArgument_unbroken hg ht hstyle)).append (unbroken_fixed rfl)

theorem buttonSource_unbroken (hg : Named g.messages) (ht : t.Worded)
    (h : t.buttonSource g = .ok s) : Unbroken s := by
  unfold buttonSource at h
  -- with a message or without, the rest is the same
  have hclick : ∃ message, Unbroken message ∧
      (do
        let style ← t.styleArgument g
        let main ← t.mainSource g
        return "View.button(" ++ main ++ ", " ++ message ++ style ++ ")") = .ok s := by
    obtain ⟨hnone, -⟩ | ⟨p, hsome, hp, -⟩ := t.given?_cases "onclick"
    · rw [hnone] at h
      exact ⟨"None", unbroken_fixed rfl, h⟩
    · rw [hsome] at h
      obtain ⟨message, hmessage, h⟩ := bind_eq_ok.mp h
      exact ⟨message, Part.messageSource_unbroken hg (ht.prop hp) hmessage, h⟩
  obtain ⟨message, hmessage, h⟩ := hclick
  obtain ⟨style, hstyle, h⟩ := bind_eq_ok.mp h
  obtain ⟨main, hmain, h⟩ := bind_eq_ok.mp h
  cases h
  have hcall : Unbroken ("View.button(" ++ main ++ ", ") :=
    (mainSource_unbroken hg ht hmain).between rfl rfl
  have harguments := (hcall.append hmessage).append (styleArgument_unbroken hg ht hstyle)
  exact harguments.append (unbroken_fixed rfl)

theorem inputSource_unbroken (hg : Named g.messages) (ht : t.Worded)
    (h : t.inputSource g = .ok s) : Unbroken s := by
  obtain ⟨settings, hsettings, h⟩ := bind_eq_ok.mp h
  obtain ⟨message, hmessage, h⟩ := bind_eq_ok.mp h
  obtain ⟨style, hstyle, h⟩ := bind_eq_ok.mp h
  obtain ⟨main, hmain, h⟩ := bind_eq_ok.mp h
  cases h
  have hcall : Unbroken ("View.input(" ++ main ++ ")") :=
    (mainSource_unbroken hg ht hmain).between rfl rfl
  have hvalue := valueCalls_unbroken hg ht rfl hsettings
  have hchange := messageCall_unbroken hg ht rfl hmessage
  have hpassword : Unbroken (t.flagCall "password") := t.flagCall_unbroken (unbroken_fixed rfl)
  have hlook := valueCalls_unbroken hg ht rfl hstyle
  exact ((((hcall.append hvalue).append hchange).append hpassword).append hlook).append
    (unbroken_fixed rfl)

theorem choiceSource_unbroken (hg : Named g.messages) (ht : t.Worded)
    {call state prop method : String} (hcall : Unbroken call)
    (hmethod : method.toList.any isBreak = false)
    (h : t.choiceSource g call state prop method = .ok s) : Unbroken s := by
  obtain ⟨on, hon, h⟩ := bind_eq_ok.mp h
  obtain ⟨main, hmain, h⟩ := bind_eq_ok.mp h
  obtain ⟨style, hstyle, h⟩ := bind_eq_ok.mp h
  obtain ⟨message, hmessage, h⟩ := bind_eq_ok.mp h
  cases h
  have hopening : Unbroken (call ++ "(") := hcall.append (unbroken_fixed rfl)
  have hstate : Unbroken (call ++ "(" ++ on ++ ", ") :=
    (hopening.append (propSource_unbroken hg ht rfl hon)).append (unbroken_fixed rfl)
  have hclosed : Unbroken (call ++ "(" ++ on ++ ", " ++ main ++ ")") :=
    (hstate.append (mainSource_unbroken hg ht hmain)).append (unbroken_fixed rfl)
  exact (hclosed.append (valueCalls_unbroken hg ht rfl hstyle)).append
    (messageCall_unbroken hg ht hmethod hmessage)

theorem selectSource_unbroken (hg : Named g.messages) (ht : t.Worded)
    (h : t.selectSource g = .ok s) : Unbroken s := by
  obtain ⟨options, hoptions, h⟩ := bind_eq_ok.mp h
  obtain ⟨settings, hsettings, h⟩ := bind_eq_ok.mp h
  obtain ⟨message, hmessage, h⟩ := bind_eq_ok.mp h
  cases h
  have hcall : Unbroken ("View.select(" ++ options ++ ")") :=
    (propSource_unbroken hg ht rfl hoptions).between rfl rfl
  exact (hcall.append (valueCalls_unbroken hg ht rfl hsettings)).append
    (messageCall_unbroken hg ht rfl hmessage)

theorem containerTail_unbroken (hg : Named g.messages) (ht : t.Worded)
    (h : t.containerTail g = .ok s) : Unbroken s := by
  obtain ⟨settings, hsettings, h⟩ := bind_eq_ok.mp h
  obtain ⟨style, hstyle, h⟩ := bind_eq_ok.mp h
  cases h
  have hx : Unbroken (t.flagCall "center_x") := t.flagCall_unbroken (unbroken_fixed rfl)
  have hy : Unbroken (t.flagCall "center_y") := t.flagCall_unbroken (unbroken_fixed rfl)
  have hsize := ((valueCalls_unbroken hg ht rfl hsettings).append hx).append hy
  exact (hsize.append (valueCalls_unbroken hg ht rfl hstyle)).append (unbroken_fixed rfl)

/-- An element on a line of its own. -/
theorem element_unbroken {before after : String} {ls : List Line}
    {source : Except GenerationFault String} (hbefore : Unbroken before)
    (hsource : ∀ s, source = .ok s → Unbroken s) (hafter : Unbroken after)
    (h : (do
      let s ← source
      return [Line.at0 (before ++ s ++ after)]) = .ok ls) : UnbrokenLines ls := by
  obtain ⟨s, hs, h⟩ := bind_eq_ok.mp h
  cases h
  exact unbroken_line ((hbefore.append (hsource s hs)).append hafter)

/-- Lines between two others, further in. -/
theorem around_unbroken {first last : String} {ls : List Line} (hfirst : Unbroken first)
    (hls : UnbrokenLines ls) (hlast : Unbroken last) :
    UnbrokenLines (.at0 first :: Line.indented ls ++ [.at0 last]) :=
  unbroken_lines (unbroken_below hfirst hls) (unbroken_line hlast)

mutual

/-- No line that builds a view goes on in another. -/
theorem lines_unbroken (hg : Named g.messages) : ∀ (t : Template) {before after : String}
    {ls : List Line}, t.Worded → Unbroken before → Unbroken after →
    t.lines g before after = .ok ls → UnbrokenLines ls
  | mk kind args props children, before, after, ls, ht, hbefore, hafter, h => by
    have hchildren : AllWorded children := ht.children
    rw [lines] at h
    cases hkind : Element.ofKind? kind with
    | none =>
      rw [hkind] at h
      cases ht with
      | mk hname _ _ _ =>
        cases h
        have hview : Unbroken (before ++ "View.empty()") := hbefore.append (unbroken_fixed rfl)
        have hmark : Unbroken "  # unknown call: " := unbroken_fixed rfl
        have hkind' := (Expr.named_of_word hname).unbroken
        exact unbroken_line (((hview.append hafter).append hmark).append hkind')
    | some e =>
      rw [hkind] at h
      cases e with
      | text => exact element_unbroken hbefore (fun _ => textSource_unbroken hg ht) hafter h
      | button => exact element_unbroken hbefore (fun _ => buttonSource_unbroken hg ht) hafter h
      | input => exact element_unbroken hbefore (fun _ => inputSource_unbroken hg ht) hafter h
      | checkbox =>
        exact element_unbroken hbefore
          (fun _ => choiceSource_unbroken hg ht (unbroken_fixed rfl) rfl) hafter h
      | radio =>
        exact element_unbroken hbefore
          (fun _ => choiceSource_unbroken hg ht (unbroken_fixed rfl) rfl) hafter h
      | select => exact element_unbroken hbefore (fun _ => selectSource_unbroken hg ht) hafter h
      | column =>
        obtain ⟨settings, hsettings, h⟩ := bind_eq_ok.mp h
        have hhead : Unbroken ("View.col()" ++ settings) :=
          (unbroken_fixed rfl).append (valueCalls_unbroken hg ht rfl hsettings)
        exact layoutLines_unbroken hg children hchildren hbefore hhead hafter h
      | row =>
        obtain ⟨settings, hsettings, h⟩ := bind_eq_ok.mp h
        have hhead : Unbroken ("View.row()" ++ settings) :=
          (unbroken_fixed rfl).append (valueCalls_unbroken hg ht rfl hsettings)
        exact layoutLines_unbroken hg children hchildren hbefore hhead hafter h
      | center =>
        exact singleLines_unbroken hg children hchildren hbefore (unbroken_fixed rfl)
          (unbroken_fixed rfl) hafter h
      | container =>
        obtain ⟨tail, htail, h⟩ := bind_eq_ok.mp h
        exact singleLines_unbroken hg children hchildren hbefore (unbroken_fixed rfl)
          (containerTail_unbroken hg ht htail) hafter h
      | scrollable =>
        obtain ⟨settings, hsettings, h⟩ := bind_eq_ok.mp h
        have hbuild : Unbroken ".build()" := unbroken_fixed rfl
        have htail := (valueCalls_unbroken hg ht rfl hsettings).append hbuild
        exact singleLines_unbroken hg children hchildren hbefore (unbroken_fixed rfl) htail hafter h
      | list =>
        obtain ⟨tail, htail, h⟩ := bind_eq_ok.mp h
        have htail' := valueCalls_unbroken hg ht rfl htail
        cases children with
        | nil =>
          cases h
          have hlist : Unbroken (before ++ "View.list([])") :=
            hbefore.append (unbroken_fixed rfl)
          have hbuild : Unbroken ".build()" := unbroken_fixed rfl
          exact unbroken_line (((hlist.append htail').append hbuild).append hafter)
        | cons c rest =>
          obtain ⟨inside, hinside, h⟩ := bind_eq_ok.mp h
          cases h
          have hlast : Unbroken ("])" ++ tail ++ ".build()") := htail'.between rfl rfl
          exact around_unbroken (hbefore.append (unbroken_fixed rfl))
            (eachLines_unbroken hg (c :: rest) hchildren hinside) (hlast.append hafter)
      | table =>
        obtain ⟨tail, htail, h⟩ := bind_eq_ok.mp h
        obtain ⟨headers, hheaders, h⟩ := bind_eq_ok.mp h
        obtain ⟨rows, hrows, h⟩ := bind_eq_ok.mp h
        cases h
        have hopening : Unbroken "[" := unbroken_fixed rfl
        have hclosing : Unbroken "]," := unbroken_fixed rfl
        have hfirst := around_unbroken hopening
          (headerLines_unbroken hg children hchildren hheaders) hclosing
        have hsecond := around_unbroken hopening
          (rowLines_unbroken hg children hchildren hrows) hclosing
        have hlast : Unbroken (")" ++ tail ++ ".build()") :=
          (valueCalls_unbroken hg ht rfl htail).between rfl rfl
        have htable : Unbroken (before ++ "View.table(") := hbefore.append (unbroken_fixed rfl)
        have hall := around_unbroken htable (unbroken_lines hfirst hsecond) (hlast.append hafter)
        simpa using hall

theorem layoutLines_unbroken (hg : Named g.messages) : ∀ (children : List Template)
    {before after head : String} {ls : List Line}, AllWorded children → Unbroken before →
    Unbroken head → Unbroken after → layoutLines g before after head children = .ok ls →
    UnbrokenLines ls
  | [], before, after, head, ls, _, hbefore, hhead, hafter, h => by
    cases h
    exact unbroken_line
      (((hbefore.append hhead).append (unbroken_fixed rfl)).append hafter)
  | t :: rest, before, after, head, ls, hts, hbefore, hhead, hafter, h => by
    obtain ⟨first, hfirst, h⟩ := bind_eq_ok.mp h
    obtain ⟨others, hothers, h⟩ := bind_eq_ok.mp h
    cases h
    have ht := lines_unbroken hg t (hts t List.mem_cons_self) (unbroken_fixed rfl)
      (unbroken_fixed rfl) hfirst
    have hrest := eachLines_unbroken hg rest (fun t ht => hts t (List.mem_cons_of_mem _ ht)) hothers
    exact around_unbroken ((hbefore.append hhead).append (unbroken_fixed rfl))
      (unbroken_lines ht hrest) ((unbroken_fixed rfl).append hafter)

theorem singleLines_unbroken (hg : Named g.messages) : ∀ (children : List Template)
    {before after call tail : String} {ls : List Line}, AllWorded children → Unbroken before →
    Unbroken call → Unbroken tail → Unbroken after →
    singleLines g before after call tail children = .ok ls → UnbrokenLines ls
  | [], before, after, call, tail, ls, _, hbefore, hcall, htail, hafter, h => by
    cases h
    have hempty : Unbroken (before ++ call ++ "(View.empty())") :=
      (hbefore.append hcall).append (unbroken_fixed rfl)
    exact unbroken_line ((hempty.append htail).append hafter)
  | t :: _, before, after, call, tail, ls, hts, hbefore, hcall, htail, hafter, h => by
    obtain ⟨inside, hinside, h⟩ := bind_eq_ok.mp h
    cases h
    have ht := lines_unbroken hg t (hts t List.mem_cons_self) (unbroken_fixed rfl)
      (unbroken_fixed rfl) hinside
    exact around_unbroken ((hbefore.append hcall).append (unbroken_fixed rfl)) ht
      (((unbroken_fixed rfl).append htail).append hafter)

theorem eachLines_unbroken (hg : Named g.messages) : ∀ (ts : List Template) {ls : List Line},
    AllWorded ts → eachLines g ts = .ok ls → UnbrokenLines ls
  | [], ls, _, h => by
    cases h
    exact nofun
  | t :: rest, ls, hts, h => by
    obtain ⟨first, hfirst, h⟩ := bind_eq_ok.mp h
    obtain ⟨others, hothers, h⟩ := bind_eq_ok.mp h
    cases h
    have ht := lines_unbroken hg t (hts t List.mem_cons_self) (unbroken_fixed rfl)
      (unbroken_fixed rfl) hfirst
    exact unbroken_lines ht
      (eachLines_unbroken hg rest (fun t ht => hts t (List.mem_cons_of_mem _ ht)) hothers)

theorem headerLines_unbroken (hg : Named g.messages) : ∀ (ts : List Template) {ls : List Line},
    AllWorded ts → headerLines g ts = .ok ls → UnbrokenLines ls
  | [], ls, _, h => by
    cases h
    exact nofun
  | mk kind args props children :: rest, ls, hts, h => by
    have ht := hts _ List.mem_cons_self
    have hrest : ∀ ls, headerLines g rest = .ok ls → UnbrokenLines ls :=
      fun ls => headerLines_unbroken hg rest fun t ht => hts t (List.mem_cons_of_mem _ ht)
    by_cases hkind : kind.same (.str "header")
    · cases children with
      | nil =>
        rw [headerLines, if_pos hkind] at h
        obtain ⟨source, hsource, h⟩ := bind_eq_ok.mp h
        obtain ⟨first, hfirst, h⟩ := bind_eq_ok.mp h
        obtain ⟨others, hothers, h⟩ := bind_eq_ok.mp h
        cases hfirst
        cases h
        have hcomma : Unbroken "," := unbroken_fixed rfl
        exact unbroken_lines (unbroken_line ((textSource_unbroken hg ht hsource).append hcomma))
          (hrest others hothers)
      | cons c cs =>
        rw [headerLines, if_pos hkind] at h
        obtain ⟨first, hfirst, h⟩ := bind_eq_ok.mp h
        obtain ⟨others, hothers, h⟩ := bind_eq_ok.mp h
        cases h
        have hc := lines_unbroken hg c (ht.children c List.mem_cons_self) (unbroken_fixed rfl)
          (unbroken_fixed rfl) hfirst
        exact unbroken_lines hc (hrest others hothers)
    · rw [headerLines, if_neg hkind] at h
      exact hrest ls h

theorem rowLines_unbroken (hg : Named g.messages) : ∀ (ts : List Template) {ls : List Line},
    AllWorded ts → rowLines g ts = .ok ls → UnbrokenLines ls
  | [], ls, _, h => by
    cases h
    exact nofun
  | mk kind _ _ children :: rest, ls, hts, h => by
    have hrest : ∀ ls, rowLines g rest = .ok ls → UnbrokenLines ls :=
      fun ls => rowLines_unbroken hg rest fun t ht => hts t (List.mem_cons_of_mem _ ht)
    rw [rowLines] at h
    by_cases hkind : kind.same (.str "row")
    · rw [if_pos hkind] at h
      obtain ⟨inside, hinside, h⟩ := bind_eq_ok.mp h
      obtain ⟨others, hothers, h⟩ := bind_eq_ok.mp h
      cases h
      have hchildren := (hts _ List.mem_cons_self).children
      have hopening : Unbroken "[" := unbroken_fixed rfl
      have hclosing : Unbroken "]," := unbroken_fixed rfl
      have hrow := around_unbroken hopening
        (eachLines_unbroken hg children hchildren hinside) hclosing
      have hall := unbroken_lines hrow (hrest others hothers)
      simpa using hall
    · rw [if_neg hkind] at h
      exact hrest ls h

end

end Template

end Views

end Widgetry
