import Widgetry.Proofs.Generation.LineEnds

/-!
# Blocks of generated source

A line that opens a block is followed by the lines of the block, which stand one step further in.
Whatever is written in a widget's source, a line opens a block there only if it was made for that:
no expression ends with a colon, and no line that builds a view begins with a word of a header.

> `Stmt.lines_body`: the blocks of a statement have lines exactly if every choice in it has an arm
> (`Stmt.armed`);
> `Template.lines_body`: no line that builds a view opens a block.

An empty body is written as `pass`, but a choice without arms is a header and nothing else.
-/

namespace Widgetry

open Lexical

/-! ## Lines that open blocks -/

namespace Line

/-- The words that the header of a block begins with. -/
def headerWords : List (List Char) := ["class", "def", "match", "case", "for"].map String.toList

/-- Whether a line opens a block: it begins with such a word and ends with a colon. -/
def opens (l : Line) : Bool :=
  headerWords.contains (l.text.toList.takeWhile (· != ' ')) && l.text.toList.getLast? == some ':'

/-- Whether a line is neither empty nor a comment. -/
def isCode (l : Line) : Bool := l.text.toList.head?.any (· != '#')

end Line

/-- Whether each of some lines of code that opens a block has a line behind it that stands one step
further in. -/
def filled (step : Nat) : List Line → Bool
  | [] => true
  | l :: rest => (!l.opens || rest.head?.any (·.level == l.level + step)) && filled step rest

section Filled

variable {step : Nat} {ls ms : List Line}

/-- Lines at the margin belong to no block in front of them. -/
theorem filled_append (hstep : 0 < step) (hms : ∀ m ∈ ms.head?, m.level = 0) :
    filled step (ls ++ ms) = (filled step ls && filled step ms) := by
  induction ls with
  | nil => rfl
  | cons l rest ih =>
    rw [List.cons_append, filled, filled, ih, Bool.and_assoc]
    cases rest with
    | cons => rfl
    | nil =>
      -- if the last line in front is a header, it has no line in either list
      have hmargin : ms.head?.any (·.level == l.level + step) = false := by
        cases hhead : ms.head? with
        | none => rfl
        | some m =>
          rw [Option.any_some, beq_eq_false_iff_ne, hms m hhead]
          omega
      rw [List.nil_append, hmargin]
      rfl

/-- Lines without headers have no blocks. -/
theorem filled_plain (h : ∀ l ∈ ls, l.opens = false) : filled step ls = true := by
  induction ls with
  | nil => rfl
  | cons l rest ih =>
    rw [filled, h l List.mem_cons_self, ih fun l hl => h l (List.mem_cons_of_mem _ hl)]
    rfl

theorem filled_indented : filled step (Line.indented ls) = filled step ls := by
  induction ls with
  | nil => rfl
  | cons l rest ih =>
    have hhead : (Line.indented rest).head?.any (·.level == l.level + 1 + step)
        = rest.head?.any (·.level == l.level + step) := by
      cases rest with
      | nil => rfl
      | cons m rest =>
        show (m.level + 1 == l.level + 1 + step) = (m.level == l.level + step)
        rw [Bool.eq_iff_iff, beq_iff_eq, beq_iff_eq]
        omega
    show ((!l.opens || (Line.indented rest).head?.any (·.level == l.level + 1 + step)) &&
      filled step (Line.indented rest)) = _
    rw [hhead, ih]
    rfl

theorem filter_indented (ls : List Line) :
    (Line.indented ls).filter Line.isCode = Line.indented (ls.filter Line.isCode) :=
  List.filter_map

end Filled

/-! ## How texts begin and end -/

/-- Whether a text has a first character, and that is of some kind. -/
def First (p : Char → Bool) (s : String) : Prop := s.toList.head?.any p = true

/-- Whether a text begins neither with a blank nor as a comment. -/
abbrev Begins : String → Prop := First fun c => c != ' ' && c != '#'

/-- Whether a text ends with something else than a colon. -/
def Ends (s : String) : Prop := s.toList.getLast?.any (· != ':') = true

/-- Whether a text begins with the word of a header and a blank. -/
structure Leads (s : String) : Prop where
  word : Line.headerWords.contains (s.toList.takeWhile (· != ' ')) = true
  blank : ' ' ∈ s.toList

/-- Whether a text opens a block. -/
abbrev Header (s : String) : Prop := (Line.at0 s).opens = true

/-- Whether a text is code and opens no block. -/
structure Plain (s : String) : Prop where
  begins : Begins s
  closed : (Line.at0 s).opens = false

variable {s t : String}

theorem first_fixed {p : Char → Bool} (h : s.toList.head?.any p = true) : First p s := h

theorem ends_fixed (h : s.toList.getLast?.any (· != ':') = true) : Ends s := h

theorem First.append {p : Char → Bool} (h : First p s) (t : String) : First p (s ++ t) := by
  unfold First at h ⊢
  rw [String.toList_append]
  cases hs : s.toList with
  | nil =>
    rw [hs] at h
    cases h
  | cons c rest =>
    rw [hs] at h
    exact h

theorem Ends.behind (h : Ends t) (s : String) : Ends (s ++ t) := by
  unfold Ends at h ⊢
  rw [String.toList_append, List.getLast?_append]
  cases ht : t.toList.getLast? with
  | none =>
    rw [ht] at h
    cases h
  | some c =>
    rw [ht] at h
    exact h

theorem begins_cons {c : Char} {rest : List Char} (hs : s.toList = c :: rest)
    (hc : c ≠ ' ' ∧ c ≠ '#') : Begins s := by
  show s.toList.head?.any _ = true
  rw [hs]
  simp [hc]

/-- A text without blanks, marks of comments and colons. -/
theorem edges_of_apart (hne : s ≠ "") (h : ∀ c ∈ s.toList, c ≠ ' ' ∧ c ≠ '#' ∧ c ≠ ':') :
    Begins s ∧ Ends s := by
  have hcs : s.toList ≠ [] := fun hnil => hne (String.toList_eq_nil_iff.mp hnil)
  constructor
  · obtain ⟨c, rest, hcs⟩ := List.exists_cons_of_ne_nil hcs
    have hc := h c (by rw [hcs]; exact List.mem_cons_self)
    exact begins_cons hcs ⟨hc.1, hc.2.1⟩
  · have hc := h _ (List.getLast_mem hcs)
    rw [Ends, List.getLast?_eq_some_getLast hcs]
    simp [hc]

theorem apart_of_nameChar {c : Char} (h : nameChar c = true) : c ≠ ' ' ∧ c ≠ '#' ∧ c ≠ ':' := by
  have hall : [' ', '#', ':'].all (!nameChar ·) = true := by decide +kernel
  have hne : ∀ d ∈ [' ', '#', ':'], c ≠ d := by
    rintro d hd rfl
    have hnot := List.all_eq_true.mp hall c hd
    rw [h] at hnot
    cases hnot
  exact ⟨hne ' ' (by decide), hne '#' (by decide), hne ':' (by decide)⟩

theorem named_edges (h : Named s) (hne : s ≠ "") : Begins s ∧ Ends s :=
  edges_of_apart hne fun c hc => apart_of_nameChar (h c hc)

theorem word_edges (h : IsWord s) : Begins s ∧ Ends s :=
  named_edges (Expr.named_of_word h) h.ne_empty

theorem begins_identifier (h : Text.isIdentifier s = true) : Begins s := by
  refine (named_edges (named_of_isIdentifier h) ?_).1
  rintro rfl
  cases h

/-- Something behind a name. -/
theorem Begins.named (hs : Named s) (ht : Begins t) : Begins (s ++ t) := by
  by_cases hempty : s = ""
  · rw [hempty, String.empty_append]
    exact ht
  · exact (named_edges hs hempty).1.append t

/-- A name behind something. -/
theorem Ends.named (hs : Ends s) (ht : Named t) : Ends (s ++ t) := by
  by_cases hempty : t = ""
  · rw [hempty, String.append_empty]
    exact hs
  · exact (named_edges ht hempty).2.behind s

/-- The first word of a text with a blank does not depend on what follows. -/
theorem firstWord_append (h : ' ' ∈ s.toList) (t : String) :
    (s ++ t).toList.takeWhile (· != ' ') = s.toList.takeWhile (· != ' ') := by
  rw [String.toList_append, List.takeWhile_append, if_neg]
  intro hlength
  have hall : (s.toList.takeWhile (· != ' ')).all (· != ' ') = true := List.all_takeWhile
  rw [(List.takeWhile_prefix _).eq_of_length hlength] at hall
  exact absurd (List.all_eq_true.mp hall ' ' h) (by decide)

theorem Leads.append (h : Leads s) (t : String) : Leads (s ++ t) where
  word := by
    rw [firstWord_append h.blank]
    exact h.word
  blank := by
    rw [String.toList_append]
    exact List.mem_append_left _ h.blank

theorem leads_fixed (h : (Line.headerWords.contains (s.toList.takeWhile (· != ' ')) &&
    s.toList.contains ' ') = true) : Leads s where
  word := (Bool.and_eq_true_iff.mp h).1
  blank := List.contains_iff_mem.mp (Bool.and_eq_true_iff.mp h).2

theorem Leads.header (h : Leads s) (ht : t.toList.getLast? = some ':') : Header (s ++ t) := by
  have hlast : (s ++ t).toList.getLast? = some ':' := by
    rw [String.toList_append, List.getLast?_append, ht]
    rfl
  exact Bool.and_eq_true_iff.mpr ⟨(h.append t).word, beq_iff_eq.mpr hlast⟩

theorem header_begins (h : Header s) : Begins s := by
  have hall : Line.headerWords.all (fun w => w.head?.any fun c => c != ' ' && c != '#') = true := by
    decide +kernel
  have hword := List.all_eq_true.mp hall _
    (List.contains_iff_mem.mp (Bool.and_eq_true_iff.mp h).1)
  rw [List.head?_takeWhile] at hword
  obtain ⟨c, hc, hne⟩ := (Option.any_eq_true _ _).mp hword
  exact (Option.any_eq_true _ _).mpr ⟨c, (Option.filter_eq_some_iff.mp hc).1, hne⟩

theorem begins_isCode (h : Begins s) : (Line.at0 s).isCode = true := by
  obtain ⟨c, hc, hne⟩ := (Option.any_eq_true _ _).mp h
  exact (Option.any_eq_true _ _).mpr ⟨c, hc, (Bool.and_eq_true_iff.mp hne).2⟩

theorem Begins.unspaced (h : Begins s) : s.toList.head? ≠ some ' ' := by
  intro hspace
  replace h : s.toList.head?.any _ = true := h
  rw [hspace] at h
  cases h

/-- What does not end with a colon opens no block. -/
theorem Begins.plain (h : Begins s) (hends : Ends s) : Plain s where
  begins := h
  closed := by
    refine Bool.and_eq_false_iff.mpr (.inr (beq_eq_false_iff_ne.mpr fun hlast => ?_))
    replace hlast : s.toList.getLast? = some ':' := hlast
    rw [Ends, hlast] at hends
    cases hends

/-- What begins with another word than a header opens no block. -/
theorem Begins.plain_append (h : Begins s) (hblank : ' ' ∈ s.toList)
    (hword : Line.headerWords.contains (s.toList.takeWhile (· != ' ')) = false) (t : String) :
    Plain (s ++ t) where
  begins := h.append t
  closed := by
    refine Bool.and_eq_false_iff.mpr (.inl ?_)
    rw [← firstWord_append hblank t] at hword
    exact hword

/-! ## Expressions -/

/-- The text of a number begins with a digit, a letter or a sign, and so it ends. -/
theorem number_edges (hne : s ≠ "") (h : ∀ c ∈ s.toList, isNumeral c = true) :
    Begins s ∧ Ends s := by
  refine edges_of_apart hne fun c hc => ?_
  obtain hname | hsign := Bool.or_eq_true_iff.mp (h c hc)
  · exact apart_of_nameChar hname
  · have hall : ['.', '+', '-'].all (fun c => c != ' ' && (c != '#' && c != ':')) = true := by
      decide
    have hc' := List.all_eq_true.mp hall c (List.contains_iff_mem.mp hsign)
    simpa only [Bool.and_eq_true, bne_iff_ne] using hc'

theorem fraction_ne_nil {cs : List Char} (h : Formula.IsFraction cs) : cs ≠ [] := by
  obtain ⟨hne, -⟩ := h
  exact List.append_ne_nil_of_left_ne_nil hne _

theorem render_ne_empty (x : Float) : numberLayout.render x ≠ "" := by
  rw [Decimal.Layout.render]
  cases hx : Binary64.Exact.ofFloat? x with
  | none =>
    dsimp only
    split
    · decide
    · split
      · decide
      · decide
  | some e =>
    have htext : (if e.mantissa = 0 then "0.0".toList
        else numberLayout.magnitude (Decimal.shortest e)) ≠ [] := by
      split
      · exact List.cons_ne_nil _ _
      · exact fraction_ne_nil (Formula.isFraction_magnitude _)
    intro hempty
    have hnil := congrArg String.toList hempty
    rw [String.toList_ofList] at hnil
    split at hnil
    · cases hnil
    · exact htext hnil

theorem toString_ne_empty (n : Int) : toString n ≠ "" := by
  intro hempty
  have hnil := congrArg String.toList hempty
  cases n with
  | ofNat n => exact Formula.repr_ne_nil n hnil
  | negSucc n =>
    replace hnil : ("-" ++ Nat.repr (n + 1)).toList = [] := hnil
    rw [String.toList_append] at hnil
    cases hnil

theorem quoted_edges (s : String) : Begins (Json.quoted s) ∧ Ends (Json.quoted s) := by
  have hquoted : (Json.quoted s).toList = '"' :: (s.toList.flatMap Json.escapeChar ++ ['"']) := by
    rw [Json.quoted, String.toList_ofList]
    rfl
  refine ⟨begins_cons hquoted (by decide), ?_⟩
  rw [Ends, hquoted, ← List.cons_append, List.getLast?_concat]
  rfl

theorem scalar_edges : ∀ s : Scalar, Begins s.source ∧ Ends s.source
  | .nil => ⟨rfl, rfl⟩
  | .bool true => ⟨rfl, rfl⟩
  | .bool false => ⟨rfl, rfl⟩
  | .int n => number_edges (toString_ne_empty n) (isNumeral_whole n)
  | .float x => number_edges (render_ne_empty x) (isNumeral_render x)
  | .str s => quoted_edges s

namespace Expr

variable {g : Naming}

theorem nameSource_edges {locals : List String} {x : String} (h : IsWord x) :
    Begins (nameSource g locals x) ∧ Ends (nameSource g locals x) := by
  have hx : Begins x ∧ Ends x := word_edges h
  have hself : Begins ("self." ++ x) ∧ Ends ("self." ++ x) :=
    ⟨(first_fixed rfl).append x, (word_edges h).2.behind _⟩
  unfold nameSource
  split
  · exact hx
  · split
    · exact hself
    · exact hx

/-- An operand, in parentheses or not, turned into a text or not. -/
theorem operand_edges (e : Expr) (j : Bool) (h : Begins s ∧ Ends s) :
    Begins (if j then "str(" ++ s ++ ")" else e.asOperand s) ∧
      Ends (if j then "str(" ++ s ++ ")" else e.asOperand s) := by
  have htext : Begins ("str(" ++ s ++ ")") ∧ Ends ("str(" ++ s ++ ")") :=
    ⟨((first_fixed rfl).append s).append _, (ends_fixed rfl).behind _⟩
  have hgroup : Begins ("(" ++ s ++ ")") ∧ Ends ("(" ++ s ++ ")") :=
    ⟨((first_fixed rfl).append s).append _, (ends_fixed rfl).behind _⟩
  unfold asOperand
  split
  · exact htext
  · split
    · exact hgroup
    · exact h

/-- The source of an expression begins like code, and does not end with a colon. -/
theorem source_edges (locals : List String) (hg : Named g.messages) :
    ∀ e : Expr, e.Worded → Begins (e.source g locals) ∧ Ends (e.source g locals)
  | literal s _, _ => scalar_edges s
  | ident x _, .ident hx => nameSource_edges hx
  | array items _, _ => ⟨((first_fixed rfl).append _).append _, (ends_fixed rfl).behind _⟩
  | unary op operand _, .unary ho => by
    have hop : Begins op.source := by cases op <;> exact rfl
    have hoperand := operand.operand_edges false (source_edges locals hg operand ho)
    exact ⟨hop.append _, hoperand.2.behind _⟩
  | binary op left right _, .binary hl hr => by
    have hleft := left.operand_edges (joinsLeft op left right) (source_edges locals hg left hl)
    have hright := right.operand_edges (joinsRight op left right)
      (source_edges locals hg right hr)
    exact ⟨(((hleft.1.append _).append _).append _).append _, hright.2.behind _⟩
  | member obj x line, .member hobj hx => by
    obtain he | ⟨-, he⟩ := source_member_cases g locals obj x line
    · rw [he]
      exact ⟨((source_edges locals hg obj hobj).1.append _).append _, (word_edges hx).2.behind _⟩
    · rw [he, String.append_assoc]
      exact ⟨Begins.named hg ((first_fixed rfl).append x), ((word_edges hx).2.behind _).behind _⟩
  | call callee args line, .call hcallee _ => by
    obtain ⟨x, l, rfl⟩ | hne := ident_or_not callee
    · cases hcallee with
      | ident hx =>
        rw [source_call_ident]
        refine ⟨?_, (ends_fixed rfl).behind _⟩
        have hcall : Begins ((if g.isMethod locals x then "self." else "") ++ x) := by
          split
          · exact (first_fixed rfl).append x
          · rw [String.empty_append]
            exact (word_edges hx).1
        exact ((hcall.append _).append _).append _
    · rw [source_call hne]
      exact ⟨(((source_edges locals hg callee hcallee).1.append _).append _).append _,
        (ends_fixed rfl).behind _⟩
  | node kind _ _ _ _, .node hkind _ _ _ _ =>
    ⟨(first_fixed rfl).append _, (word_edges hkind).2.behind _⟩

end Expr

/-! ## Lines -/

/-- Whether lines can stand behind others: the first of them is at the margin, none has a blank more
than its level says, and their blocks are filled exactly if `b` says so. -/
structure Placed (b : Bool) (ls : List Line) : Prop where
  margin : ∀ l ∈ (ls.filter Line.isCode).head?, l.level = 0
  filled : filled 1 (ls.filter Line.isCode) = b
  unspaced : ∀ l ∈ ls, l.text.toList.head? ≠ some ' '

/-- Whether lines can be the body of a block: besides, they have a line of code. -/
structure Body (b : Bool) (ls : List Line) : Prop extends Placed b ls where
  ne_nil : ls.filter Line.isCode ≠ []

section Lines

variable {a b : Bool} {ls ms : List Line}

theorem Placed.nil : Placed true [] := ⟨nofun, rfl, nofun⟩

theorem Placed.append (hls : Placed a ls) (hms : Placed b ms) : Placed (a && b) (ls ++ ms) where
  margin := by
    intro l hl
    rw [List.filter_append, List.head?_append] at hl
    cases hhead : (ls.filter Line.isCode).head? with
    | none =>
      rw [hhead] at hl
      exact hms.margin l hl
    | some _ =>
      rw [hhead, Option.some_or] at hl
      exact hls.margin l (hhead.trans hl)
  filled := by
    rw [List.filter_append, filled_append Nat.one_pos hms.margin, hls.filled, hms.filled]
  unspaced := List.forall_mem_append.mpr ⟨hls.unspaced, hms.unspaced⟩

theorem Body.append (hls : Body a ls) (hms : Placed b ms) : Body (a && b) (ls ++ ms) where
  toPlaced := hls.toPlaced.append hms
  ne_nil := by
    rw [List.filter_append]
    exact List.append_ne_nil_of_left_ne_nil hls.ne_nil _

theorem Body.behind (hms : Body b ms) (hls : Placed a ls) : Body (a && b) (ls ++ ms) where
  toPlaced := hls.append hms.toPlaced
  ne_nil := by
    rw [List.filter_append]
    exact List.append_ne_nil_of_right_ne_nil _ hms.ne_nil

/-- Lines whose code begins at the margin. -/
theorem Body.of_code (hcode : ls.filter Line.isCode = .at0 s :: ms)
    (hfilled : Widgetry.filled 1 (.at0 s :: ms) = b)
    (hunspaced : ∀ l ∈ ls, l.text.toList.head? ≠ some ' ') : Body b ls where
  margin := by
    intro l hl
    rw [hcode] at hl
    cases hl
    rfl
  filled := by rw [hcode, hfilled]
  unspaced := hunspaced
  ne_nil := by
    rw [hcode]
    exact List.cons_ne_nil _ _

/-- A header with its body. -/
theorem Body.below (h : Body b ls) (hs : Header s) : Body b (.at0 s :: Line.indented ls) := by
  -- the body begins at its own margin, which is one step further in than the header
  have hfirst : (Line.indented (ls.filter Line.isCode)).head?.any
      (·.level == (Line.at0 s).level + 1) = true := by
    cases hls : ls.filter Line.isCode with
    | nil => exact absurd hls h.ne_nil
    | cons l rest =>
      have hl := h.margin l (by rw [hls]; rfl)
      exact beq_iff_eq.mpr (congrArg (· + 1) hl)
  have hcode : (Line.at0 s :: Line.indented ls).filter Line.isCode
      = .at0 s :: Line.indented (ls.filter Line.isCode) := by
    rw [List.filter_cons_of_pos (begins_isCode (header_begins hs)), filter_indented]
  refine .of_code hcode ?_ ?_
  · rw [Widgetry.filled, hs, hfirst, filled_indented, h.filled]
    rfl
  · refine List.forall_mem_cons.mpr ⟨(header_begins hs).unspaced, fun l hl => ?_⟩
    obtain ⟨m, hm, rfl⟩ := List.mem_map.mp hl
    exact h.unspaced m hm

/-- A header without a body. -/
theorem Body.bare (hs : Header s) : Body false [.at0 s] := by
  refine .of_code (List.filter_cons_of_pos (begins_isCode (header_begins hs))) ?_
    (List.forall_mem_singleton.mpr (header_begins hs).unspaced)
  rw [List.filter_nil, Widgetry.filled, hs]
  rfl

/-- Lines that open no blocks, the first of them at the margin. -/
theorem Body.plain (hs : Plain s) (h : ∀ l ∈ ls, Plain l.text) : Body true (.at0 s :: ls) := by
  refine .of_code (List.filter_cons_of_pos (begins_isCode hs.begins)) (filled_plain ?_)
    (List.forall_mem_cons.mpr ⟨hs.begins.unspaced, fun l hl => (h l hl).begins.unspaced⟩)
  exact List.forall_mem_cons.mpr
    ⟨hs.closed, fun l hl => (h l (List.mem_of_mem_filter hl)).closed⟩

theorem Body.line (hs : Plain s) : Body true [.at0 s] := .plain hs nofun

/-- Comments are no lines of code. -/
theorem placed_comments {α : Type} {f : α → String} (h : ∀ a, (f a).toList.head? = some '#')
    (as : List α) : Placed true (as.map fun a => .at0 (f a)) := by
  have hcode : (as.map fun a => Line.at0 (f a)).filter Line.isCode = [] := by
    refine List.filter_eq_nil_iff.mpr fun l hl => ?_
    obtain ⟨a, -, rfl⟩ := List.mem_map.mp hl
    show ¬(f a).toList.head?.any (· != '#') = true
    rw [h a]
    decide
  refine ⟨?_, ?_, fun l hl => ?_⟩
  · rw [hcode]
    exact nofun
  · rw [hcode]
    rfl
  · obtain ⟨a, -, rfl⟩ := List.mem_map.mp hl
    show (f a).toList.head? ≠ some ' '
    rw [h a]
    decide

theorem Placed.blank : Placed true [.blank] :=
  ⟨nofun, rfl, List.forall_mem_singleton.mpr nofun⟩

/-- Groups of lines, one after the other. -/
theorem placed_flatMap {α : Type} {f : α → List Line} {p : α → Bool} {as : List α}
    (h : ∀ a ∈ as, Placed (p a) (f a)) : Placed (as.all p) (as.flatMap f) := by
  induction as with
  | nil => exact .nil
  | cons a rest ih =>
    rw [List.all_cons, List.flatMap_cons]
    exact (h a List.mem_cons_self).append (ih fun b hb => h b (List.mem_cons_of_mem _ hb))

/-- Lines that open no blocks, all of them at the margin. -/
theorem body_map {α : Type} {f : α → String} {a : α} {rest : List α}
    (h : ∀ b ∈ a :: rest, Plain (f b)) : Body true ((a :: rest).map fun b => .at0 (f b)) :=
  .plain (h a List.mem_cons_self) fun l hl => by
    obtain ⟨b, hb, rfl⟩ := List.mem_map.mp hl
    exact h b (List.mem_cons_of_mem _ hb)

end Lines

/-! ## Statements -/

namespace Stmt

open Widgetry.Expr

mutual

/-- Whether every choice in a statement has an arm. -/
def armed : Stmt → Bool
  | choose _ arms _ => !arms.isEmpty && armsArmed arms
  | each _ _ body _ => bodyArmed body
  | expr .. | bind .. | assign .. | fn _ | type _ => true

def bodyArmed : List Stmt → Bool
  | [] => true
  | s :: rest => s.armed && bodyArmed rest

def armsArmed : List Arm → Bool
  | [] => true
  | ⟨_, body, _⟩ :: rest => bodyArmed body && armsArmed rest

end

variable {g : Naming}

/-- A header with an expression in it. -/
theorem header_around {before : String} (hbefore : Leads before) (s : String) :
    Header (before ++ s ++ ":") :=
  (hbefore.append s).header rfl

theorem case_header (s : String) : Header ("case " ++ s ++ ":") := header_around (leads_fixed rfl) s

/-- Arms have lines of code. -/
theorem armLines_ne_nil {locals : List String} (a : Arm) (rest : List Arm) :
    (armLines g locals (a :: rest)).filter Line.isCode ≠ [] := by
  have hcase (s : String) := begins_isCode (header_begins (case_header s))
  have hcode (s : String) (ls : List Line) :
      (.at0 ("case " ++ s ++ ":") :: ls).filter Line.isCode ≠ [] := by
    rw [List.filter_cons_of_pos (hcase s)]
    exact List.cons_ne_nil _ _
  obtain ⟨pattern, body, line⟩ := a
  exact hcode _ _

theorem unsupported_plain {what : String} (hwhat : Ends what) : Plain (unsupported what).text :=
  Begins.plain ((first_fixed rfl).append what) (hwhat.behind _)

/-- An expression is no header, -/
theorem expr_plain (hg : Named g.messages) {e : Expr} (he : e.Worded) (locals : List String) :
    Plain (e.source g locals) := by
  have hsource := source_edges locals hg e he
  exact hsource.1.plain hsource.2

/-- nor is a binding, -/
theorem bind_plain (hg : Named g.messages) {name : String} (hname : IsWord name) {value : Expr}
    (hvalue : value.Worded) (locals : List String) :
    Plain (name ++ " = " ++ value.source g locals) :=
  Begins.plain (((word_edges hname).1.append _).append _)
    ((source_edges locals hg value hvalue).2.behind _)

/-- nor an assignment. -/
theorem assign_plain (hg : Named g.messages) {target value : Expr} (htarget : target.Worded)
    (hvalue : value.Worded) (op : AssignOp) (locals : List String) :
    Plain (target.source g locals ++ " " ++ op.symbol ++ " " ++ value.source g locals) := by
  have hleft := source_edges locals hg target htarget
  have hfront := (((hleft.1.append " ").append op.symbol).append " ").append
    (value.source g locals)
  exact Begins.plain hfront ((source_edges locals hg value hvalue).2.behind _)

mutual

/-- **The blocks of a statement have lines exactly if every choice in it has an arm.** -/
theorem lines_body (hg : Named g.messages) : ∀ (s : Stmt) (locals : List String), s.Worded →
    Body s.armed (s.lines g locals)
  | expr e _, locals, h => by
    cases h with
    | expr he => exact .line (expr_plain hg he locals)
  | bind name value _ _ _, locals, h => by
    cases h with
    | bind hname hvalue => exact .line (bind_plain hg hname hvalue locals)
  | assign target op value _, locals, h => by
    cases h with
    | assign htarget hvalue => exact .line (assign_plain hg htarget hvalue op locals)
  | choose subject arms _, locals, h => by
    cases h with
    | choose hsubject hpatterns hbodies =>
      have hhead := header_around (leads_fixed rfl : Leads "match ") (subject.source g locals)
      -- unlike an empty body, a choice without arms gets no line
      cases arms with
      | nil => exact .bare hhead
      | cons a rest =>
        have harms : Body _ _ :=
          ⟨armLines_placed hg (a :: rest) locals hbodies, armLines_ne_nil a rest⟩
        exact harms.below hhead
  | each name items body _, locals, h => by
    cases h with
    | each hname hitems hbody =>
      have hfor : Leads ("for " ++ name ++ " in ") := ((leads_fixed rfl).append _).append _
      exact (blockLines_body hg body _ hbody).below (header_around hfor _)
  | fn _, locals, h => .line (unsupported_plain rfl)
  | type _, locals, h => .line (unsupported_plain rfl)

theorem blockLines_body (hg : Named g.messages) : ∀ (ss : List Stmt) (locals : List String),
    WordedBody ss → Body (bodyArmed ss) (blockLines g locals ss)
  | [], _, _ => .line ⟨rfl, rfl⟩
  | s :: rest, locals, h =>
    (lines_body hg s locals (h s List.mem_cons_self)).append
      (restLines_placed hg rest _ fun s hs => h s (List.mem_cons_of_mem _ hs))

theorem restLines_placed (hg : Named g.messages) : ∀ (ss : List Stmt) (locals : List String),
    WordedBody ss → Placed (bodyArmed ss) (restLines g locals ss)
  | [], _, _ => .nil
  | s :: rest, locals, h =>
    (lines_body hg s locals (h s List.mem_cons_self)).toPlaced.append
      (restLines_placed hg rest _ fun s hs => h s (List.mem_cons_of_mem _ hs))

theorem armLines_placed (hg : Named g.messages) : ∀ (arms : List Arm) (locals : List String),
    (∀ a ∈ arms, ∀ s ∈ a.body, s.Worded) → Placed (armsArmed arms) (armLines g locals arms)
  | [], _, _ => .nil
  | ⟨pattern, body, _⟩ :: rest, locals, h => by
    have hbody := blockLines_body hg body locals (h _ List.mem_cons_self)
    have hrest := armLines_placed hg rest locals fun a ha => h a (List.mem_cons_of_mem _ ha)
    exact (hbody.below (case_header _)).toPlaced.append hrest

end

end Stmt

/-! ## Views -/

/-- Whether a text begins as code, and not like the word of a header. -/
abbrev Starts : String → Prop := First (!" #cdmf".toList.contains ·)

theorem Starts.plain (h : Starts s) : Plain s := by
  obtain ⟨c, hc, hfirst⟩ := (Option.any_eq_true _ _).mp h
  rw [Bool.not_eq_true', ← Bool.not_eq_true, List.contains_iff_mem] at hfirst
  have hne : ∀ d ∈ " #cdmf".toList, c ≠ d := by
    rintro d hd rfl
    exact hfirst hd
  constructor
  · exact (Option.any_eq_true _ _).mpr ⟨c, hc, by
      simp [hne ' ' (by decide), hne '#' (by decide)]⟩
  · have hall : Line.headerWords.all (fun w => w.head?.any " #cdmf".toList.contains) = true := by
      decide +kernel
    refine Bool.and_eq_false_iff.mpr (.inl (Bool.eq_false_iff.mpr fun hword => ?_))
    have hhead := List.all_eq_true.mp hall _ (List.contains_iff_mem.mp hword)
    rw [List.head?_takeWhile] at hhead
    obtain ⟨d, hd, hmem⟩ := (Option.any_eq_true _ _).mp hhead
    have hcd : some d = some c := (Option.filter_eq_some_iff.mp hd).1.symm.trans hc
    cases hcd
    exact hfirst (List.contains_iff_mem.mp hmem)

namespace Template

variable {g : Naming} {t : Template}

theorem textSource_starts (h : t.textSource g = .ok s) : Starts s := by
  obtain ⟨style, -, h⟩ := bind_eq_ok.mp h
  obtain ⟨main, -, h⟩ := bind_eq_ok.mp h
  cases h
  exact (((first_fixed rfl).append main).append style).append _

theorem buttonSource_starts (h : t.buttonSource g = .ok s) : Starts s := by
  have hcall : ∀ message : String, (do
      let style ← t.styleArgument g
      let main ← t.mainSource g
      return "View.button(" ++ main ++ ", " ++ message ++ style ++ ")") = .ok s → Starts s := by
    intro message h
    obtain ⟨style, -, h⟩ := bind_eq_ok.mp h
    obtain ⟨main, -, h⟩ := bind_eq_ok.mp h
    cases h
    exact (((((first_fixed rfl).append main).append _).append message).append style).append _
  unfold buttonSource at h
  split at h
  · obtain ⟨message, -, h⟩ := bind_eq_ok.mp h
    exact hcall message h
  · exact hcall "None" h

theorem inputSource_starts (h : t.inputSource g = .ok s) : Starts s := by
  obtain ⟨settings, -, h⟩ := bind_eq_ok.mp h
  obtain ⟨message, -, h⟩ := bind_eq_ok.mp h
  obtain ⟨style, -, h⟩ := bind_eq_ok.mp h
  obtain ⟨main, -, h⟩ := bind_eq_ok.mp h
  cases h
  exact (((((((first_fixed rfl).append main).append _).append settings).append message).append
    _).append style).append _

theorem choiceSource_starts {call state prop method : String} (hcall : Starts call)
    (h : t.choiceSource g call state prop method = .ok s) : Starts s := by
  obtain ⟨on, -, h⟩ := bind_eq_ok.mp h
  obtain ⟨main, -, h⟩ := bind_eq_ok.mp h
  obtain ⟨style, -, h⟩ := bind_eq_ok.mp h
  obtain ⟨message, -, h⟩ := bind_eq_ok.mp h
  cases h
  exact (((((((hcall.append _).append on).append _).append main).append _).append style).append
    message)

theorem selectSource_starts (h : t.selectSource g = .ok s) : Starts s := by
  obtain ⟨options, -, h⟩ := bind_eq_ok.mp h
  obtain ⟨settings, -, h⟩ := bind_eq_ok.mp h
  obtain ⟨message, -, h⟩ := bind_eq_ok.mp h
  cases h
  exact ((((first_fixed rfl).append options).append _).append settings).append message

/-- Whether lines build a view: the first of them is at the margin, and all start as code. -/
structure Builds (ls : List Line) : Prop where
  first : ∃ s rest, ls = .at0 s :: rest
  starts : ∀ l ∈ ls, Starts l.text

theorem Builds.line (h : Starts s) : Builds [.at0 s] :=
  ⟨⟨_, _, rfl⟩, List.forall_mem_singleton.mpr h⟩

/-- Lines between two others, further in. -/
theorem Builds.around {first last : String} {ls : List Line} (hfirst : Starts first)
    (hls : ∀ l ∈ ls, Starts l.text) (hlast : Starts last) :
    Builds (.at0 first :: Line.indented ls ++ [.at0 last]) := by
  refine ⟨⟨_, _, rfl⟩, List.forall_mem_append.mpr
    ⟨List.forall_mem_cons.mpr ⟨hfirst, fun l hl => ?_⟩, List.forall_mem_singleton.mpr hlast⟩⟩
  obtain ⟨m, hm, rfl⟩ := List.mem_map.mp hl
  exact hls m hm

/-- An element on a line of its own. -/
theorem Builds.element {before after : String} {ls : List Line}
    {source : Except GenerationFault String} (hbefore : ∀ s, Starts s → Starts (before ++ s))
    (hsource : ∀ s, source = .ok s → Starts s)
    (h : (do
      let s ← source
      return [Line.at0 (before ++ s ++ after)]) = .ok ls) : Builds ls := by
  obtain ⟨s, hs, h⟩ := bind_eq_ok.mp h
  cases h
  exact .line ((hbefore s (hsource s hs)).append after)

theorem starts_behind_nothing (s : String) (h : Starts s) : Starts ("" ++ s) := by
  rwa [String.empty_append]

mutual

/-- Every line that builds a view starts as code. -/
theorem lines_builds : ∀ (t : Template) {before after : String} {ls : List Line},
    (∀ s, Starts s → Starts (before ++ s)) → t.lines g before after = .ok ls → Builds ls
  | mk kind args props children, before, after, ls, hbefore, h => by
    -- nothing but its first characters matters of any line, so all that is read off `t` is skipped
    have hfixed {s : String} (hs : s.toList.head?.any (!" #cdmf".toList.contains ·) = true) :=
      hbefore s hs
    rw [lines] at h
    cases hkind : Element.ofKind? kind with
    | none =>
      rw [hkind] at h
      obtain ⟨text, -, h⟩ := bind_eq_ok.mp h
      cases h
      exact .line ((((hfixed rfl).append after).append _).append text)
    | some e =>
      rw [hkind] at h
      cases e with
      | text => exact .element hbefore (fun _ => textSource_starts) h
      | button => exact .element hbefore (fun _ => buttonSource_starts) h
      | input => exact .element hbefore (fun _ => inputSource_starts) h
      | checkbox => exact .element hbefore (fun _ => choiceSource_starts (first_fixed rfl)) h
      | radio => exact .element hbefore (fun _ => choiceSource_starts (first_fixed rfl)) h
      | select => exact .element hbefore (fun _ => selectSource_starts) h
      | column =>
        obtain ⟨settings, -, h⟩ := bind_eq_ok.mp h
        exact layoutLines_builds children hbefore ((first_fixed rfl).append settings) h
      | row =>
        obtain ⟨settings, -, h⟩ := bind_eq_ok.mp h
        exact layoutLines_builds children hbefore ((first_fixed rfl).append settings) h
      | center => exact singleLines_builds children hbefore (first_fixed rfl) h
      | container =>
        obtain ⟨tail, -, h⟩ := bind_eq_ok.mp h
        exact singleLines_builds children hbefore (first_fixed rfl) h
      | scrollable =>
        obtain ⟨settings, -, h⟩ := bind_eq_ok.mp h
        exact singleLines_builds children hbefore (first_fixed rfl) h
      | list =>
        obtain ⟨tail, -, h⟩ := bind_eq_ok.mp h
        cases children with
        | nil =>
          cases h
          exact .line ((((hfixed rfl).append tail).append _).append after)
        | cons c rest =>
          obtain ⟨inside, hinside, h⟩ := bind_eq_ok.mp h
          cases h
          exact .around (hfixed rfl) (eachLines_starts (c :: rest) hinside)
            ((((first_fixed rfl).append tail).append _).append after)
      | table =>
        obtain ⟨tail, -, h⟩ := bind_eq_ok.mp h
        obtain ⟨headers, hheaders, h⟩ := bind_eq_ok.mp h
        obtain ⟨rows, hrows, h⟩ := bind_eq_ok.mp h
        cases h
        have hopening : Starts "[" := rfl
        have hclosing : Starts "]," := rfl
        have hfirst := Builds.around hopening (headerLines_starts children hheaders) hclosing
        have hsecond := Builds.around hopening (rowLines_starts children hrows) hclosing
        have hlast : Starts (")" ++ tail ++ ".build()" ++ after) :=
          (((first_fixed rfl).append tail).append _).append after
        have hall := Builds.around (hfixed (s := "View.table(") rfl)
          (List.forall_mem_append.mpr ⟨hfirst.starts, hsecond.starts⟩) hlast
        simpa using hall

theorem layoutLines_builds : ∀ (children : List Template) {before after head : String}
    {ls : List Line}, (∀ s, Starts s → Starts (before ++ s)) → Starts head →
    layoutLines g before after head children = .ok ls → Builds ls
  | [], before, after, head, ls, hbefore, hhead, h => by
    cases h
    exact .line (((hbefore head hhead).append _).append after)
  | t :: rest, before, after, head, ls, hbefore, hhead, h => by
    obtain ⟨first, hfirst, h⟩ := bind_eq_ok.mp h
    obtain ⟨others, hothers, h⟩ := bind_eq_ok.mp h
    cases h
    have ht := lines_builds t starts_behind_nothing hfirst
    exact .around ((hbefore head hhead).append _)
      (List.forall_mem_append.mpr ⟨ht.starts, eachLines_starts rest hothers⟩)
      ((first_fixed rfl).append after)

theorem singleLines_builds : ∀ (children : List Template) {before after call tail : String}
    {ls : List Line}, (∀ s, Starts s → Starts (before ++ s)) → Starts call →
    singleLines g before after call tail children = .ok ls → Builds ls
  | [], before, after, call, tail, ls, hbefore, hcall, h => by
    cases h
    exact .line ((((hbefore call hcall).append _).append tail).append after)
  | t :: _, before, after, call, tail, ls, hbefore, hcall, h => by
    obtain ⟨inside, hinside, h⟩ := bind_eq_ok.mp h
    cases h
    have ht := lines_builds t starts_behind_nothing hinside
    exact .around ((hbefore call hcall).append _) ht.starts
      (((first_fixed rfl).append tail).append after)

theorem eachLines_starts : ∀ (ts : List Template) {ls : List Line}, eachLines g ts = .ok ls →
    ∀ l ∈ ls, Starts l.text
  | [], ls, h => by
    cases h
    exact nofun
  | t :: rest, ls, h => by
    obtain ⟨first, hfirst, h⟩ := bind_eq_ok.mp h
    obtain ⟨others, hothers, h⟩ := bind_eq_ok.mp h
    cases h
    exact List.forall_mem_append.mpr
      ⟨(lines_builds t starts_behind_nothing hfirst).starts, eachLines_starts rest hothers⟩

theorem headerLines_starts : ∀ (ts : List Template) {ls : List Line}, headerLines g ts = .ok ls →
    ∀ l ∈ ls, Starts l.text
  | [], ls, h => by
    cases h
    exact nofun
  | mk kind args props children :: rest, ls, h => by
    have hrest : ∀ ls, headerLines g rest = .ok ls → ∀ l ∈ ls, Starts l.text :=
      fun ls => headerLines_starts rest
    by_cases hkind : kind.same (.str "header")
    · cases children with
      | nil =>
        rw [headerLines, if_pos hkind] at h
        obtain ⟨source, hsource, h⟩ := bind_eq_ok.mp h
        obtain ⟨first, hfirst, h⟩ := bind_eq_ok.mp h
        obtain ⟨others, hothers, h⟩ := bind_eq_ok.mp h
        cases hfirst
        cases h
        exact List.forall_mem_append.mpr ⟨List.forall_mem_singleton.mpr
          ((textSource_starts hsource).append _), hrest others hothers⟩
      | cons c cs =>
        rw [headerLines, if_pos hkind] at h
        obtain ⟨first, hfirst, h⟩ := bind_eq_ok.mp h
        obtain ⟨others, hothers, h⟩ := bind_eq_ok.mp h
        cases h
        exact List.forall_mem_append.mpr
          ⟨(lines_builds c starts_behind_nothing hfirst).starts, hrest others hothers⟩
    · rw [headerLines, if_neg hkind] at h
      exact hrest ls h

theorem rowLines_starts : ∀ (ts : List Template) {ls : List Line}, rowLines g ts = .ok ls →
    ∀ l ∈ ls, Starts l.text
  | [], ls, h => by
    cases h
    exact nofun
  | mk kind args props children :: rest, ls, h => by
    have hrest : ∀ ls, rowLines g rest = .ok ls → ∀ l ∈ ls, Starts l.text :=
      fun ls => rowLines_starts rest
    rw [rowLines] at h
    by_cases hkind : kind.same (.str "row")
    · rw [if_pos hkind] at h
      obtain ⟨inside, hinside, h⟩ := bind_eq_ok.mp h
      obtain ⟨others, hothers, h⟩ := bind_eq_ok.mp h
      cases h
      have hopening : Starts "[" := rfl
      have hclosing : Starts "]," := rfl
      have hrow := Builds.around hopening (eachLines_starts children hinside) hclosing
      have hall := List.forall_mem_append.mpr ⟨hrow.starts, hrest others hothers⟩
      simpa using hall
    · rw [if_neg hkind] at h
      exact hrest ls h

end

/-- **No line that builds a view opens a block**, with a word before the first line or without. -/
theorem lines_body {before after : String} {ls : List Line}
    (hbefore : ∀ s, Starts s → Starts (before ++ s)) (h : t.lines g before after = .ok ls) :
    Body true ls := by
  obtain ⟨⟨s, rest, rfl⟩, hstarts⟩ := lines_builds t hbefore h
  obtain ⟨hs, hrest⟩ := List.forall_mem_cons.mp hstarts
  exact .plain hs.plain fun l hl => (hrest l hl).plain

end Template

end Widgetry
