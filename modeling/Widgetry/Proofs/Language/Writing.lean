import Widgetry.Proofs.Language.Lexemes
import Widgetry.Proofs.Language.Printing
import Widgetry.Proofs.Language.Words
import Widgetry.Proofs.Text.Tables

/-!
# Lexemes with gaps between them

Any sequence of lexemes can be written down so that it is read back: each lexeme as it is, a text
between quotes with its special characters escaped, and between two of them trivia that begins with
a blank. The blank keeps a lexeme from going on: no word, number or operator has a blank in it, and
neither has the beginning of a comment.

> `tokenize_written`: the lexer reads such a text as the lexemes that were written.
-/

namespace Widgetry

namespace Lexer

/-! ## Quoted texts -/

/-- The character that stands behind a backslash for a special character. -/
def escapeOf? (c : Char) : Option Char := (escapes.find? (·.2 == c)).map (·.1)

/-- How a character is written between quotes. -/
def spellChar (c : Char) : List Char :=
  match escapeOf? c with
  | some e => ['\\', e]
  | none => [c]

def spellText (cs : List Char) : List Char := cs.flatMap spellChar

theorem lookup_escapeOf? {c e : Char} (h : escapeOf? c = some e) : escapes.lookup e = some c := by
  have hall : ∀ p ∈ escapes, (escapes.lookup p.1 == some p.2) = true :=
    List.all_eq_true.mp (by decide)
  obtain ⟨p, hp, rfl⟩ := Option.map_eq_some_iff.mp h
  have hc : p.2 = c := beq_iff_eq.mp (List.find?_some (p := fun p : Char × Char => p.2 == c) hp)
  rw [eq_of_beq (hall p (List.mem_of_find?_eq_some hp)), hc]

/-- What has no escape can stand between quotes as it is. -/
theorem plain_of_escapeOf? {c : Char} (h : escapeOf? c = none) :
    c ≠ '\n' ∧ c ≠ '\\' ∧ isQuote c = false := by
  have hspecial : ∀ d ∈ ['\n', '\\', '"', '\''], (escapeOf? d).isSome = true :=
    List.all_eq_true.mp (by decide)
  have hne : c ∉ ['\n', '\\', '"', '\''] := by
    intro hc
    have hsome := hspecial c hc
    rw [h] at hsome
    cases hsome
  simp only [List.mem_cons, List.not_mem_nil, or_false, not_or] at hne
  refine ⟨hne.1, hne.2.1, Bool.eq_false_iff.mpr fun hq => ?_⟩
  exact (isQuote_iff.mp hq).elim hne.2.2.1 hne.2.2.2

/-- A text that is written with escapes is spelled, between quotes of either kind. -/
theorem spells_spellText {quote : Char} (hq : isQuote quote = true) (cs : List Char) :
    Spells quote (spellText cs) cs := by
  induction cs with
  | nil => exact .nil
  | cons c cs ih =>
    rw [spellText, List.flatMap_cons, spellChar]
    cases he : escapeOf? c with
    | some e => exact .escape (lookup_escapeOf? he) ih
    | none =>
      obtain ⟨hbreak, hslash, hquote⟩ := plain_of_escapeOf? he
      refine .plain hbreak ?_ hslash ih
      rintro rfl
      rw [hq] at hquote
      cases hquote

/-! ## Where a lexeme ends -/

/-- Whether a text begins with a blank, if it has not ended. -/
def Breaks (rest : List Char) : Prop := ∀ c ∈ rest.head?, isBlank c = true

/-- What has no blank in it does not reach over a break. -/
theorem prefix_of_breaks {other lexeme rest : List Char} (hother : ∀ c ∈ other, isBlank c = false)
    (hrest : Breaks rest) (h : other <+: lexeme ++ rest) : other <+: lexeme := by
  rcases List.prefix_or_prefix_of_prefix h (List.prefix_append lexeme rest) with hpre | ⟨more, rfl⟩
  · exact hpre
  · cases more with
    | nil => simp
    | cons c more =>
      rw [List.prefix_append_right_inj] at h
      obtain ⟨behind, rfl⟩ := h
      have hblank := hrest c rfl
      rw [hother c (by simp)] at hblank
      cases hblank

/-- So the longest lexeme of a class is what stands before the break. -/
theorem longest_of_breaks {P : List Char → Prop} {lexeme rest : List Char} (hmem : P lexeme)
    (hP : ∀ other, P other → ∀ c ∈ other, isBlank c = false) (hrest : Breaks rest) :
    Longest P lexeme rest where
  mem := hmem
  le other hother hpre := (prefix_of_breaks (hP other hother) hrest hpre).length_le

theorem isBlank_iff {c : Char} : isBlank c = true ↔ c ∈ [' ', '\t', '\r', '\n'] := by
  simp [isBlank, or_assoc]

/-- No blank can stand in a word or in a number. -/
theorem not_blank {c : Char} (h : continuesWord c = true ∨ continuesNumber c = true ∨ c = '.') :
    isBlank c = false := by
  have hall : ∀ b ∈ [' ', '\t', '\r', '\n'],
      (!(continuesWord b || continuesNumber b || b == '.')) = true :=
    List.all_eq_true.mp (by decide +kernel)
  refine Bool.eq_false_iff.mpr fun hb => absurd h ?_
  simpa [and_assoc] using hall c (isBlank_iff.mp hb)

theorem WordLike.not_blank {cs : List Char} (h : WordLike cs) : ∀ c ∈ cs, isBlank c = false := by
  obtain ⟨c, more, rfl, hc, hmore⟩ := h
  intro d hd
  rcases List.mem_cons.mp hd with rfl | hd
  · exact Lexer.not_blank (.inl (continues_of_starts hc))
  · exact Lexer.not_blank (.inl (hmore d hd))

theorem WholeLike.not_blank {cs : List Char} (h : WholeLike cs) : ∀ c ∈ cs, isBlank c = false := by
  obtain ⟨c, more, rfl, hc, hmore⟩ := h
  intro d hd
  rcases List.mem_cons.mp hd with rfl | hd
  · exact Lexer.not_blank (.inr (.inl (by rw [continuesNumber, hc, Bool.true_or])))
  · exact Lexer.not_blank (.inr (.inl (hmore d hd)))

theorem NumberLike.not_blank {cs : List Char} (h : NumberLike cs) :
    ∀ c ∈ cs, isBlank c = false := by
  obtain h | ⟨whole, places, rfl, hwhole, hplaces⟩ := h
  · exact h.not_blank
  · intro c hc
    rcases List.mem_append.mp hc with hc | hc
    · exact hwhole.not_blank c hc
    · rcases List.mem_cons.mp hc with rfl | hc
      · exact Lexer.not_blank (.inr (.inr rfl))
      · exact hplaces.not_blank c hc

theorem OperatorLike.not_blank {cs : List Char} (h : OperatorLike cs) :
    ∀ c ∈ cs, isBlank c = false := by
  have hall : ∀ op ∈ operatorSymbols, (op.toList.all fun c => !isBlank c) = true := by decide
  have hnone := hall _ h
  rw [String.toList_ofList, List.all_eq_true] at hnone
  exact fun c hc => (Bool.not_eq_true' _).mp (hnone c hc)

/-! ## Lexemes -/

/-- Whether some characters are digits, at least one. -/
def Digits (cs : List Char) : Prop := cs ≠ [] ∧ ∀ c ∈ cs, Text.isDigit c = true

theorem Digits.wholeLike {cs : List Char} (h : Digits cs) : WholeLike cs := by
  obtain ⟨c, more, rfl⟩ := List.exists_cons_of_ne_nil h.1
  refine ⟨c, more, rfl, h.2 c List.mem_cons_self, fun d hd => ?_⟩
  rw [continuesNumber, h.2 d (List.mem_cons_of_mem c hd), Bool.true_or]

/-- Digits have no underscore among them. -/
theorem Digits.filter_eq {cs : List Char} (h : Digits cs) : cs.filter (· != '_') = cs := by
  refine List.filter_eq_self.mpr fun c hc => bne_iff_ne.mpr ?_
  rintro rfl
  exact absurd (h.2 _ hc) (by decide +kernel)

/-- Keywords are written like other words. -/
theorem wordLike_of_keyword {w : String} (hw : w ∈ keywords) : WordLike w.toList := by
  have hall : keywords.all (fun w =>
      w.toList.head?.any startsWord && w.toList.tail.all continuesWord) = true := by
    decide +kernel
  have hlike := List.all_eq_true.mp hall w hw
  rw [Bool.and_eq_true] at hlike
  cases hcs : w.toList with
  | nil =>
    rw [hcs] at hlike
    cases hlike.1
  | cons c more =>
    rw [hcs] at hlike
    exact ⟨c, more, rfl, hlike.1, List.all_eq_true.mp hlike.2⟩

/-- A digit begins no word. -/
theorem startsWord_of_isDigit {c : Char} (h : Text.isDigit c = true) : startsWord c = false := by
  have hne : c ≠ '_' := by
    rintro rfl
    exact absurd h (by decide +kernel)
  rw [startsWord, Text.isLetter_of_isDigit h, Bool.false_or, beq_eq_false_iff_ne]
  exact hne

/-- Words, numbers and quoted texts begin with no blank and no comment. -/
theorem solid_of_first {c : Char} (more : List Char)
    (h : startsWord c = true ∨ Text.isDigit c = true ∨ isQuote c = true) : Solid (c :: more) := by
  have hnone : ∀ b ∈ [' ', '\t', '\r', '\n', '/'],
      (!(startsWord b || Text.isDigit b || isQuote b)) = true :=
    List.all_eq_true.mp (by decide +kernel)
  have hall : ∀ b ∈ [' ', '\t', '\r', '\n', '/'],
      ¬ (startsWord b = true ∨ Text.isDigit b = true ∨ isQuote b = true) :=
    fun b hb => by simpa [and_assoc] using hnone b hb
  have hslash : '/' ≠ c := by
    rintro rfl
    exact hall _ (by decide) h
  refine ⟨fun d hd => ?_, fun hpre => ?_, fun hpre => ?_⟩
  · cases hd
    refine Bool.eq_false_iff.mpr fun hb => hall c ?_ h
    exact List.mem_append_left ['/'] (isBlank_iff.mp hb)
  · exact hslash (List.cons_prefix_cons.mp hpre).1
  · exact hslash (List.cons_prefix_cons.mp hpre).1

theorem WordLike.solid {cs : List Char} (h : WordLike cs) : Solid cs := by
  obtain ⟨c, more, rfl, hc, -⟩ := h
  exact solid_of_first more (.inl hc)

theorem NumberLike.solid {cs : List Char} (h : NumberLike cs) : Solid cs := by
  obtain ⟨c, more, rfl, hc⟩ := isDigit_of_number h
  exact solid_of_first more (.inr (.inl hc))

/-- No word begins where a number begins. -/
theorem startsWord_of_number {cs rest : List Char} (h : NumberLike cs) :
    ∀ c ∈ (cs ++ rest).head?, startsWord c = false := by
  obtain ⟨c, more, rfl, hc⟩ := isDigit_of_number h
  intro d hd
  cases hd
  exact startsWord_of_isDigit hc

theorem solid_of_operator {op : String} (hop : op ∈ operatorSymbols) : Solid op.toList := by
  have hall : ∀ op ∈ operatorSymbols, ¬ ['/', '/'] <+: op.toList ∧ ¬ ['/', '*'] <+: op.toList := by
    decide
  obtain ⟨hline, hblock⟩ := hall op hop
  have hlike : OperatorLike op.toList := by rwa [OperatorLike, String.ofList_toList]
  exact ⟨fun c hc => hlike.not_blank c (List.mem_of_mem_head? hc), hline, hblock⟩

/-- A break adds no beginning of a comment. -/
theorem Solid.append {cs rest : List Char} (h : Solid cs) (hne : cs ≠ []) (hrest : Breaks rest) :
    Solid (cs ++ rest) := by
  have hmark : ∀ d, isBlank d = false → ∀ c ∈ ['/', d], isBlank c = false :=
    fun d hd => List.forall_mem_cons.mpr ⟨rfl, List.forall_mem_singleton.mpr hd⟩
  refine ⟨fun c hc => ?_, fun hpre => ?_, fun hpre => ?_⟩
  · rw [List.head?_append_of_ne_nil cs hne] at hc
    exact h.blank c hc
  · exact h.line (prefix_of_breaks (hmark '/' rfl) hrest hpre)
  · exact h.block (prefix_of_breaks (hmark '*' rfl) hrest hpre)

end Lexer

open Lexer

/-- Whether a lexeme is one that a text can have: a keyword or another word, digits with or without
a point among them, an operator, or a quoted text. -/
inductive Lexeme.Proper : Lexeme → Prop where
  | word {w : String} : w ∈ keywords → Proper (.word w)
  | name {n : String} : WordLike n.toList → n ∉ keywords → Proper (.name n)
  | int {digits : List Char} : Digits digits → Proper ⟨.int, String.ofList digits⟩
  | float {whole places : List Char} : Digits whole → Digits places →
      Proper ⟨.float, String.ofList (whole ++ '.' :: places)⟩
  | op {symbol : String} : symbol ∈ operatorSymbols → Proper (.op symbol)
  | quoted (s : String) : Proper (.quoted s)

/-- How a lexeme is written, if quoted texts have a quote of a kind around them. -/
def Lexeme.spelling (quote : Char) (l : Lexeme) : List Char :=
  if l.kind = .str then quote :: (spellText l.text.toList ++ [quote]) else l.text.toList

theorem Lexeme.spelling_of_ne_str {kind : TokenKind} (h : kind ≠ .str) (cs : List Char)
    (quote : Char) : Lexeme.spelling quote ⟨kind, String.ofList cs⟩ = cs := by
  rw [spelling, if_neg h, String.toList_ofList]

namespace Lexeme.Proper

variable {l : Lexeme} {quote : Char} {rest : List Char}

/-- A proper lexeme in front of a break is read as what it is. -/
theorem denotes (h : l.Proper) (hq : isQuote quote = true) (hrest : Breaks rest) :
    Denotes l.kind l.text.toList (l.spelling quote) rest := by
  cases h with
  | @word w hw =>
    exact .keyword (longest_of_breaks (wordLike_of_keyword hw) (fun _ => WordLike.not_blank) hrest)
      (by rwa [String.ofList_toList])
  | @name n hlike hn =>
    exact .ident (longest_of_breaks hlike (fun _ => WordLike.not_blank) hrest)
      (by rwa [String.ofList_toList])
  | @int digits hdigits =>
    have hread : Denotes .int (digits.filter (· != '_')) digits rest :=
      .int (startsWord_of_number (.inl hdigits.wholeLike))
        (longest_of_breaks (.inl hdigits.wholeLike) (fun _ => NumberLike.not_blank) hrest)
        hdigits.wholeLike
    rw [hdigits.filter_eq] at hread
    rw [spelling_of_ne_str (by decide), String.toList_ofList]
    exact hread
  | @float whole places hwhole hplaces =>
    have hlike : FractionLike (whole ++ '.' :: places) :=
      ⟨whole, places, rfl, hwhole.wholeLike, hplaces.wholeLike⟩
    have hread : Denotes .float ((whole ++ '.' :: places).filter (· != '_'))
        (whole ++ '.' :: places) rest :=
      .float (startsWord_of_number (.inr hlike))
        (longest_of_breaks (.inr hlike) (fun _ => NumberLike.not_blank) hrest) hlike
    rw [List.filter_append, List.filter_cons_of_pos (by decide), hwhole.filter_eq,
      hplaces.filter_eq] at hread
    rw [spelling_of_ne_str (by decide), String.toList_ofList]
    exact hread
  | @op symbol hop =>
    exact .op (longest_of_breaks (by rwa [OperatorLike, String.ofList_toList])
      (fun _ => OperatorLike.not_blank) hrest)
  | quoted s => exact .str hq (spells_spellText hq s.toList)

/-- It begins with no blank and no comment. -/
theorem solid (h : l.Proper) (hq : isQuote quote = true) : Solid (l.spelling quote) := by
  cases h with
  | word hw => exact WordLike.solid (wordLike_of_keyword hw)
  | name hlike hn => exact WordLike.solid hlike
  | @int digits hdigits =>
    rw [spelling_of_ne_str (by decide)]
    exact NumberLike.solid (.inl hdigits.wholeLike)
  | @float whole places hwhole hplaces =>
    rw [spelling_of_ne_str (by decide)]
    exact NumberLike.solid (.inr ⟨whole, places, rfl, hwhole.wholeLike, hplaces.wholeLike⟩)
  | op hop => exact solid_of_operator hop
  | quoted s => exact solid_of_first _ (.inr (.inr hq))

end Lexeme.Proper

/-! ## Sequences -/

/-- Whether a gap parts a lexeme from what follows: it begins with a blank, or the text ends. -/
def Parts (gap rest : List Char) : Prop :=
  (∃ c more, gap = c :: more ∧ isBlank c = true) ∨ gap = [] ∧ rest = []

theorem Parts.breaks {gap rest : List Char} (h : Parts gap rest) : Breaks (gap ++ rest) := by
  rcases h with ⟨c, more, rfl, hc⟩ | ⟨rfl, rfl⟩
  · intro d hd
    cases hd
    exact hc
  · exact fun d hd => nomatch hd

/-- Whether a text is some lexemes one after the other, each with a gap of trivia behind it. -/
inductive Lexer.Written : List Lexeme → List Char → Prop where
  | nil : Written [] []
  | cons {l : Lexeme} {ls : List Lexeme} {quote : Char} {gap rest : List Char} :
      l.Proper → isQuote quote = true → Parts gap rest → Trivia gap rest → Written ls rest →
      Written (l :: ls) (l.spelling quote ++ (gap ++ rest))

/-- What is written is read, from any place on. -/
theorem Lexer.Written.tokens {ls : List Lexeme} {text : List Char} (h : Written ls text) :
    ∀ {lead : List Char} (p : Position), Trivia lead text →
      ∃ ts, Lexer.tokens (lead ++ text) p = .ok ts ∧ ts.map Token.lexeme = ls ++ [⟨.eof, ""⟩] := by
  induction h with
  | nil =>
    intro lead p hlead
    rw [List.append_nil, tokens_trivia hlead]
    exact ⟨_, rfl, rfl⟩
  | @cons l ls quote gap rest hl hq hgap htrivia _ ih =>
    intro lead p hlead
    have hread := hl.denotes hq hgap.breaks
    have hsolid := (hl.solid hq).append hread.ne_nil hgap.breaks
    obtain ⟨ts, hts, hmap⟩ := ih (p.after (lead ++ l.spelling quote)) htrivia
    rw [tokens_lexeme hlead hsolid hread, hts]
    refine ⟨_, rfl, ?_⟩
    rw [List.map_cons, hmap, Token.lexeme, String.ofList_toList]
    rfl

/-- **Lexemes that are written with gaps between them are read back**: the lexer answers tokens of
the same kinds that stand for the same, and the end. Behind each lexeme there is trivia of any kind
that begins with a blank; behind the last one it may be missing, and in front of the first one any
trivia may stand. -/
theorem tokenize_written {ls : List Lexeme} {lead text : List Char} (hlead : Trivia lead text)
    (h : Written ls text) (file : Option String) :
    ∃ ts, tokenize (String.ofList (lead ++ text)) file = .ok ts ∧
      ts.map Token.lexeme = ls ++ [⟨.eof, ""⟩] := by
  obtain ⟨ts, hts, hmap⟩ := h.tokens .start hlead
  refine ⟨ts, ?_, hmap⟩
  rw [tokenize, String.toList_ofList, hts]
  rfl

/-- An assignment and an arrow, with a comment in a gap, and a text that has a line end. -/
theorem spaced_read : ∃ ts, tokenize "x += 1.5 // five\n=> 'a\\n'" none = .ok ts ∧
    ts.map Token.lexeme = [.name "x", .op "+=", ⟨.float, "1.5"⟩, .op "=>", .quoted "a\n",
      ⟨.eof, ""⟩] := by
  have hblank : ∀ rest, Trivia [' '] rest := fun rest => .cons (.blank rfl) .nil
  have hparts : ∀ more rest, Parts (' ' :: more) rest := fun more _ => .inl ⟨' ', more, rfl, rfl⟩
  have hcomment : Trivia " // five\n".toList "=> 'a\\n'".toList :=
    .cons (.blank rfl) (.cons (@IsTrivium.line " five".toList ('\n' :: "=> 'a\\n'".toList)
      (by decide) fun _ hc => (Option.some.inj hc).symm) (.cons (.blank rfl) .nil))
  have htext : Written [.quoted "a\n"] "'a\\n'".toList :=
    @Written.cons _ _ '\'' [] [] (.quoted _) rfl (.inr ⟨rfl, rfl⟩) .nil .nil
  have harrow : Written [.op "=>", .quoted "a\n"] "=> 'a\\n'".toList :=
    @Written.cons _ _ '"' [' '] _ (.op (by decide)) rfl (hparts _ _) (hblank _) htext
  have hone : Digits ['1'] := ⟨by decide, List.forall_mem_singleton.mpr (by decide +kernel)⟩
  have hfive : Digits ['5'] := ⟨by decide, List.forall_mem_singleton.mpr (by decide +kernel)⟩
  have hnumber : Written [⟨.float, "1.5"⟩, .op "=>", .quoted "a\n"]
      "1.5 // five\n=> 'a\\n'".toList :=
    @Written.cons _ _ '"' " // five\n".toList _ (.float hone hfive) rfl (hparts _ _)
      hcomment harrow
  have hplus : Written [.op "+=", ⟨.float, "1.5"⟩, .op "=>", .quoted "a\n"]
      "+= 1.5 // five\n=> 'a\\n'".toList :=
    @Written.cons _ _ '"' [' '] _ (.op (by decide)) rfl (hparts _ _) (hblank _) hnumber
  have hname : Written [.name "x", .op "+=", ⟨.float, "1.5"⟩, .op "=>", .quoted "a\n"]
      "x += 1.5 // five\n=> 'a\\n'".toList :=
    @Written.cons _ _ '"' [' '] _ (.name ⟨'x', [], rfl, by decide +kernel, nofun⟩ (by decide)) rfl
      (hparts _ _) (hblank _) hplus
  exact @tokenize_written _ [] _ .nil hname none

end Widgetry
