import Widgetry.Language.Lexer
import Mathlib.Data.List.Infix
import Mathlib.Data.List.TakeWhile

/-!
# The lexemes of a text

A source text is laid out in lexemes, with trivia in front of each and behind the last one. What a
lexeme is, what it stands for and where trivia end is said here without the lexer.

> `tokenize_spec`: the lexer answers the tokens of a text exactly if the text is laid out in them,
> each at its place; otherwise it halts at a place of the text, where a comment or a quoted text is
> not closed, an escape is unknown, or nothing begins.

A lexeme that can have several lengths is the longest of its class (`Longest`), so there is only one
layout. Reading goes from left to right, and the invariant is `Laid`: what lies behind is laid out
in the tokens so far, and the next character is at the place that is counted from there.
-/

namespace Widgetry

namespace Position

/-- The place behind some characters: the line ends among them are counted, and the characters
behind the last of these. -/
def behind (before : List Char) : Position :=
  ⟨1 + before.count '\n', 1 + (before.reverse.takeWhile (· != '\n')).length⟩

theorem behind_concat (before : List Char) (c : Char) :
    behind (before ++ [c]) = (behind before).advance c := by
  by_cases hc : c = '\n'
  · subst hc
    simp [behind, advance, Nat.add_assoc]
  · simp [behind, advance, hc, Nat.add_comm]

theorem after_append (p : Position) (cs ds : List Char) :
    p.after (cs ++ ds) = (p.after cs).after ds := List.foldl_append

/-- The place is kept up with character by character. -/
theorem behind_append (before cs : List Char) :
    behind (before ++ cs) = (behind before).after cs := by
  induction cs generalizing before with
  | nil => rw [List.append_nil, after, List.foldl_nil]
  | cons c cs ih =>
    rw [← List.singleton_append, ← List.append_assoc, ih, behind_concat]
    rfl

end Position

namespace Lexer

/-! ## Trivia -/

/-- Whether some characters are a blank or a comment, with what follows them. A comment behind two
slashes reaches to the end of its line; one between marks ends at the first closing mark. -/
inductive IsTrivium : List Char → List Char → Prop where
  | blank {c : Char} {rest : List Char} : isBlank c = true → IsTrivium [c] rest
  | line {body rest : List Char} : '\n' ∉ body → (∀ c ∈ rest.head?, c = '\n') →
      IsTrivium ('/' :: '/' :: body) rest
  | block {body rest : List Char} : ¬ ['*', '/'] <:+: body ++ ['*'] →
      IsTrivium ('/' :: '*' :: (body ++ ['*', '/'])) rest

/-- Whether some characters are blanks and comments, with what follows them. -/
inductive Trivia : List Char → List Char → Prop where
  | nil {rest : List Char} : Trivia [] rest
  | cons {t ts rest : List Char} : IsTrivium t (ts ++ rest) → Trivia ts rest →
      Trivia (t ++ ts) rest

/-- Whether a text begins with no blank and no comment, closed or not. -/
structure Solid (cs : List Char) : Prop where
  blank : ∀ c ∈ cs.head?, isBlank c = false
  line : ¬ ['/', '/'] <+: cs
  block : ¬ ['/', '*'] <+: cs

/-! ## Lexemes -/

/-- Whether a lexeme is the longest of its class that its text begins with. -/
structure Longest (P : List Char → Prop) (lexeme rest : List Char) : Prop where
  mem : P lexeme
  le : ∀ other, P other → other <+: lexeme ++ rest → other.length ≤ lexeme.length

/-- Whether some characters are one of a first kind, and then any number of another kind. -/
def Spans (starts continues : Char → Bool) (cs : List Char) : Prop :=
  ∃ c more, cs = c :: more ∧ starts c = true ∧ ∀ d ∈ more, continues d = true

abbrev WordLike : List Char → Prop := Spans startsWord continuesWord

abbrev WholeLike : List Char → Prop := Spans Text.isDigit continuesNumber

def FractionLike (cs : List Char) : Prop :=
  ∃ whole places, cs = whole ++ '.' :: places ∧ WholeLike whole ∧ WholeLike places

abbrev NumberLike (cs : List Char) : Prop := WholeLike cs ∨ FractionLike cs

abbrev OperatorLike (cs : List Char) : Prop := String.ofList cs ∈ operatorSymbols

/-- What characters between quotes stand for. -/
inductive Spells (quote : Char) : List Char → List Char → Prop where
  | nil : Spells quote [] []
  | plain {c : Char} {body text : List Char} : c ≠ '\n' → c ≠ quote → c ≠ '\\' →
      Spells quote body text → Spells quote (c :: body) (c :: text)
  | escape {e meant : Char} {body text : List Char} : escapes.lookup e = some meant →
      Spells quote body text → Spells quote ('\\' :: e :: body) (meant :: text)

/-- Whether a lexeme is a token of a kind that stands for a text, with what follows it. -/
inductive Denotes : TokenKind → List Char → List Char → List Char → Prop where
  | keyword {lexeme rest : List Char} : Longest WordLike lexeme rest →
      String.ofList lexeme ∈ keywords → Denotes .keyword lexeme lexeme rest
  | ident {lexeme rest : List Char} : Longest WordLike lexeme rest →
      String.ofList lexeme ∉ keywords → Denotes .ident lexeme lexeme rest
  | int {lexeme rest : List Char} : (∀ c ∈ (lexeme ++ rest).head?, startsWord c = false) →
      Longest NumberLike lexeme rest → WholeLike lexeme →
      Denotes .int (lexeme.filter (· != '_')) lexeme rest
  | float {lexeme rest : List Char} : (∀ c ∈ (lexeme ++ rest).head?, startsWord c = false) →
      Longest NumberLike lexeme rest → FractionLike lexeme →
      Denotes .float (lexeme.filter (· != '_')) lexeme rest
  | str {quote : Char} {body text rest : List Char} : isQuote quote = true →
      Spells quote body text → Denotes .str text (quote :: (body ++ [quote])) rest
  | op {lexeme rest : List Char} : Longest OperatorLike lexeme rest →
      Denotes .op lexeme lexeme rest

/-! ## Layouts -/

/-- Whether the beginning of a text is laid out in tokens, with what follows it. -/
inductive Laid : List Char → List Token → List Char → Prop where
  | nil {rest : List Char} : Laid [] [] rest
  | snoc {before trivia lexeme rest text : List Char} {ts : List Token} {kind : TokenKind} :
      Laid before ts (trivia ++ (lexeme ++ rest)) → Trivia trivia (lexeme ++ rest) →
      Solid (lexeme ++ rest) → Denotes kind text lexeme rest →
      Laid (before ++ (trivia ++ lexeme))
        (ts ++ [⟨kind, String.ofList text, .behind (before ++ trivia)⟩]) rest

/-- Whether a text as a whole is laid out in tokens, the last of which is its end. -/
def Lexed (text : List Char) (ts : List Token) : Prop :=
  ∃ before trivia us, text = before ++ trivia ∧ Laid before us trivia ∧ Trivia trivia [] ∧
    ts = us ++ [⟨.eof, "", .behind text⟩]

/-- Whether a text begins with something that is no token, which is seen behind some characters. -/
inductive Stuck : List Char → List Char → Cause → Prop where
  | comment {opened : List Char} : ¬ ['*', '/'] <:+: opened →
      Stuck ('/' :: '*' :: opened) [] .openComment
  | character {c : Char} {rest : List Char} : startsWord c = false → Text.isDigit c = false →
      isQuote c = false → (∀ op ∈ operatorSymbols, ¬ op.toList <+: c :: rest) →
      Stuck (c :: rest) [] (.strangeCharacter c)
  | string {quote : Char} {body text rest : List Char} : isQuote quote = true →
      Spells quote body text → (rest = ['\\'] ∨ ∀ c ∈ rest.head?, c = '\n') →
      Stuck (quote :: (body ++ rest)) [] .openString
  | escape {quote e : Char} {body text rest : List Char} : isQuote quote = true →
      Spells quote body text → escapes.lookup e = none →
      Stuck (quote :: (body ++ '\\' :: e :: rest)) (quote :: (body ++ ['\\', e]))
        (.strangeEscape e)

/-- Whether the layout of a text comes to a halt, and what is seen behind which characters. -/
def Halts (text before : List Char) (cause : Cause) : Prop :=
  ∃ laid ts trivia rest seen, text = laid ++ (trivia ++ rest) ∧ Laid laid ts (trivia ++ rest) ∧
    Trivia trivia rest ∧ Stuck rest seen cause ∧ before = laid ++ (trivia ++ seen)

/-- What is seen first is a beginning of what is there. -/
theorem Stuck.isPrefix {rest seen : List Char} {cause : Cause} (h : Stuck rest seen cause) :
    seen <+: rest := by
  cases h with
  | comment | character | string => exact List.nil_prefix
  | @escape quote e body text rest =>
    refine ⟨rest, ?_⟩
    simp

/-- A text comes to a halt at one of its places. -/
theorem Halts.isPrefix {text before : List Char} {cause : Cause} (h : Halts text before cause) :
    before <+: text := by
  obtain ⟨laid, ts, trivia, rest, seen, rfl, -, -, hstuck, rfl⟩ := h
  rw [List.prefix_append_right_inj, List.prefix_append_right_inj]
  exact hstuck.isPrefix

/-! ## Passing over trivia -/

section Trivia

variable {t ts cs body rest opened : List Char} {p q : Position} {e : SourceError}

/-- A comment is closed by its first closing mark. -/
theorem closeComment?_eq_some {closed : List Char} (h : closeComment? cs = some (closed, rest)) :
    ∃ body, closed = body ++ ['*', '/'] ∧ cs = closed ++ rest ∧ ¬ ['*', '/'] <:+: body ++ ['*'] := by
  fun_induction closeComment? cs generalizing closed with
  | case1 r =>
    cases h
    exact ⟨[], rfl, rfl, by decide⟩
  | case2 c r hc ih =>
    obtain ⟨⟨closed', r'⟩, hr, he⟩ := Option.map_eq_some_iff.mp h
    cases he
    obtain ⟨body, rfl, rfl, hbody⟩ := ih hr
    refine ⟨c :: body, rfl, rfl, fun hin => ?_⟩
    rw [List.cons_append, List.infix_cons_iff] at hin
    obtain hpre | hin := hin
    · -- the mark would stand at the front
      rw [List.cons_prefix_cons] at hpre
      obtain ⟨rfl, hpre⟩ := hpre
      cases body with
      | nil => simp at hpre
      | cons d body =>
        rw [List.cons_append, List.cons_prefix_cons] at hpre
        obtain ⟨rfl, -⟩ := hpre
        exact hc _ rfl rfl
    · exact hbody hin
  | case3 => cases h

theorem closeComment?_append (h : ¬ ['*', '/'] <:+: body ++ ['*']) :
    closeComment? (body ++ ['*', '/'] ++ rest) = some (body ++ ['*', '/'], rest) := by
  induction body with
  | nil => rfl
  | cons c body ih =>
    rw [List.cons_append, List.infix_cons_iff, not_or] at h
    have hrest := ih h.2
    rw [List.cons_append, List.cons_append, closeComment?.eq_2, hrest]
    · rfl
    · rintro r rfl hr
      apply h.1
      rw [List.cons_prefix_cons]
      refine ⟨rfl, ?_⟩
      cases body with
      | nil => cases hr
      | cons d body =>
        cases hr
        exact ⟨body ++ ['*'], rfl⟩

theorem closeComment?_eq_none (h : closeComment? cs = none) : ¬ ['*', '/'] <:+: cs := by
  fun_induction closeComment? cs with
  | case1 => cases h
  | case2 c r hc ih =>
    rw [List.infix_cons_iff, not_or]
    refine ⟨fun hpre => ?_, ih (Option.map_eq_none_iff.mp h)⟩
    rw [List.cons_prefix_cons] at hpre
    obtain ⟨rfl, ⟨r', rfl⟩⟩ := hpre
    exact hc r' rfl rfl
  | case3 => decide

theorem skip_trivium (h : IsTrivium t rest) (p : Position) :
    skip (t ++ rest) p = skip rest (p.after t) := by
  cases h with
  | @blank c _ hc =>
    have hslash : c ≠ '/' := by
      rintro rfl
      cases hc
    rw [List.singleton_append, skip.eq_def]
    split
    · next he => exact absurd (List.cons.inj he).1 hslash
    · next he => exact absurd (List.cons.inj he).1 hslash
    · next he =>
      cases he
      rw [if_pos hc]
      rfl
    · next he => cases he
  | @line body _ hbody hend =>
    have hstop : ∀ c ∈ body, (c != '\n') = true := by
      intro c hc
      rw [bne_iff_ne]
      rintro rfl
      exact hbody hc
    have htake : (body ++ rest).takeWhile (· != '\n') = body := by
      rw [List.takeWhile_append_of_pos hstop]
      cases rest with
      | nil => simp
      | cons c rest => simp [hend c rfl]
    have hdrop : (body ++ rest).dropWhile (· != '\n') = rest := by
      rw [List.dropWhile_append_of_pos hstop]
      cases rest with
      | nil => rfl
      | cons c rest => simp [hend c rfl]
    rw [List.cons_append, List.cons_append, skip, htake, hdrop]
  | @block body _ hbody =>
    rw [List.cons_append, List.cons_append, skip.eq_2]
    split
    · next closed rest' hclosed =>
      cases (closeComment?_append hbody).symm.trans hclosed
      rfl
    · next hclosed => cases (closeComment?_append hbody).symm.trans hclosed

theorem skip_trivia (h : Trivia t rest) (p : Position) :
    skip (t ++ rest) p = skip rest (p.after t) := by
  induction h generalizing p with
  | nil => rfl
  | @cons t ts rest ht _ ih =>
    rw [List.append_assoc, skip_trivium ht, ih, Position.after_append]

theorem skip_solid (h : Solid cs) (p : Position) : skip cs p = .ok (cs, p) := by
  unfold skip
  split
  · exact absurd ⟨_, rfl⟩ h.line
  · exact absurd ⟨_, rfl⟩ h.block
  · next c rest _ _ => rw [if_neg (by rw [h.blank c rfl]; decide)]
  · rfl

theorem skip_open (h : ¬ ['*', '/'] <:+: opened) (p : Position) :
    skip ('/' :: '*' :: opened) p = .error (.parsing .openComment p) := by
  rw [skip.eq_2]
  split
  · next closed rest hclosed =>
    obtain ⟨body, rfl, rfl, -⟩ := closeComment?_eq_some hclosed
    exact absurd (List.infix_append body _ rest) h
  · rfl

/-- Every text has trivia in front, and behind these no more, or a comment that is not closed. -/
theorem exists_trivia (cs : List Char) :
    ∃ t rest, cs = t ++ rest ∧ Trivia t rest ∧
      (Solid rest ∨ ∃ opened, rest = '/' :: '*' :: opened ∧ ¬ ['*', '/'] <:+: opened) := by
  -- the induction is that of passing over them, from any place
  fun_induction skip cs .start with
  | case1 p r comment ih =>
    obtain ⟨t, rest, hr, ht, hrest⟩ := ih
    refine ⟨'/' :: '/' :: comment ++ t, rest, ?_, .cons (.line ?_ ?_) ht, hrest⟩
    · rw [List.append_assoc, ← hr, List.cons_append, List.cons_append,
        List.takeWhile_append_dropWhile]
    · intro hmem
      have hne := List.all_eq_true.mp List.all_takeWhile _ hmem
      exact absurd rfl (bne_iff_ne.mp hne)
    · intro c hc
      have hstop := List.head?_dropWhile_not (· != '\n') r
      rw [hr, hc] at hstop
      simpa using hstop
  | case2 p r closed r' hclosed ih =>
    obtain ⟨t, rest, rfl, ht, hrest⟩ := ih
    obtain ⟨body, rfl, rfl, hbody⟩ := closeComment?_eq_some hclosed
    exact ⟨'/' :: '*' :: (body ++ ['*', '/']) ++ t, rest, by simp, .cons (.block hbody) ht, hrest⟩
  | case3 p r hopen => exact ⟨[], _, rfl, .nil, .inr ⟨r, rfl, closeComment?_eq_none hopen⟩⟩
  | case4 p c r _ _ hb ih =>
    obtain ⟨t, rest, rfl, ht, hrest⟩ := ih
    exact ⟨[c] ++ t, rest, rfl, .cons (.blank hb) ht, hrest⟩
  | case5 p c r hline hblock hb =>
    refine ⟨[], _, rfl, .nil, .inl ⟨?_, ?_, ?_⟩⟩
    · intro d hd
      cases hd
      exact Bool.not_eq_true _ ▸ hb
    · rintro ⟨more, he⟩
      cases he
      exact hline more rfl rfl
    · rintro ⟨more, he⟩
      cases he
      exact hblock more rfl rfl
  | case6 p =>
    refine ⟨[], [], rfl, .nil, .inl ⟨?_, by decide, by decide⟩⟩
    intro c hc
    cases hc

end Trivia

/-! ## Longest lexemes -/

/-- Two longest lexemes of one text are the same. -/
theorem Longest.unique {P : List Char → Prop} {l r l' r' : List Char} (h : Longest P l r)
    (h' : Longest P l' r') (he : l ++ r = l' ++ r') : l = l' ∧ r = r' := by
  have hle : l'.length ≤ l.length := h.le l' h'.mem (he ▸ List.prefix_append l' r')
  have hge : l.length ≤ l'.length := h'.le l h.mem (he ▸ List.prefix_append l r)
  exact List.append_inj he (Nat.le_antisymm hge hle)

section Spans

variable {starts continues : Char → Bool} {c : Char} {cs rest other : List Char}

/-- What goes on for as long as it can. -/
theorem spans_takeWhile (hc : starts c = true) (rest : List Char) :
    Spans starts continues (c :: rest.takeWhile continues) :=
  ⟨c, _, rfl, hc, fun _ hd => List.all_eq_true.mp List.all_takeWhile _ hd⟩

theorem Spans.isPrefix (h : Spans starts continues other) (hpre : other <+: c :: rest) :
    other <+: c :: rest.takeWhile continues := by
  obtain ⟨d, more, rfl, -, hmore⟩ := h
  rw [List.cons_prefix_cons] at hpre ⊢
  obtain ⟨rfl, tail, rfl⟩ := hpre
  rw [List.takeWhile_append_of_pos hmore]
  exact ⟨rfl, List.prefix_append _ _⟩

/-- It ends where something else follows. -/
theorem Spans.split (h : Spans starts continues other) {d : Char} {more : List Char}
    (hd : continues d = false) (he : c :: rest = other ++ d :: more) :
    other = c :: rest.takeWhile continues ∧ rest.dropWhile continues = d :: more := by
  obtain ⟨c', body, rfl, -, hbody⟩ := h
  rw [List.cons_append, List.cons.injEq] at he
  obtain ⟨rfl, rfl⟩ := he
  rw [List.takeWhile_append_of_pos hbody, List.dropWhile_append_of_pos hbody,
    List.takeWhile_cons_of_neg (by rw [hd]; decide), List.append_nil,
    List.dropWhile_cons_of_neg (by rw [hd]; decide)]
  exact ⟨rfl, rfl⟩

end Spans

theorem scanWord_longest {c : Char} (hc : startsWord c = true) (rest : List Char) :
    Longest WordLike (c :: rest.takeWhile continuesWord) (rest.dropWhile continuesWord) where
  mem := spans_takeWhile hc rest
  le other hother hpre := by
    rw [List.cons_append, List.takeWhile_append_dropWhile] at hpre
    exact (hother.isPrefix hpre).length_le

/-- A number of which the digits alone are the longest. -/
theorem whole_longest {c : Char} {rest : List Char} (hc : Text.isDigit c = true)
    (hrest : ∀ d more, rest.dropWhile continuesNumber = '.' :: d :: more → Text.isDigit d = false) :
    Longest NumberLike (c :: rest.takeWhile continuesNumber) (rest.dropWhile continuesNumber) where
  mem := .inl (spans_takeWhile hc rest)
  le other hother hpre := by
    rw [List.cons_append, List.takeWhile_append_dropWhile] at hpre
    obtain hwhole | ⟨whole, places, rfl, hwhole, d, more, rfl, hd, -⟩ := hother
    · exact (hwhole.isPrefix hpre).length_le
    · -- digits behind the point would go on
      obtain ⟨behind, he⟩ := hpre
      rw [List.append_assoc] at he
      obtain ⟨-, hdrop⟩ := hwhole.split (by decide +kernel) he.symm
      rw [hrest d _ hdrop] at hd
      cases hd

theorem fraction_split {c d : Char} {rest more : List Char}
    (hrest : rest.dropWhile continuesNumber = '.' :: d :: more) :
    c :: rest.takeWhile continuesNumber ++ '.' :: d :: more.takeWhile continuesNumber ++
      more.dropWhile continuesNumber = c :: rest := by
  rw [List.append_assoc, List.cons_append, List.cons_append, List.cons_append,
    List.takeWhile_append_dropWhile, ← hrest, List.takeWhile_append_dropWhile]

/-- A number with digits behind its point. -/
theorem fraction_longest {c d : Char} {rest more : List Char} (hc : Text.isDigit c = true)
    (hd : Text.isDigit d = true) (hrest : rest.dropWhile continuesNumber = '.' :: d :: more) :
    Longest NumberLike
      (c :: rest.takeWhile continuesNumber ++ '.' :: d :: more.takeWhile continuesNumber)
      (more.dropWhile continuesNumber) where
  mem := .inr ⟨_, _, rfl, spans_takeWhile hc rest, spans_takeWhile hd more⟩
  le other hother hpre := by
    rw [fraction_split hrest] at hpre
    obtain hwhole | ⟨whole, places, rfl, hwhole, hplaces⟩ := hother
    · have hle := (hwhole.isPrefix hpre).length_le
      rw [List.length_append]
      omega
    · obtain ⟨behind, he⟩ := hpre
      rw [List.append_assoc] at he
      obtain ⟨rfl, hdrop⟩ := hwhole.split (by decide +kernel) he.symm
      obtain ⟨-, he⟩ := List.cons.inj (hrest.symm.trans hdrop)
      have hle := (hplaces.isPrefix ⟨behind, he.symm⟩).length_le
      rw [List.length_append, List.length_append, List.length_cons (a := '.'),
        List.length_cons (a := '.')]
      omega

/-- No operator in the table is shorter than one that stands behind it. -/
theorem operatorSymbols_sorted :
    operatorSymbols.Pairwise fun op op' => op'.toList.length ≤ op.toList.length := by
  decide

theorem operator_longest {op : String} {cs : List Char}
    (h : operatorSymbols.find? (fun op => op.toList.isPrefixOf cs) = some op) :
    ∃ rest, cs = op.toList ++ rest ∧ Longest OperatorLike op.toList rest := by
  obtain ⟨hop, before, later, hall, hbefore⟩ := List.find?_eq_some_iff_append.mp h
  obtain ⟨rest, rfl⟩ := List.isPrefixOf_iff_prefix.mp hop
  refine ⟨rest, rfl, ?_, fun other hother hpre => ?_⟩
  · rw [OperatorLike, String.ofList_toList]
    exact List.mem_of_find?_eq_some h
  · have hsorted := operatorSymbols_sorted
    rw [OperatorLike, hall, List.mem_append, List.mem_cons] at hother
    rw [hall, List.pairwise_append, List.pairwise_cons] at hsorted
    obtain hmem | rfl | hmem := hother
    · -- it would have been found first
      have hnot := hbefore _ hmem
      rw [String.toList_ofList, List.isPrefixOf_iff_prefix.mpr hpre] at hnot
      cases hnot
    · rw [String.toList_ofList]
    · have hle := hsorted.2.1.1 _ hmem
      rwa [String.toList_ofList] at hle

/-! ## Strings -/

section Strings

variable {quote : Char} {start p : Position} {body text rest : List Char}

theorem isQuote_iff {c : Char} : isQuote c = true ↔ c = '"' ∨ c = '\'' := by
  rw [isQuote, Bool.or_eq_true, beq_iff_eq, beq_iff_eq]

theorem ne_backslash (hq : isQuote quote = true) : '\\' ≠ quote := by
  obtain rfl | rfl := isQuote_iff.mp hq <;> decide

theorem scanBody_quote (hq : isQuote quote = true) (start p : Position) (rest : List Char) :
    scanBody quote start p (quote :: rest) = .ok ⟨[], [quote], rest⟩ := by
  have hbreak : quote ≠ '\n' := by
    obtain rfl | rfl := isQuote_iff.mp hq <;> decide
  rw [scanBody.eq_def]
  dsimp only
  rw [if_neg hbreak, if_pos rfl]

theorem scanBody_open (hq : isQuote quote = true)
    (h : rest = ['\\'] ∨ ∀ c ∈ rest.head?, c = '\n') (start p : Position) :
    scanBody quote start p rest = .error (.parsing .openString start) := by
  obtain rfl | h := h
  · rw [scanBody, if_neg (by decide), if_neg (ne_backslash hq), if_pos rfl]
  · cases rest with
    | nil => rfl
    | cons c rest =>
      rw [h c rfl, scanBody.eq_def]
      rfl

theorem scanBody_unknown (hq : isQuote quote = true) {e : Char} (he : escapes.lookup e = none)
    (start p : Position) (rest : List Char) :
    scanBody quote start p ('\\' :: e :: rest)
      = .error (.parsing (.strangeEscape e) (p.after ['\\', e])) := by
  rw [scanBody, if_neg (by decide), if_neg (ne_backslash hq), if_pos rfl, he]
  rfl

/-- What characters between quotes stand for is read one by one. -/
theorem scanBody_spelled (hq : isQuote quote = true) (h : Spells quote body text)
    (start p : Position) (cs : List Char) :
    scanBody quote start p (body ++ cs) = (scanBody quote start (p.after body) cs).map
      fun b => ⟨text ++ b.text, body ++ b.lexeme, b.rest⟩ := by
  induction h generalizing p with
  | nil =>
    rw [List.nil_append]
    show scanBody quote start p cs = Except.map id _
    rw [Except.map_id]
    rfl
  | @plain c body text hne hnq hnb _ ih =>
    rw [List.cons_append, scanBody.eq_def]
    dsimp only
    rw [if_neg hne, if_neg hnq, if_neg hnb, ih]
    show _ = Except.map _ (scanBody quote start ((p.advance c).after body) cs)
    cases scanBody quote start ((p.advance c).after body) cs <;> rfl
  | @escape e meant body text he _ ih =>
    rw [List.cons_append, List.cons_append, scanBody, if_neg (by decide),
      if_neg (ne_backslash hq), if_pos rfl, he]
    dsimp only
    rw [ih]
    show _ = Except.map _ (scanBody quote start (((p.advance '\\').advance e).after body) cs)
    cases scanBody quote start (((p.advance '\\').advance e).after body) cs <;> rfl

/-- Behind an opening quote, characters are spelled up to the closing one, or up to what cannot
stand there. -/
theorem exists_spelled (quote : Char) : ∀ cs : List Char,
    ∃ body text rest, cs = body ++ rest ∧ Spells quote body text ∧
      (rest.head? = some quote ∨ (rest = ['\\'] ∨ ∀ c ∈ rest.head?, c = '\n') ∨
        ∃ e more, rest = '\\' :: e :: more ∧ escapes.lookup e = none)
  | [] => ⟨[], [], [], rfl, .nil, .inr (.inl (.inr nofun))⟩
  | c :: cs => by
    by_cases hne : c = '\n'
    · refine ⟨[], [], _, rfl, .nil, .inr (.inl (.inr fun d hd => ?_))⟩
      exact (Option.some.inj hd).symm.trans hne
    by_cases hnq : c = quote
    · exact ⟨[], [], _, rfl, .nil, .inl (congrArg some hnq)⟩
    by_cases hnb : c = '\\'
    · subst hnb
      match cs with
      | [] => exact ⟨[], [], _, rfl, .nil, .inr (.inl (.inl rfl))⟩
      | e :: more =>
        cases he : escapes.lookup e with
        | none => exact ⟨[], [], _, rfl, .nil, .inr (.inr ⟨e, more, rfl, he⟩)⟩
        | some meant =>
          obtain ⟨body, text, rest, rfl, hbody, hrest⟩ := exists_spelled quote more
          exact ⟨'\\' :: e :: body, meant :: text, rest, rfl, .escape he hbody, hrest⟩
    · obtain ⟨body, text, rest, rfl, hbody, hrest⟩ := exists_spelled quote cs
      exact ⟨c :: body, c :: text, rest, rfl, .plain hne hnq hnb hbody, hrest⟩

end Strings

/-! ## Single tokens -/

section Tokens

variable {kind : TokenKind} {lexeme rest text : List Char} {p : Position} {c : Char}

theorem not_fraction_of_whole (h : WholeLike lexeme) : ¬ FractionLike lexeme := by
  rintro ⟨whole, places, rfl, -, -⟩
  obtain ⟨c, more, he, hc, hmore⟩ := h
  have hmem : '.' ∈ c :: more := he ▸ List.mem_append_right _ List.mem_cons_self
  have hpoint : Text.isDigit '.' = false ∧ continuesNumber '.' = false := by decide +kernel
  obtain rfl | hmem := List.mem_cons.mp hmem
  · rw [hpoint.1] at hc
    cases hc
  · have hcontinues := hmore _ hmem
    rw [hpoint.2] at hcontinues
    cases hcontinues

/-- Behind a digit comes the longest number there is. -/
theorem scanNumber_cases (hd : Text.isDigit c = true) (cs : List Char) :
    ∃ lexeme rest, c :: cs = lexeme ++ rest ∧ Longest NumberLike lexeme rest ∧
      (WholeLike lexeme ∧ scanNumber c cs = ⟨.int, lexeme.filter (· != '_'), lexeme, rest⟩ ∨
        FractionLike lexeme ∧
          scanNumber c cs = ⟨.float, lexeme.filter (· != '_'), lexeme, rest⟩) := by
  have hsplit : c :: cs = c :: cs.takeWhile continuesNumber ++ cs.dropWhile continuesNumber := by
    rw [List.cons_append, List.takeWhile_append_dropWhile]
  unfold scanNumber
  dsimp only
  split
  · next d more hdrop =>
    split
    · next hdigit =>
      exact ⟨_, _, (fraction_split hdrop).symm, fraction_longest hd hdigit hdrop,
        .inr ⟨⟨_, _, rfl, spans_takeWhile hd cs, spans_takeWhile hdigit more⟩, rfl⟩⟩
    · next hdigit =>
      refine ⟨_, _, hsplit, whole_longest hd fun d' more' he => ?_, .inl ⟨spans_takeWhile hd cs, rfl⟩⟩
      cases hdrop.symm.trans he
      exact Bool.not_eq_true _ ▸ hdigit
  · next hdrop =>
    refine ⟨_, _, hsplit, whole_longest hd fun d more he => ?_, .inl ⟨spans_takeWhile hd cs, rfl⟩⟩
    exact absurd he (hdrop d more)

/-- A text that begins with a character begins with a token, or comes to a halt. -/
theorem scan_cases (c : Char) (cs : List Char) (p : Position) :
    (∃ s, scan c cs p = .ok s ∧ c :: cs = s.lexeme ++ s.rest ∧
      Denotes s.kind s.text s.lexeme s.rest) ∨
    ∃ seen cause, Stuck (c :: cs) seen cause ∧
      scan c cs p = .error (.parsing cause (p.after seen)) := by
  unfold scan
  by_cases hword : startsWord c = true
  · left
    rw [if_pos hword]
    refine ⟨_, rfl, ?_, ?_⟩
    · rw [scanWord, List.cons_append, List.takeWhile_append_dropWhile]
    · have hlongest := scanWord_longest hword cs
      unfold scanWord
      dsimp only
      split
      · next hk => exact .keyword hlongest (List.contains_iff_mem.mp hk)
      · next hk => exact .ident hlongest fun hmem => hk (List.contains_iff_mem.mpr hmem)
  rw [if_neg hword]
  rw [Bool.not_eq_true] at hword
  by_cases hdigit : Text.isDigit c = true
  · left
    rw [if_pos hdigit]
    have hhead : ∀ d ∈ (c :: cs).head?, startsWord d = false := by
      intro d he
      rwa [← Option.some.inj he]
    obtain ⟨lexeme, rest, he, hlongest, ⟨hlike, hscan⟩ | ⟨hlike, hscan⟩⟩ :=
      scanNumber_cases hdigit cs
    · rw [hscan]
      exact ⟨_, rfl, he, .int (he ▸ hhead) hlongest hlike⟩
    · rw [hscan]
      exact ⟨_, rfl, he, .float (he ▸ hhead) hlongest hlike⟩
  rw [if_neg hdigit]
  rw [Bool.not_eq_true] at hdigit
  by_cases hquote : isQuote c = true
  · rw [if_pos hquote, scanString]
    obtain ⟨body, text, rest, rfl, hbody, hclosed | hopen | ⟨e, more, rfl, he⟩⟩ :=
      exists_spelled c cs
    · left
      obtain ⟨rest, rfl⟩ : ∃ more, rest = c :: more := List.head?_eq_some_iff.mp hclosed
      rw [scanBody_spelled hquote hbody, scanBody_quote hquote]
      refine ⟨_, rfl, ?_, ?_⟩
      · simp
      · dsimp only
        rw [List.append_nil]
        exact .str hquote hbody
    · right
      rw [scanBody_spelled hquote hbody, scanBody_open hquote hopen]
      exact ⟨_, _, .string hquote hbody hopen, rfl⟩
    · right
      rw [scanBody_spelled hquote hbody, scanBody_unknown hquote he]
      refine ⟨_, _, .escape hquote hbody he, ?_⟩
      show Except.error _ = Except.error _
      rw [← List.cons_append, Position.after_append]
      rfl
  rw [if_neg hquote]
  rw [Bool.not_eq_true] at hquote
  unfold scanOperator?
  cases hop : operatorSymbols.find? (fun op => op.toList.isPrefixOf (c :: cs)) with
  | none =>
    right
    refine ⟨_, _, .character hword hdigit hquote fun op hmem hpre => ?_, rfl⟩
    have hnot := List.find?_eq_none.mp hop op hmem
    exact hnot (List.isPrefixOf_iff_prefix.mpr hpre)
  | some op =>
    left
    obtain ⟨rest, hsplit, hlongest⟩ := operator_longest hop
    rw [hsplit, Option.map_some, List.drop_left]
    exact ⟨_, rfl, rfl, .op hlongest⟩

theorem scan_word {more : List Char} (h : Longest WordLike (c :: more) rest) (p : Position) :
    scan c (more ++ rest) p
      = .ok ⟨if keywords.contains (String.ofList (c :: more)) then .keyword else .ident,
          c :: more, c :: more, rest⟩ := by
  obtain ⟨_, _, he, hc, -⟩ := h.mem
  cases he
  have hsplit : c :: (more ++ rest).takeWhile continuesWord ++ (more ++ rest).dropWhile continuesWord
      = c :: more ++ rest := by
    rw [List.cons_append, List.takeWhile_append_dropWhile, List.cons_append]
  obtain ⟨hlexeme, hrest⟩ := (scanWord_longest hc (more ++ rest)).unique h hsplit
  rw [scan, if_pos hc, scanWord, hlexeme, hrest]

theorem isDigit_of_number (h : NumberLike lexeme) :
    ∃ c more, lexeme = c :: more ∧ Text.isDigit c = true := by
  obtain ⟨c, more, rfl, hc, -⟩ | ⟨_, places, rfl, ⟨c, more, rfl, hc, -⟩, -⟩ := h
  · exact ⟨c, more, rfl, hc⟩
  · exact ⟨c, more ++ '.' :: places, rfl, hc⟩

theorem scan_number (hhead : ∀ c ∈ (lexeme ++ rest).head?, startsWord c = false)
    (h : Longest NumberLike lexeme rest) (p : Position) :
    ∃ c more, lexeme = c :: more ∧
      (WholeLike lexeme → scan c (more ++ rest) p
        = .ok ⟨.int, lexeme.filter (· != '_'), lexeme, rest⟩) ∧
      (FractionLike lexeme → scan c (more ++ rest) p
        = .ok ⟨.float, lexeme.filter (· != '_'), lexeme, rest⟩) := by
  obtain ⟨c, more, rfl, hd⟩ := isDigit_of_number h.mem
  have hc : startsWord c = false := hhead c rfl
  refine ⟨c, more, rfl, ?_⟩
  obtain ⟨lexeme', rest', he, hlongest, hscan⟩ := scanNumber_cases hd (more ++ rest)
  obtain ⟨rfl, rfl⟩ := hlongest.unique h he.symm
  rw [scan, if_neg (by rw [hc]; decide), if_pos hd]
  obtain ⟨hlike, hscan⟩ | ⟨hlike, hscan⟩ := hscan
  · exact ⟨fun _ => by rw [hscan], fun hf => absurd hf (not_fraction_of_whole hlike)⟩
  · exact ⟨fun hw => absurd hlike (not_fraction_of_whole hw), fun _ => by rw [hscan]⟩

theorem operator_first : ∀ op ∈ operatorSymbols, ∃ c more, op.toList = c :: more ∧
    startsWord c = false ∧ Text.isDigit c = false ∧ isQuote c = false := by
  have hall : operatorSymbols.all (fun op => op.toList.head?.any fun c =>
      !startsWord c && !Text.isDigit c && !isQuote c) = true := by
    decide +kernel
  intro op hop
  have hfirst := List.all_eq_true.mp hall op hop
  cases hcs : op.toList with
  | nil =>
    rw [hcs] at hfirst
    cases hfirst
  | cons c more =>
    rw [hcs, List.head?_cons, Option.any_some] at hfirst
    simp only [Bool.and_eq_true, Bool.not_eq_true'] at hfirst
    exact ⟨c, more, rfl, hfirst.1.1, hfirst.1.2, hfirst.2⟩

theorem scan_operator (h : Longest OperatorLike lexeme rest) (p : Position) :
    ∃ c more, lexeme = c :: more ∧
      scan c (more ++ rest) p = .ok ⟨.op, lexeme, lexeme, rest⟩ := by
  obtain ⟨c, more, he, hword, hdigit, hquote⟩ := operator_first _ h.mem
  rw [String.toList_ofList] at he
  subst he
  refine ⟨c, more, rfl, ?_⟩
  cases hop : operatorSymbols.find? (fun op => op.toList.isPrefixOf (c :: (more ++ rest))) with
  | none =>
    have hnot := List.find?_eq_none.mp hop _ h.mem
    rw [String.toList_ofList] at hnot
    exact absurd (List.isPrefixOf_iff_prefix.mpr (List.prefix_append (c :: more) rest)) hnot
  | some op =>
    obtain ⟨rest', hsplit, hlongest⟩ := operator_longest hop
    obtain ⟨hlexeme, rfl⟩ := hlongest.unique h hsplit.symm
    rw [scan, if_neg (by rw [hword]; decide), if_neg (by rw [hdigit]; decide),
      if_neg (by rw [hquote]; decide), scanOperator?, hop, Option.map_some, hsplit, List.drop_left,
      hlexeme]

theorem quote_first {quote : Char} (hq : isQuote quote = true) :
    startsWord quote = false ∧ Text.isDigit quote = false := by
  obtain rfl | rfl := isQuote_iff.mp hq <;> decide +kernel

/-- The token that a text begins with is found. -/
theorem scan_denotes (h : Denotes kind text lexeme rest) (p : Position) :
    ∃ c more, lexeme = c :: more ∧ scan c (more ++ rest) p = .ok ⟨kind, text, lexeme, rest⟩ := by
  cases h with
  | keyword hlongest hk =>
    obtain ⟨c, more, rfl, -⟩ := hlongest.mem
    exact ⟨c, more, rfl, by rw [scan_word hlongest, if_pos (List.contains_iff_mem.mpr hk)]⟩
  | ident hlongest hk =>
    obtain ⟨c, more, rfl, -⟩ := hlongest.mem
    refine ⟨c, more, rfl, ?_⟩
    rw [scan_word hlongest, if_neg fun hmem => hk (List.contains_iff_mem.mp hmem)]
  | int hhead hlongest hlike =>
    obtain ⟨c, more, he, hscan, -⟩ := scan_number hhead hlongest p
    exact ⟨c, more, he, hscan hlike⟩
  | float hhead hlongest hlike =>
    obtain ⟨c, more, he, -, hscan⟩ := scan_number hhead hlongest p
    exact ⟨c, more, he, hscan hlike⟩
  | @str quote body _ _ hquote hbody =>
    obtain ⟨hword, hdigit⟩ := quote_first hquote
    refine ⟨quote, body ++ [quote], rfl, ?_⟩
    rw [scan, if_neg (by rw [hword]; decide), if_neg (by rw [hdigit]; decide), if_pos hquote,
      scanString, List.append_assoc, scanBody_spelled hquote hbody, List.singleton_append,
      scanBody_quote hquote]
    simp [Except.map]
  | op hlongest => exact scan_operator hlongest p

theorem Denotes.ne_nil (h : Denotes kind text lexeme rest) : lexeme ≠ [] := by
  obtain ⟨c, more, rfl, -⟩ := scan_denotes h .start
  exact List.cons_ne_nil c more

end Tokens

/-! ## The whole text -/

section Tokens

variable {kind : TokenKind} {cs t lexeme rest text before : List Char} {c : Char} {us : List Token}
  {p q : Position} {e : SourceError}

theorem tokens_of_nil (h : skip cs p = .ok ([], q)) : tokens cs p = .ok [⟨.eof, "", q⟩] := by
  rw [tokens]
  split <;> next he => cases h.symm.trans he <;> rfl

theorem tokens_of_error (h : skip cs p = .error e) : tokens cs p = .error e := by
  rw [tokens]
  split <;> next he => cases h.symm.trans he <;> rfl

theorem tokens_of_cons (h : skip cs p = .ok (c :: rest, q)) :
    tokens cs p = (scan c rest q).bind fun s =>
      (tokens s.rest (q.after s.lexeme)).map (⟨s.kind, String.ofList s.text, q⟩ :: ·) := by
  rw [tokens]
  split
  · next he => cases h.symm.trans he
  · next he => cases h.symm.trans he
  · next he =>
    cases h.symm.trans he
    split <;> next hs => rw [hs]; rfl

/-- The layout of a text goes on with trivia and a token. -/
theorem tokens_lexeme (ht : Trivia t (lexeme ++ rest)) (hs : Solid (lexeme ++ rest))
    (hd : Denotes kind text lexeme rest) (p : Position) :
    tokens (t ++ (lexeme ++ rest)) p = (tokens rest (p.after (t ++ lexeme))).map
      (⟨kind, String.ofList text, p.after t⟩ :: ·) := by
  obtain ⟨c, more, rfl, hscan⟩ := scan_denotes hd (p.after t)
  have hskip : skip (t ++ (c :: more ++ rest)) p = .ok (c :: (more ++ rest), p.after t) := by
    rw [skip_trivia ht, skip_solid hs, List.cons_append]
  rw [tokens_of_cons hskip, hscan, Position.after_append]
  rfl

theorem tokens_trivia (ht : Trivia t []) (p : Position) :
    tokens t p = .ok [⟨.eof, "", p.after t⟩] := by
  have hskip := skip_trivia ht p
  rw [List.append_nil, skip] at hskip
  exact tokens_of_nil hskip

/-- A text is at its end but for trivia, or goes on with a token, or comes to a halt. -/
theorem tokens_cases (cs : List Char) (p : Position) :
    Trivia cs [] ∨
    (∃ t lexeme rest kind text, cs = t ++ (lexeme ++ rest) ∧ Trivia t (lexeme ++ rest) ∧
      Solid (lexeme ++ rest) ∧ Denotes kind text lexeme rest ∧ rest.length < cs.length) ∨
    ∃ t rest seen cause, cs = t ++ rest ∧ Trivia t rest ∧ Stuck rest seen cause ∧
      tokens cs p = .error (.parsing cause (p.after (t ++ seen))) := by
  obtain ⟨t, rest, rfl, ht, hsolid | ⟨opened, rfl, hopened⟩⟩ := exists_trivia cs
  · cases rest with
    | nil =>
      left
      rwa [List.append_nil]
    | cons c rest =>
      right
      obtain ⟨s, hscan, he, hdenotes⟩ | ⟨seen, cause, hstuck, hscan⟩ :=
        scan_cases c rest (p.after t)
      · left
        have hshorter := scan_shorter hscan
        refine ⟨t, s.lexeme, s.rest, s.kind, s.text, congrArg (t ++ ·) he, he ▸ ht, he ▸ hsolid,
          hdenotes, ?_⟩
        rw [List.length_append]
        omega
      · right
        have hskip : skip (t ++ c :: rest) p = .ok (c :: rest, p.after t) := by
          rw [skip_trivia ht, skip_solid hsolid]
        refine ⟨t, _, seen, cause, rfl, ht, hstuck, ?_⟩
        rw [tokens_of_cons hskip, hscan, Position.after_append]
        rfl
  · right; right
    refine ⟨t, _, [], _, rfl, ht, .comment hopened, ?_⟩
    rw [List.append_nil]
    apply tokens_of_error
    rw [skip_trivia ht, skip_open hopened]

/-- What is laid out is read as the tokens of the layout. -/
theorem Laid.tokens_eq (h : Laid before us rest) :
    tokens (before ++ rest) .start = (tokens rest (.behind before)).map (us ++ ·) := by
  induction h with
  | nil =>
    show tokens _ _ = Except.map id _
    rw [Except.map_id]
    rfl
  | @snoc before t lexeme rest text us kind hlaid ht hs hd ih =>
    rw [List.append_assoc, List.append_assoc, ih, tokens_lexeme ht hs hd, ← Position.behind_append,
      ← Position.behind_append]
    cases tokens rest (.behind (before ++ (t ++ lexeme))) with
    | error e => rfl
    | ok vs =>
      refine congrArg Except.ok ?_
      dsimp only
      rw [List.append_assoc, List.singleton_append]

/-- Behind a layout, the rest of the text is laid out too, or comes to a halt. -/
theorem Laid.goes_on (h : Laid before us cs) :
    (∃ vs, tokens cs (.behind before) = .ok vs ∧ Lexed (before ++ cs) (us ++ vs)) ∨
    ∃ halt cause, Halts (before ++ cs) halt cause ∧
      tokens cs (.behind before) = .error (.parsing cause (.behind halt)) := by
  -- each token makes what is left shorter, and the layout longer
  induction hn : cs.length using Nat.strong_induction_on generalizing before us cs with
  | h n ih =>
  obtain ht | ⟨t, lexeme, rest, kind, text, rfl, ht, hs, hd, hlt⟩ |
    ⟨t, rest, seen, cause, rfl, ht, hstuck, he⟩ := tokens_cases cs (.behind before)
  · left
    refine ⟨_, tokens_trivia ht _, before, cs, us, rfl, h, ht, ?_⟩
    rw [Position.behind_append]
  · have hlaid := Laid.snoc h ht hs hd
    rw [tokens_lexeme ht hs hd, ← Position.behind_append, ← Position.behind_append,
      ← List.append_assoc t, ← List.append_assoc before (t ++ lexeme)]
    obtain ⟨vs, hvs, hlexed⟩ | ⟨halt, cause, hhalts, he⟩ := ih _ (hn ▸ hlt) hlaid rfl
    · left
      refine ⟨_, by rw [hvs]; rfl, ?_⟩
      rwa [List.append_assoc us, List.singleton_append] at hlexed
    · right
      exact ⟨halt, cause, hhalts, by rw [he]; rfl⟩
  · right
    refine ⟨before ++ (t ++ seen), cause, ⟨before, us, t, rest, seen, rfl, h, ht, hstuck, rfl⟩, ?_⟩
    rw [he, Position.behind_append]

end Tokens

end Lexer

/-- The tokens of a text are those that it is laid out in. -/
theorem lexed_of_tokenize {source : String} {file : Option String} {ts : List Token}
    (h : tokenize source file = .ok ts) : Lexer.Lexed source.toList ts := by
  rw [tokenize] at h
  have hstart : Lexer.Laid [] [] source.toList := .nil
  obtain ⟨us, hus, hlexed⟩ | ⟨halt, cause, -, he⟩ := hstart.goes_on
  · rw [show Lexer.tokens source.toList .start = .ok us from hus] at h
    cases h
    exact hlexed
  · rw [show Lexer.tokens source.toList .start = _ from he] at h
    cases h

/-- A text is read as the tokens it is laid out in, and is refused where its layout halts. -/
theorem tokenize_spec (source : String) (file : Option String) :
    (∀ ts, tokenize source file = .ok ts ↔ Lexer.Lexed source.toList ts) ∧
    ∀ e, tokenize source file = .error e → ∃ before cause, before <+: source.toList ∧
      Lexer.Halts source.toList before cause ∧
      e = ⟨.parsing, cause,
        ⟨file, some (Position.behind before).line, some (Position.behind before).column⟩⟩ := by
  unfold tokenize
  have hstart : Lexer.Laid [] [] source.toList := .nil
  have hrun := hstart.goes_on
  rw [List.nil_append, show Position.behind [] = .start from rfl] at hrun
  constructor
  · intro ts
    constructor
    · intro h
      obtain ⟨vs, hvs, hlexed⟩ | ⟨_, _, -, he⟩ := hrun
      · rw [hvs] at h
        cases h
        exact hlexed
      · rw [he] at h
        cases h
    · rintro ⟨before, trivia, us, he, hlaid, htrivia, rfl⟩
      have hread := hlaid.tokens_eq
      rw [← he, Lexer.tokens_trivia htrivia, ← Position.behind_append, ← he] at hread
      rw [hread]
      rfl
  · intro e h
    obtain ⟨vs, hvs, -⟩ | ⟨halt, cause, hhalts, he⟩ := hrun
    · rw [hvs] at h
      cases h
    · rw [he] at h
      cases h
      exact ⟨halt, cause, hhalts.isPrefix, hhalts, rfl⟩

end Widgetry
