import Widgetry.Proofs.Language.Derivations

/-!
# The lines in a tree

> `parse_lines`: each node of a parsed text has a line between the lines of the first and of the
> last token that it was parsed from, but for calls behind an expression. Such a call has the line
> of the token behind its closing bracket, and that is between the lines of its own tokens exactly
> if it is the line of the closing bracket.

> `open_call_line`: a call at the end of a line has a line outside of what it was parsed from.

The lines of tokens never descend, so every token that a node was parsed from has such a line.
-/

namespace Widgetry

/-! ## Lines of tokens -/

/-- Tokens on lines that never descend. -/
def Ascending (ts : List Token) : Prop := ts.Pairwise fun t u => t.line ≤ u.line

theorem Ascending.concat {ts : List Token} {u : Token} (h : Ascending ts)
    (hu : ∀ t ∈ ts, t.line ≤ u.line) : Ascending (ts ++ [u]) := by
  refine List.pairwise_append.mpr ⟨h, List.pairwise_singleton _ _, fun t ht v hv => ?_⟩
  rw [List.mem_singleton.mp hv]
  exact hu t ht

namespace Position

theorem behind_line (before : List Char) : (behind before).line = 1 + before.count '\n' := rfl

theorem behind_line_le (before more : List Char) :
    (behind before).line ≤ (behind (before ++ more)).line := by
  rw [behind_line, behind_line, List.count_append]
  omega

end Position

namespace Lexer

variable {before rest text : List Char} {ts : List Token}

/-- No token stands behind the place up to which the text is laid out. -/
theorem Laid.line_le (h : Laid before ts rest) :
    ∀ t ∈ ts, t.line ≤ (Position.behind before).line := by
  induction h with
  | nil => exact nofun
  | @snoc before trivia lexeme rest text ts kind hlaid _ _ _ ih =>
    intro t ht
    rcases List.mem_append.mp ht with ht | ht
    · exact (ih t ht).trans (Position.behind_line_le _ _)
    · cases List.mem_singleton.mp ht
      rw [← List.append_assoc]
      exact Position.behind_line_le _ _

theorem Laid.ascending (h : Laid before ts rest) : Ascending ts := by
  induction h with
  | nil => exact .nil
  | snoc hlaid _ _ _ ih =>
    exact ih.concat fun t ht => (hlaid.line_le t ht).trans (Position.behind_line_le _ _)

theorem Lexed.ascending (h : Lexed text ts) : Ascending ts := by
  obtain ⟨before, trivia, us, rfl, hlaid, -, rfl⟩ := h
  exact hlaid.ascending.concat fun t ht =>
    (hlaid.line_le t ht).trans (Position.behind_line_le _ _)

end Lexer

/-! ## Lines of nodes -/

/-- Whether a line lies between the lines of the first and of the last of the tokens from one place
on to another one. -/
def Between (line : Nat) (start stop : List Token) : Prop :=
  ∃ own first last, start = own ++ stop ∧ own.head? = some first ∧ own.getLast? = some last ∧
    first.line ≤ line ∧ line ≤ last.line

/-- Whether the line of a call behind an expression is that of the token behind its closing
bracket. It lies between the lines of its own tokens exactly if the bracket is on it. -/
def BehindCall (line : Nat) (start stop : List Token) : Prop :=
  ∃ close next rest, close :: stop <:+ start ∧ close.isOp ")" = true ∧ stop = next :: rest ∧
    line = next.line ∧ (Between line start stop ↔ next.line = close.line)

/-- The lines that the nodes of a parsed text have. -/
def parsedLines : LineRule := ⟨Between, BehindCall⟩

theorem Between.shorter {line : Nat} {start stop : List Token} (h : Between line start stop) :
    stop.length < start.length := by
  obtain ⟨own, first, last, rfl, hfirst, -⟩ := h
  have hne : own ≠ [] := by rintro rfl; cases hfirst
  have := List.length_pos_iff.mpr hne
  rw [List.length_append]
  omega

section Ascending

variable {own start stop : List Token} {t : Token}

theorem Ascending.head_le (h : Ascending own) (ht : t ∈ own) :
    ∃ first, own.head? = some first ∧ first.line ≤ t.line := by
  cases h with
  | nil => cases ht
  | @cons first rest hfirst _ =>
    rcases List.mem_cons.mp ht with rfl | ht
    · exact ⟨t, rfl, le_refl _⟩
    · exact ⟨first, rfl, hfirst t ht⟩

theorem Ascending.le_getLast (h : Ascending own) (ht : t ∈ own) :
    ∃ last, own.getLast? = some last ∧ t.line ≤ last.line := by
  have hne : own ≠ [] := List.ne_nil_of_mem ht
  refine ⟨own.getLast hne, List.getLast?_eq_some_getLast hne, ?_⟩
  rw [← List.dropLast_concat_getLast hne] at h ht
  rcases List.mem_append.mp ht with ht | ht
  · exact (List.pairwise_append.mp h).2.2 t ht _ (List.mem_singleton_self _)
  · rw [List.mem_singleton.mp ht]

/-- The line of a token is between those of the first and of the last token around it. -/
theorem between_of_mem (h : Ascending (own ++ stop)) (ht : t ∈ own) :
    Between t.line (own ++ stop) stop := by
  have hown : Ascending own := (List.pairwise_append.mp h).1
  obtain ⟨first, hfirst, hle⟩ := hown.head_le ht
  obtain ⟨last, hlast, hle'⟩ := hown.le_getLast ht
  exact ⟨own, first, last, rfl, hfirst, hlast, hle, hle'⟩

/-- The line of the token behind a last one is between exactly if the last one is on it too. -/
theorem between_next_iff {close next : Token} {rest : List Token} (h : Ascending start)
    (hclose : close :: next :: rest <:+ start) :
    Between next.line start (next :: rest) ↔ next.line = close.line := by
  obtain ⟨pre, rfl⟩ := hclose
  have hle : close.line ≤ next.line :=
    (List.pairwise_cons.mp (List.pairwise_append.mp h).2.1).1 next List.mem_cons_self
  have he : pre ++ close :: next :: rest = (pre ++ [close]) ++ next :: rest := by simp
  constructor
  · rintro ⟨own, first, last, hown, -, hlast, -, hnext⟩
    cases List.append_cancel_right (he.symm.trans hown)
    rw [List.getLast?_concat] at hlast
    cases hlast
    exact le_antisymm hnext hle
  · intro heq
    rw [he] at h ⊢
    rw [heq]
    exact between_of_mem h List.mem_concat_self

end Ascending

/-- What the parser does keeps to these lines. -/
theorem parsedLines_allows {ts : List Token} (h : Ascending ts) : parsedLines.Allows ts where
  shorter := Between.shorter
  node := by
    rintro t start mid stop hs ⟨pre, rfl⟩ ⟨more, rfl⟩
    have he : pre ++ t :: (more ++ stop) = (pre ++ t :: more) ++ stop := by simp
    rw [he] at hs ⊢
    exact between_of_mem (h.sublist hs.sublist) (List.mem_append_right pre List.mem_cons_self)
  call hs hclose hop :=
    ⟨_, _, _, hclose, hop, rfl, rfl, between_next_iff (h.sublist hs.sublist) hclose⟩

/-- **The lines in a parsed text are right, but for calls at the end of a line.** -/
theorem parse_lines {source : String} {file : Option String} {c : Code}
    (h : parse source file = .ok c) :
    ∃ ts, tokenize source file = .ok ts ∧ CodeFrom parsedLines c.stmts ts := by
  obtain ⟨ts, hts, hderived⟩ := parse_derived h
  exact ⟨ts, hts, hderived parsedLines (parsedLines_allows (lexed_of_tokenize hts).ascending)⟩

/-- A call that stands on a line, and one with its closing bracket on the next line. -/
def twoCalls : String := "fn f() \x7b\n a.b(1).c\n a.b(\n) == 1\n\x7d"

/-- Tokens follow on the lines of the closing brackets, so all lines are right. -/
theorem two_calls_lines : ∃ c ts, parse twoCalls none = .ok c ∧
    tokenize twoCalls none = .ok ts ∧ CodeFrom parsedLines c.stmts ts := by
  have hok : (parse twoCalls none).isOk = true := by decide +kernel
  cases h : parse twoCalls none with
  | error e =>
    rw [h] at hok
    cases hok
  | ok c =>
    obtain ⟨ts, hts, hcode⟩ := parse_lines h
    exact ⟨c, ts, rfl, hts, hcode⟩

/-- A call behind an expression at the end of a line. -/
def openCall : String := "a.b()\n\nc"

def openCallTokens : List Token :=
  [⟨.ident, "a", ⟨1, 1⟩⟩, ⟨.op, ".", ⟨1, 2⟩⟩, ⟨.ident, "b", ⟨1, 3⟩⟩, ⟨.op, "(", ⟨1, 4⟩⟩,
    ⟨.op, ")", ⟨1, 5⟩⟩, ⟨.ident, "c", ⟨3, 1⟩⟩, ⟨.eof, "", ⟨3, 2⟩⟩]

theorem openCall_tokens : tokenize openCall none = .ok openCallTokens :=
  toOption_eq_some_iff.mp (by decide +kernel)

theorem openCall_parsed : parse openCall none = .ok ⟨[
    .expr (.call (.member (.ident "a" 1) "b" 1) [] 3) 1, .expr (.ident "c" 3) 3], none⟩ := by
  rw [parse, Parser.run, openCall_tokens]
  rfl

/-- However the call is derived, its tokens end with the bracket on line 1. -/
theorem openCall_not_between {s : List Token} : ¬ ExprFrom ⟨Between, Between⟩
    (.call (.member (.ident "a" 1) "b" 1) [] 3) openCallTokens s := by
  intro hcall
  have hascending : Ascending openCallTokens := (lexed_of_tokenize openCall_tokens).ascending
  have hclose := List.drop_suffix 4 openCallTokens
  rw [openCallTokens] at *
  cases hcall with
  | group ht => cases ht
  | call hmember hargs hline =>
    cases hmember with
    | group ht => cases ht
    | member hobj _ hname _ =>
      cases hobj with
      | group ht => cases ht
      | ident hn _ =>
        obtain ⟨_, ⟨rfl, rfl⟩, -, -⟩ := nameFrom_iff.mp hn
        obtain ⟨_, ⟨rfl, rfl⟩, -, -⟩ := nameFrom_iff.mp hname
        cases hargs with
        | intro _ hnone _ =>
          cases hnone
          cases (between_next_iff hascending hclose).mp hline

/-- Such a call has the line of what is written below. -/
theorem open_call_line : ¬ ∀ (source : String) (file : Option String) (c : Code),
    parse source file = .ok c →
      ∃ ts, tokenize source file = .ok ts ∧ CodeFrom ⟨Between, Between⟩ c.stmts ts := by
  intro h
  obtain ⟨ts, hts, e, he, hcode⟩ := h _ _ _ openCall_parsed
  cases hts.symm.trans openCall_tokens
  cases hcode with
  | skip hsep => cases hsep
  | cons hst _ =>
    cases hst with
    | expr hcall _ => exact openCall_not_between hcall

end Widgetry
