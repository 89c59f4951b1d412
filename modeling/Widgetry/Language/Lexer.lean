import Widgetry.Language.Error
import Widgetry.Text.Numeral

/-!
# From text to tokens

A source text alternates between trivia (blanks and comments) and lexemes. `Lexer.scan` takes one
lexeme off the front of the text, as long as its class allows; `Lexer.skip` takes off the trivia
before it. `tokenize` repeats the two until the text is used up and ends with the token of its end.

`scan_shorter` and `skip_shorter` are why it comes to an end: a lexeme is never empty.
-/

namespace Widgetry.Lexer

/-- A lexeme with what it stands for and the text after it. -/
structure Scan where
  kind : TokenKind
  text : List Char
  lexeme : List Char
  rest : List Char

def isBlank (c : Char) : Bool := c == ' ' || c == '\t' || c == '\r' || c == '\n'

def startsWord (c : Char) : Bool := Text.isLetter c || c == '_'

def continuesWord (c : Char) : Bool := Text.isAlphanumeric c || c == '_'

def continuesNumber (c : Char) : Bool := Text.isDigit c || c == '_'

def isQuote (c : Char) : Bool := c == '"' || c == '\''

/-- What the character after a backslash stands for. -/
def escapes : List (Char × Char) :=
  [('n', '\n'), ('t', '\t'), ('r', '\r'), ('\\', '\\'), ('"', '"'), ('\'', '\''), ('0', '\x00')]

/-! ## Lexemes -/

def scanWord (c : Char) (rest : List Char) : Scan :=
  let word := c :: rest.takeWhile continuesWord
  { kind := if keywords.contains (String.ofList word) then .keyword else .ident
    text := word
    lexeme := word
    rest := rest.dropWhile continuesWord }

/-- Digits, and behind a point that a digit follows, more digits. -/
def scanNumber (c : Char) (rest : List Char) : Scan :=
  let whole := c :: rest.takeWhile continuesNumber
  let after := rest.dropWhile continuesNumber
  match after with
  | '.' :: d :: more =>
    if Text.isDigit d then
      let lexeme := whole ++ '.' :: d :: more.takeWhile continuesNumber
      ⟨.float, lexeme.filter (· != '_'), lexeme, more.dropWhile continuesNumber⟩
    else ⟨.int, whole.filter (· != '_'), whole, after⟩
  | _ => ⟨.int, whole.filter (· != '_'), whole, after⟩

/-- What a string holds, the characters it takes up and the text after it. -/
structure Body where
  text : List Char
  lexeme : List Char
  rest : List Char

def Body.push (b : Body) (lexeme : List Char) (c : Char) : Body :=
  ⟨c :: b.text, lexeme ++ b.lexeme, b.rest⟩

/-- The string from behind its opening quote on. It began at `start`, and `p` is the place of the
next character. -/
def scanBody (quote : Char) (start : Position) (p : Position) :
    List Char → Except SourceError Body
  | [] => .error (.parsing .openString start)
  | c :: rest =>
    if c = '\n' then .error (.parsing .openString start)
    else if c = quote then .ok ⟨[], [c], rest⟩
    else if c = '\\' then
      match rest with
      | [] => .error (.parsing .openString start)
      | e :: rest =>
        match escapes.lookup e with
        | none => .error (.parsing (.strangeEscape e) ((p.advance c).advance e))
        | some meant =>
          (scanBody quote start ((p.advance c).advance e) rest).map (·.push [c, e] meant)
    else (scanBody quote start (p.advance c) rest).map (·.push [c] c)

def scanString (quote : Char) (rest : List Char) (p : Position) : Except SourceError Scan :=
  (scanBody quote p (p.advance quote) rest).map fun b =>
    ⟨.str, b.text, quote :: b.lexeme, b.rest⟩

/-- The first operator that the text begins with. -/
def scanOperator? (cs : List Char) : Option Scan :=
  (operatorSymbols.find? fun op => op.toList.isPrefixOf cs).map fun op =>
    ⟨.op, op.toList, op.toList, cs.drop op.toList.length⟩

/-- The lexeme that a text with a first character begins with. -/
def scan (c : Char) (rest : List Char) (p : Position) : Except SourceError Scan :=
  if startsWord c then .ok (scanWord c rest)
  else if Text.isDigit c then .ok (scanNumber c rest)
  else if isQuote c then scanString c rest p
  else match scanOperator? (c :: rest) with
    | some s => .ok s
    | none => .error (.parsing (.strangeCharacter c) p)

/-! ## Trivia -/

/-- Splits off the rest of a block comment, up to and with its first closing mark. -/
def closeComment? : List Char → Option (List Char × List Char)
  | '*' :: '/' :: rest => some (['*', '/'], rest)
  | c :: rest => (closeComment? rest).map fun s => (c :: s.1, s.2)
  | [] => none

theorem closeComment?_shorter {cs body rest : List Char}
    (h : closeComment? cs = some (body, rest)) : rest.length ≤ cs.length := by
  fun_induction closeComment? cs generalizing body with
  | case1 r => simp_all; omega
  | case2 c r _ ih =>
    obtain ⟨s, hs, e⟩ := Option.map_eq_some_iff.1 h
    simp only [Prod.mk.injEq] at e
    have := ih (show closeComment? r = some (s.1, rest) by rw [hs, ← e.2])
    simp; omega
  | case3 => simp at h

/-- Passes over blanks and comments. -/
def skip (cs : List Char) (p : Position) : Except SourceError (List Char × Position) :=
  match cs with
  | '/' :: '/' :: rest =>
    let comment := rest.takeWhile (· != '\n')
    skip (rest.dropWhile (· != '\n')) (p.after ('/' :: '/' :: comment))
  | '/' :: '*' :: rest =>
    match _h : closeComment? rest with
    | some (body, rest') => skip rest' (p.after ('/' :: '*' :: body))
    | none => .error (.parsing .openComment p)
  | c :: rest => if isBlank c then skip rest (p.advance c) else .ok (c :: rest, p)
  | [] => .ok ([], p)
termination_by cs.length
decreasing_by
  · have := (List.dropWhile_sublist (p := fun c => c != '\n') (l := rest)).length_le
    simp; omega
  · have := closeComment?_shorter _h
    simp; omega
  · simp

theorem skip_shorter {cs rest : List Char} {p q : Position} (h : skip cs p = .ok (rest, q)) :
    rest.length ≤ cs.length := by
  fun_induction skip cs p with
  | case1 p r c ih =>
    have := (List.dropWhile_sublist (p := fun c => c != '\n') (l := r)).length_le
    have := ih h
    simp; omega
  | case2 p r body r' hc ih =>
    have := closeComment?_shorter hc
    have := ih h
    simp; omega
  | case3 => simp at h
  | case4 p c r _ _ hb ih => have := ih h; simp; omega
  | case5 => simp at h; simp [← h.1]
  | case6 => simp at h; simp [← h.1]

/-! ## Every lexeme takes something off the text -/

theorem scanBody_shorter {quote : Char} {start p : Position} {cs : List Char} {b : Body}
    (h : scanBody quote start p cs = .ok b) : b.rest.length ≤ cs.length := by
  fun_induction scanBody quote start p cs generalizing b with
  | case1 => simp at h
  | case2 => simp at h
  | case3 => simp at h; simp [← h]
  | case4 => simp at h
  | case5 => simp at h
  | case6 p e rest _ _ _ _ ih =>
    cases hb : scanBody quote start ((p.advance '\\').advance e) rest with
    | error => simp [hb, Except.map] at h
    | ok b' =>
      have := ih hb
      simp only [hb, Except.map, Except.ok.injEq] at h
      subst h
      simp [Body.push]; omega
  | case7 p c rest _ _ _ ih =>
    cases hb : scanBody quote start (p.advance c) rest with
    | error => simp [hb, Except.map] at h
    | ok b' =>
      have := ih hb
      simp only [hb, Except.map, Except.ok.injEq] at h
      subst h
      simp [Body.push]; omega

theorem operatorSymbols_ne_nil : ∀ op ∈ operatorSymbols, 0 < op.toList.length := by decide

theorem scan_shorter {c : Char} {rest : List Char} {p : Position} {s : Scan}
    (h : scan c rest p = .ok s) : s.rest.length < (c :: rest).length := by
  unfold scan at h
  split at h
  · have := (List.dropWhile_sublist (p := continuesWord) (l := rest)).length_le
    simp only [Except.ok.injEq] at h
    subst h
    simp [scanWord]; omega
  split at h
  · have hle := (List.dropWhile_sublist (p := continuesNumber) (l := rest)).length_le
    simp only [Except.ok.injEq] at h
    subst h
    unfold scanNumber
    simp only
    split
    · rename_i d more hd
      have hm := (List.dropWhile_sublist (p := continuesNumber) (l := more)).length_le
      rw [hd] at hle
      simp only [List.length_cons] at hle
      split <;> simp [hd] <;> omega
    · simp; omega
  split at h
  · unfold scanString at h
    cases hb : scanBody c p (p.advance c) rest with
    | error => simp [hb, Except.map] at h
    | ok b =>
      have := scanBody_shorter hb
      simp only [hb, Except.map, Except.ok.injEq] at h
      subst h
      simp; omega
  · unfold scanOperator? at h
    cases hf : operatorSymbols.find? fun op => op.toList.isPrefixOf (c :: rest) with
    | none => simp [hf] at h
    | some op =>
      have := operatorSymbols_ne_nil op (List.mem_of_find?_eq_some hf)
      simp only [hf, Option.map_some, Except.ok.injEq] at h
      subst h
      simp; omega

/-! ## The whole text -/

/-- The tokens of a text that begins at a place. -/
def tokens (cs : List Char) (p : Position) : Except SourceError (List Token) :=
  match _hk : skip cs p with
  | .error e => .error e
  | .ok ([], q) => .ok [⟨.eof, "", q⟩]
  | .ok (c :: rest, q) =>
    match _hs : scan c rest q with
    | .error e => .error e
    | .ok s =>
      (tokens s.rest (q.after s.lexeme)).map fun ts => ⟨s.kind, String.ofList s.text, q⟩ :: ts
termination_by cs.length
decreasing_by
  have := skip_shorter _hk
  have := scan_shorter _hs
  omega

end Widgetry.Lexer

namespace Widgetry

/-- The tokens of a source text. -/
def tokenize (source : String) (file : Option String) : Except SourceError (List Token) :=
  (Lexer.tokens source.toList .start).mapError (·.inFile file)

end Widgetry
