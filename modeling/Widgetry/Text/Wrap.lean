import Widgetry.Text.Blank

/-!
# Lines of limited width

Breaks a line at its blanks so that no part is wider than a limit, less the blanks at its end. A word
that is wider by itself is broken where the limit falls.
-/

namespace Widgetry.Text

/-- The words of a line, each with the blanks around it. -/
def spacedWords : Nat → List Char → List (List Char)
  | 0, _ => []
  | n + 1, cs =>
    let before := cs.takeWhile isBlank
    let rest := cs.dropWhile isBlank
    match rest.takeWhile (!isBlank ·) with
    | [] => []
    | word =>
      let rest := rest.dropWhile (!isBlank ·)
      (before ++ word ++ rest.takeWhile isBlank) ::
        spacedWords n (rest.dropWhile isBlank)

/-- The length of a word without the blanks behind it. -/
def inkLength (word : List Char) : Nat := (word.reverse.dropWhile isBlank).length

/-- Pieces of a width; the last one may be shorter. -/
def pieces (width : Nat) : Nat → List Char → List (List Char)
  | 0, _ => []
  | n + 1, cs =>
    if cs.length ≤ width then [cs] else cs.take width :: pieces width n (cs.drop width)

/-- Puts words into lines; `lines` are those so far, the last one first. -/
def fillLines (width : Nat) : List (List Char) → List (List Char) → List (List Char)
  | lines, [] => lines.reverse
  | lines, word :: rest =>
    match lines with
    | [] => fillLines width (pieces width word.length word).reverse rest
    | line :: others =>
      if line.length + inkLength word ≤ width then fillLines width ((line ++ word) :: others) rest
      else fillLines width ((pieces width word.length word).reverse ++ line :: others) rest

/-- A line broken into lines of at most a width. What stands beyond it in one of these is blank, and
left out. -/
def wrapLine (width : Nat) (line : String) : List String :=
  match spacedWords line.length line.toList with
  | [] => [line]
  | words => (fillLines width [] words).map fun cs => String.ofList (cs.take width)

end Widgetry.Text
