/-!
# Name patterns

A `*` stands for any characters, a `?` for one, and brackets for one of those that they hold or,
behind a `!`, for one of the others; all else stands for itself. A bracket that is never closed
stands for itself too.
-/

namespace Widgetry

/-- What a part of a pattern matches. -/
inductive GlobItem where
  | any
  | one
  | letter (c : Char)
  /-- a character of some ranges, or of none of them -/
  | among (negated : Bool) (ranges : List (Char × Char))
deriving DecidableEq, Repr

namespace Glob

/-- The characters between brackets and what follows; a closing bracket in front is one of them. -/
def bracketed? (cs : List Char) : Option (Bool × List Char × List Char) :=
  let (negated, cs) := match cs with
    | '!' :: rest => (true, rest)
    | _ => (false, cs)
  let (first, cs) := match cs with
    | ']' :: rest => ([']'], rest)
    | _ => ([], cs)
  match cs.dropWhile (· != ']') with
  | [] => none
  | _ :: rest => some (negated, first ++ cs.takeWhile (· != ']'), rest)

/-- The ranges that characters between brackets denote. -/
def ranges : List Char → List (Char × Char)
  | a :: '-' :: b :: rest => (a, b) :: ranges rest
  | a :: rest => (a, a) :: ranges rest
  | [] => []

/-- The items of a pattern, of which there are no more than characters. -/
def items : Nat → List Char → List GlobItem
  | 0, _ => []
  | _, [] => []
  | n + 1, '*' :: rest => .any :: items n rest
  | n + 1, '?' :: rest => .one :: items n rest
  | n + 1, '[' :: rest =>
    match bracketed? rest with
    | some (negated, inside, rest) => .among negated (ranges inside) :: items n rest
    | none => .letter '[' :: items n rest
  | n + 1, c :: rest => .letter c :: items n rest

def ofText (pattern : String) : List GlobItem := items pattern.length pattern.toList

/-- Whether an item matches a character. -/
def matchesChar : GlobItem → Char → Bool
  | .any, _ | .one, _ => true
  | .letter d, c => c == d
  | .among negated ranges, c => ranges.any (fun r => r.1 ≤ c && c ≤ r.2) != negated

/-- Whether a test holds of some end of a list. -/
def anyEnd {α : Type} (test : List α → Bool) : List α → Bool
  | [] => test []
  | a :: rest => test (a :: rest) || anyEnd test rest

/-- Whether a pattern matches all of some characters. -/
def matchesAll : List GlobItem → List Char → Bool
  | [], cs => cs.isEmpty
  | .any :: items, cs => anyEnd (matchesAll items) cs
  | item :: items, c :: cs => matchesChar item c && matchesAll items cs
  | _ :: _, [] => false

def accepts (pattern name : String) : Bool := matchesAll (ofText pattern) name.toList

/-- Whether patterns match the names on the way to a file; `**` stands for any folders. -/
def acceptsWay : List String → List String → Bool
  | [], names => names.isEmpty
  | pattern :: patterns, names =>
    if pattern == "**" then !patterns.isEmpty && anyEnd (acceptsWay patterns) names
    else match names with
      | [] => false
      | name :: rest => accepts pattern name && acceptsWay patterns rest

/-- Whether patterns match the last names on the way to a file. -/
def acceptsEnd (patterns names : List String) : Bool := anyEnd (acceptsWay patterns) names

end Glob

end Widgetry
