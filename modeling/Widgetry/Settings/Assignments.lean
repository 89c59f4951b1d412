import Widgetry.Text.Blank

/-!
# Lines of assignments

Reads files whose lines give names values: `NAME=value`, with or without `export` in front. A value
may stand in quotes, between which line ends count as text; one without quotes ends in front of a
comment. A line that cannot be read is left out.

A value may refer to others, of lines above it and of the environment.
-/

namespace Widgetry

/-- A name with its value; a name that stands alone on its line has none. -/
abbrev Assignment := String × Option String

namespace Assignments

open Text (isBlank)

def isLineEnd (c : Char) : Bool := c == '\n' || c == '\r'

/-- A blank that ends no line. -/
def isInnerBlank (c : Char) : Bool := isBlank c && !isLineEnd c

def skipBlanks (cs : List Char) : List Char := cs.dropWhile isInnerBlank

def skipLine (cs : List Char) : List Char := cs.dropWhile (!isLineEnd ·)

/-- The characters up to a closing quote and what follows it, if it is there. An escaped quote closes
only if no other does. -/
def upToQuote? (quote : Char) (read : List Char) : List Char → Option (List Char × List Char)
  | [] => none
  | '\\' :: c :: rest =>
    if c == quote then
      (upToQuote? quote (c :: '\\' :: read) rest).orElse fun _ => some (('\\' :: read).reverse, rest)
    else upToQuote? quote ('\\' :: read) (c :: rest)
  | c :: rest => if c == quote then some (read.reverse, rest) else upToQuote? quote (c :: read) rest
termination_by cs => cs.length

/-- The character that an escape between double quotes denotes. -/
def escaped? (c : Char) : Option Char :=
  [('\\', '\\'), ('\'', '\''), ('"', '"'), ('a', '\x07'), ('b', '\x08'), ('f', '\x0c'), ('n', '\n'),
    ('r', '\r'), ('t', '\t'), ('v', '\x0b')].lookup c

/-- The text between quotes with its escapes resolved. Between single quotes, only the backslash and
the quote can be escaped. -/
def unescape (quote : Char) : List Char → List Char
  | '\\' :: c :: rest =>
    match escaped? c with
    | some d =>
      if quote == '"' || c == '\\' || c == '\'' then d :: unescape quote rest
      else '\\' :: c :: unescape quote rest
    | none => '\\' :: c :: unescape quote rest
  | c :: rest => c :: unescape quote rest
  | [] => []

/-- A value without quotes, less the comment behind it and the blanks at its end. -/
def unquoted (cs : List Char) : List Char :=
  (go false cs).reverse.dropWhile isBlank |>.reverse
where
  go (afterBlank : Bool) : List Char → List Char
    | [] => []
    | c :: rest => if afterBlank && c == '#' then [] else c :: go (isBlank c) rest

/-- The value behind an equals sign and what follows it. -/
def value? (cs : List Char) : Option (List Char × List Char) :=
  match cs with
  | '\'' :: rest => (upToQuote? '\'' [] rest).map fun r => (unescape '\'' r.1, r.2)
  | '"' :: rest => (upToQuote? '"' [] rest).map fun r => (unescape '"' r.1, r.2)
  | _ => some (unquoted (cs.takeWhile (!isLineEnd ·)), skipLine cs)

def name? (cs : List Char) : Option (List Char × List Char) :=
  match cs with
  | '\'' :: rest =>
    let name := rest.takeWhile (· != '\'')
    if name.isEmpty || name.length == rest.length then none
    else some (name, rest.drop (name.length + 1))
  | _ =>
    let isPart (c : Char) : Bool := c != '=' && c != '#' && !isBlank c
    let name := cs.takeWhile isPart
    if name.isEmpty then none else some (name, cs.dropWhile isPart)

/-- What follows `export` and a blank, or else everything. -/
def afterExport (cs : List Char) : List Char :=
  match cs with
  | 'e' :: 'x' :: 'p' :: 'o' :: 'r' :: 't' :: c :: rest =>
    if isInnerBlank c then skipBlanks rest else cs
  | _ => cs

/-- Whether nothing but blanks and a comment stands in front of the end of the line. -/
def endsLine (cs : List Char) : Bool :=
  match skipBlanks cs with
  | [] => true
  | c :: _ => isLineEnd c || c == '#'

/-- The assignment at the front and what follows its line. -/
def next (cs : List Char) : Option Assignment × List Char :=
  let cs := afterExport cs
  match name? cs with
  | none => (none, skipLine cs)
  | some (name, rest) =>
    match skipBlanks rest with
    | '=' :: rest =>
      match value? (skipBlanks rest) with
      | none => (none, skipLine rest)
      | some (v, rest) =>
        if endsLine rest then (some (String.ofList name, some (String.ofList v)), skipLine rest)
        else (none, skipLine rest)
    | rest =>
      if endsLine rest then (some (String.ofList name, none), skipLine rest)
      else (none, skipLine rest)

/-- All assignments; every step reads at least a character. -/
def readAll : Nat → List Char → List Assignment
  | 0, _ => []
  | n + 1, cs =>
    match cs.dropWhile isBlank with
    | [] => []
    | cs =>
      let (a, rest) := next cs
      a.toList ++ readAll n rest

def ofText (text : String) : List Assignment := readAll text.length text.toList

/-! ## References -/

/-- A name in braces behind a dollar sign, the text that stands in for a missing value behind `:-`,
and what follows. -/
def reference? : List Char → Option ((String × String) × List Char)
  | '$' :: '\x7b' :: rest =>
    let isPart (c : Char) : Bool := c != '\x7d' && c != ':'
    let name := String.ofList (rest.takeWhile isPart)
    match rest.dropWhile isPart with
    | '\x7d' :: rest => some ((name, ""), rest)
    | ':' :: '-' :: rest =>
      let isPart (c : Char) : Bool := c != '\x7d'
      match rest.dropWhile isPart with
      | _ :: behind => some ((name, String.ofList (rest.takeWhile isPart)), behind)
      | [] => none
    | _ => none
  | _ => none

/-- Characters with the references among them replaced; every step reads at least one. -/
def expandAll (known : List Assignment) : Nat → List Char → String
  | 0, _ => ""
  | _, [] => ""
  | n + 1, c :: cs =>
    match reference? (c :: cs) with
    | some ((name, other), rest) =>
      (match known.lookup name with
        | some v => v.getD ""
        | none => other) ++ expandAll known n rest
    | none => String.singleton c ++ expandAll known n cs

/-- A value with its references replaced. -/
def expand (known : List Assignment) (value : String) : String :=
  expandAll known value.length value.toList

/-- Gives a name a value, in the place of the one that it had. -/
def put (a : Assignment) : List Assignment → List Assignment
  | [] => [a]
  | b :: rest => if b.1 == a.1 then a :: rest else b :: put a rest

/-- One assignment for each name, with the references replaced. What a line above says counts more
than the environment. -/
def resolve (environment : List (String × String)) (as : List Assignment) : List Assignment :=
  as.foldl (fun known a =>
    put (a.1, a.2.map (expand (known ++ environment.map fun e => (e.1, some e.2)))) known) []

end Assignments

end Widgetry
