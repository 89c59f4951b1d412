import Widgetry.Text.Quoted

/-!
# Text in JSON

A text between double quotes, in which the quote, the backslash and all control characters are
escaped. The ASCII form also escapes what lies outside the printable ASCII characters, those beyond
the basic plane as two halves.
-/

namespace Widgetry.Json

/-- The escape of a character that has a short one. -/
def shortEscape? (c : Char) : Option Char :=
  [('"', '"'), ('\\', '\\'), ('\x08', 'b'), ('\t', 't'), ('\n', 'n'), ('\x0c', 'f'), ('\r', 'r')].lookup c

/-- The escape of a number of sixteen bits. -/
def unitEscape (n : Nat) : List Char := '\\' :: 'u' :: Text.hexDigits 4 n

def escapeChar (c : Char) : List Char :=
  match shortEscape? c with
  | some e => ['\\', e]
  | none => if c.toNat < 0x20 then unitEscape c.toNat else [c]

/-- The escape of any character in units of sixteen bits. -/
def unitEscapes (c : Char) : List Char :=
  if c.toNat < 0x10000 then unitEscape c.toNat
  else
    let n := c.toNat - 0x10000
    unitEscape (0xd800 + n / 0x400) ++ unitEscape (0xdc00 + n % 0x400)

def escapeCharAscii (c : Char) : List Char :=
  match shortEscape? c with
  | some e => ['\\', e]
  | none => if ' ' ≤ c ∧ c ≤ '~' then [c] else unitEscapes c

def quoted (s : String) : String :=
  String.ofList ('"' :: s.toList.flatMap escapeChar ++ ['"'])

def quotedAscii (s : String) : String :=
  String.ofList ('"' :: s.toList.flatMap escapeCharAscii ++ ['"'])

end Widgetry.Json
