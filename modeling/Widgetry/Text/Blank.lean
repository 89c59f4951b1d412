import Widgetry.Text.Ranges

/-!
# Blanks

The characters that leave room between words: spaces of all widths, tabs, line ends, and the control
characters that separate parts of a file.
-/

namespace Widgetry.Text

def blanks : Ranges := ⟨#[
  0x9, 0xe, 0x1c, 0x21, 0x85, 0x86, 0xa0, 0xa1, 0x1680, 0x1681, 0x2000, 0x200b, 0x2028, 0x202a,
  0x202f, 0x2030, 0x205f, 0x2060, 0x3000, 0x3001]⟩

def isBlank (c : Char) : Bool := blanks.contains c

end Widgetry.Text
