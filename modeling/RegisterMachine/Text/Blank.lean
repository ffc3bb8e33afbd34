import RegisterMachine.Text.Ranges

/-!
# Blank characters

* `isBlank`: what separates words and is trimmed from lines.
* `isMargin`: what may stand around a number literal. The four information separators are blank
  and yet no margin.
* `isLineBreak`: what ends a line; a line feed after a carriage return ends no second one.
-/

set_option autoImplicit false

namespace RegisterMachine.Text

/-- Every character that counts as white space. -/
def blankRanges : Array (Nat × Nat) :=
  #[(0x09, 0x0D), (0x1C, 0x20), (0x85, 0x85), (0xA0, 0xA0), (0x1680, 0x1680), (0x2000, 0x200A),
    (0x2028, 0x2029), (0x202F, 0x202F), (0x205F, 0x205F), (0x3000, 0x3000)]

/-- White space. -/
def isBlank (c : Char) : Bool := inRanges blankRanges c

/-- White space around a number literal: all but the information separators. -/
def isMargin (c : Char) : Bool := isBlank c && !(0x1C ≤ c.toNat && c.toNat ≤ 0x1F)

/-- The characters at which a text is cut into lines. -/
def lineBreakRanges : Array (Nat × Nat) :=
  #[(0x0A, 0x0D), (0x1C, 0x1E), (0x85, 0x85), (0x2028, 0x2029)]

/-- A character that ends a line. -/
def isLineBreak (c : Char) : Bool := inRanges lineBreakRanges c

/-- A comma or a blank: what stands between the words of an instruction. -/
def isSeparator (c : Char) : Bool := c == ',' || isBlank c

end RegisterMachine.Text
