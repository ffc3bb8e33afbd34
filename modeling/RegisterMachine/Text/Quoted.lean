import RegisterMachine.Text.Printable

/-!
# Quoted text

`quoted cs` puts a text between quotes so that its ends and its invisible characters can be seen.
Single quotes are used unless the text holds a single quote and no double one. The backslash, the
quote in use, tab, line feed and carriage return are escaped by a letter or themselves, any other
unprintable character by its code in the fewest of two, four or eight hexadecimal digits.
-/

set_option autoImplicit false

namespace RegisterMachine.Text

/-- The quote for a text. -/
def quoteFor (cs : List Char) : Char :=
  if cs.contains '\'' && !cs.contains '"' then '"' else '\''

/-- A code in hexadecimal digits, filled with zeros up to a width. -/
def hex (width n : Nat) : List Char :=
  let ds := Nat.toDigits 16 n
  List.replicate (width - ds.length) '0' ++ ds

/-- A character inside quotes. -/
def escaped (quote c : Char) : List Char :=
  if c == quote || c == '\\' then ['\\', c]
  else if c == '\t' then ['\\', 't']
  else if c == '\n' then ['\\', 'n']
  else if c == '\r' then ['\\', 'r']
  else if isPrintable c then [c]
  else if c.toNat < 0x100 then '\\' :: 'x' :: hex 2 c.toNat
  else if c.toNat < 0x10000 then '\\' :: 'u' :: hex 4 c.toNat
  else '\\' :: 'U' :: hex 8 c.toNat

/-- A text between quotes. -/
def quoted (cs : List Char) : List Char :=
  let quote := quoteFor cs
  quote :: (cs.flatMap (escaped quote) ++ [quote])

end RegisterMachine.Text
