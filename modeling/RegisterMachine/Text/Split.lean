import RegisterMachine.Text.Blank

/-!
# Cutting text into pieces

* `trim p`: a text without the characters of a class at its two ends.
* `pieces p`: the stretches between the characters of a class, empty ones kept.
* `words p`: the same without the empty ones.
* `lines`: the lines of a text. A carriage return and a line feed after it are one break, and a
  break at the end of the text opens no further line.
* `cutAt c`: what stands before and after the first `c`.
-/

set_option autoImplicit false

namespace RegisterMachine.Text

/-- A text without the characters of class `p` at its two ends. -/
def trim (p : Char → Bool) (cs : List Char) : List Char :=
  ((cs.dropWhile p).reverse.dropWhile p).reverse

/-- A character put before the first piece. -/
def growFirst (c : Char) : List (List Char) → List (List Char)
  | [] => [[c]]
  | w :: ws => (c :: w) :: ws

/-- The stretches of a text between its characters of class `p`; one more than there are such
characters. -/
def pieces (p : Char → Bool) (cs : List Char) : List (List Char) :=
  cs.foldr (fun c ws => if p c then [] :: ws else growFirst c ws) [[]]

/-- The non-empty stretches of a text between its characters of class `p`. -/
def words (p : Char → Bool) (cs : List Char) : List (List Char) :=
  (pieces p cs).filter (!·.isEmpty)

/-- A text in which no line feed follows a carriage return: such a line feed is dropped. -/
def mergeBreaks (cs : List Char) : List Char :=
  ((('\n' :: cs).zip cs).filter fun pc => !(pc.1 == '\r' && pc.2 == '\n')).map (·.2)

/-- A list without its last member if that is empty. -/
def dropEmptyLast (ws : List (List Char)) : List (List Char) :=
  if ws.getLast? == some [] then ws.dropLast else ws

/-- The lines of a text, in order, without their breaks. -/
def lines (cs : List Char) : List (List Char) :=
  dropEmptyLast (pieces isLineBreak (mergeBreaks cs))

/-- What stands before the first `c`, and what stands after it if there is one. -/
def cutAt (c : Char) (cs : List Char) : List Char × Option (List Char) :=
  let before := cs.takeWhile (· != c)
  match cs.drop before.length with
  | [] => (before, none)
  | _ :: after => (before, some after)

end RegisterMachine.Text
