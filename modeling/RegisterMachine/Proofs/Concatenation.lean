import RegisterMachine.Proofs.Assembly
import RegisterMachine.Proofs.Text.Cutting

/-!
# Texts put one below the other

A text that goes on behind a line feed is read as its two parts are, one after the other. What the
second part says stands in later lines, by as many as the first part has, its line feed counted: a
carriage return at the end of the first part and the line feed are one break.

* `Row.below`, `SyntaxError.below`: a row, and a mistake, that stand some lines further down.

Principal results: `Row.ofLines_append` (lines are read one after the other, up to the first that is
wrong), `Row.ofLines_add` (what they say does not depend on where they stand) and
`Row.parse_append_newline`.
-/

set_option autoImplicit false

namespace RegisterMachine

open Text

/-- A mistake that stands `d` lines further down. -/
def SyntaxError.below (d : Nat) (e : SyntaxError) : SyntaxError := { e with line := e.line + d }

namespace Row

/-- A row that stands `d` lines further down. -/
def below (d : Nat) (r : Row) : Row := { r with line := r.line + d }

/-- Lines are read one after the other, up to the first that is wrong. -/
theorem ofLines_append (n : Nat) (ls ms : List (List Char)) :
    ofLines n (ls ++ ms) =
      (ofLines n ls).bind fun above => (ofLines (n + ls.length) ms).map (above ++ ·) := by
  induction ls generalizing n with
  | nil =>
    show ofLines n ms = (ofLines n ms).map ([] ++ ·)
    cases ofLines n ms <;> rfl
  | cons l ls ih =>
    rw [List.cons_append, ofLines, ofLines, ih (n + 1), List.length_cons, Nat.add_right_comm]
    cases Statement.ofLine l with
    | error cause => rfl
    | ok s =>
      cases s with
      | none => rfl
      | some s =>
        -- the row of this line stands above those of the others
        cases ofLines (n + 1) ls with
        | error e => rfl
        | ok above => cases ofLines (n + ls.length + 1) ms <;> rfl

theorem ofLines_add (n d : Nat) (ls : List (List Char)) :
    ofLines (n + d) ls = ((ofLines n ls).map (List.map (below d))).mapError (·.below d) := by
  induction ls generalizing n with
  | nil => rfl
  | cons l ls ih =>
    rw [ofLines, ofLines, Nat.add_right_comm, ih (n + 1)]
    cases Statement.ofLine l with
    | error cause => rfl
    | ok s =>
      cases s with
      | none => rfl
      | some s => cases ofLines (n + 1) ls <;> rfl

theorem ofLines_concat_nil (n : Nat) (ls : List (List Char)) :
    ofLines n (ls ++ [[]]) = ofLines n ls := by
  rw [ofLines_append]
  have hempty : ofLines (n + ls.length) [[]] = .ok [] := rfl
  rw [hempty]
  cases ofLines n ls with
  | error e => rfl
  | ok rows => exact congrArg Except.ok (List.append_nil rows)

theorem parse_concat_newline (t : List Char) : parse (t ++ ['\n']) = parse t := by
  unfold parse
  rcases lines_concat_newline t with hlines | hlines
  · rw [hlines]
  · rw [hlines, ofLines_concat_nil]

/-- **Reading follows the text.** What is wrong with the first part is wrong with the whole, in the
same line; otherwise what is wrong with the second part is, below the lines of the first; otherwise
the rows of the two parts follow each other, those of the second below the lines of the first. -/
theorem parse_append_newline (t u : List Char) :
    parse (t ++ '\n' :: u) =
      match parse t with
      | .error e => .error e
      | .ok above =>
        match parse u with
        | .error e => .error (e.below (lines (t ++ ['\n'])).length)
        | .ok rows => .ok (above ++ rows.map (below (lines (t ++ ['\n'])).length)) := by
  have hfirst : ofLines 1 (lines (t ++ ['\n'])) = parse t := parse_concat_newline t
  have hsecond := ofLines_add 1 (lines (t ++ ['\n'])).length (lines u)
  rw [parse, lines_append_newline, ofLines_append, hfirst, hsecond]
  cases parse t with
  | error e => rfl
  | ok above =>
    unfold parse
    cases ofLines 1 (lines u) <;> rfl

/-- A carriage return before the line feed is no line of its own: the second part begins in the
second line. -/
example : parse "x:\r\ny:".toList =
    .ok [⟨1, .label "x".toList⟩, ⟨2, .label "y".toList⟩] := by decide +kernel

end Row

end RegisterMachine
