import RegisterMachine.Text.Split

/-!
# Paths

`Path.normal` writes a path in the way messages show it: empty parts and single dots are dropped,
two dots are kept, and a path without parts is a dot or the root. Two slashes at the start are kept
apart from one; more count as one.
-/

set_option autoImplicit false

namespace RegisterMachine.CommandLine.Path

/-- The root that a path starts from, if it does. -/
def root (path : List Char) : List Char :=
  match (path.takeWhile (· == '/')).length with
  | 0 => []
  | 2 => ['/', '/']
  | _ => ['/']

/-- The parts of a path that lead anywhere. -/
def parts (path : List Char) : List (List Char) :=
  (Text.words (· == '/') path).filter (· != ['.'])

/-- A path as messages show it. -/
def normal (path : List Char) : List Char :=
  let body := List.intercalate ['/'] (parts path)
  if (root path).isEmpty && body.isEmpty then ['.'] else root path ++ body

end RegisterMachine.CommandLine.Path
