import DiceNotation.Fault
/-!
# Filling in the faces of throws

The canonical text of a tree has a placeholder `%s` for each throw.  The
faces of the throws fill them in order, each throw's faces joined by
commas; a placeholder without a throw, such as one in a branch that was not
taken, shows `?`, and throws beyond the placeholders are left out.
-/

namespace DiceNotation.Faces

/-- The pieces of a text between its placeholders, scanning from the left. -/
def pieces : List Char → List (List Char)
  | [] => [[]]
  | '%' :: 's' :: rest => [] :: pieces rest
  | c :: rest =>
    match pieces rest with
    | first :: others => (c :: first) :: others
    | [] => [[c]]

/-- The faces of one throw, joined by commas. -/
def text (faces : List Int) : String :=
  ", ".intercalate (faces.map intText)

/-- A text with its placeholders filled by the faces of the throws, in order. -/
def fill (template : String) (throws : List (List Int)) : String :=
  match pieces template.toList with
  | [] => ""
  | first :: rest =>
    let shown := throws.map text ++ List.replicate (rest.length - throws.length) "?"
    String.ofList first ++ String.join (List.zipWith (fun f p => f ++ String.ofList p) shown rest)

example : fill "%%s" [[4]] = "%4" ∧ fill "%s%s%s" [[1]] = "1??" := by decide

end DiceNotation.Faces
