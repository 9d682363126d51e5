/-!
# Patterns

A pattern is a list of pieces, each of which takes one character, at most one, or any number of
characters of a class. A text fits a pattern if the pieces can take all of it, or all but one final
line feed.
-/

namespace FormRules

/-- A piece of a pattern. -/
inductive Piece where
  /-- one character of the class -/
  | one (accepts : Char → Bool)
  /-- one character of the class or none -/
  | maybe (accepts : Char → Bool)
  /-- any number of characters of the class -/
  | many (accepts : Char → Bool)

namespace Pattern

/-- Any number of characters of the class, and then a text that the rest accepts. -/
def fitsMany (accepts : Char → Bool) (rest : List Char → Bool) : List Char → Bool
  | [] => rest []
  | c :: s => rest (c :: s) || (accepts c && fitsMany accepts rest s)

/-- The text fits the pattern. -/
def fits : List Piece → List Char → Bool
  | [], s => s == [] || s == ['\n']
  | .one accepts :: ps, s =>
    match s with
    | c :: t => accepts c && fits ps t
    | [] => false
  | .maybe accepts :: ps, s =>
    fits ps s ||
      match s with
      | c :: t => accepts c && fits ps t
      | [] => false
  | .many accepts :: ps, s => fitsMany accepts (fits ps) s

/-- At least one character of the class. -/
def atLeastOne (accepts : Char → Bool) : List Piece := [.one accepts, .many accepts]

end Pattern

end FormRules
