/-!
# Cutting and joining texts

`split` cuts a text at every occurrence of a separator, from left to right and without overlap;
`join` puts a separator between texts. Joining what was cut gives the text back.
-/

namespace FormRules.Text

/-- `part` occurs in `s`. -/
def occursIn (part : List Char) : List Char → Bool
  | [] => part.isEmpty
  | c :: s => part.isPrefixOf (c :: s) || occursIn part s

/-- The pieces of a text between the occurrences of `sep`; the first argument counts the characters
of an occurrence that are still to be passed over. -/
def pieces (sep : List Char) : Nat → List Char → List (List Char)
  | _, [] => [[]]
  | k + 1, _ :: s => pieces sep k s
  | 0, c :: s =>
    if sep.isPrefixOf (c :: s) then [] :: pieces sep (sep.length - 1) s
    else
      match pieces sep 0 s with
      | p :: ps => (c :: p) :: ps
      | [] => [[c]]

/-- The pieces of `s` between the occurrences of `sep`, which is not empty; there is always one. -/
def split (sep s : List Char) : List (List Char) := pieces sep 0 s

/-- The texts with `sep` between each two. -/
def join (sep : List Char) : List (List Char) → List Char
  | [] => []
  | [p] => p
  | p :: q :: ps => p ++ sep ++ join sep (q :: ps)

/-- `split` on strings. -/
def splitText (sep s : String) : List String := (split sep.toList s.toList).map String.ofList

/-- `join` on strings. -/
def joinTexts (sep : String) (ps : List String) : String :=
  String.ofList (join sep.toList (ps.map String.toList))

/-- Every occurrence of `part`, which is not empty, replaced by `new`. -/
def replace (part new s : String) : String := joinTexts new (splitText part s)

/-- The characters that end a line. -/
def isLineEnd (c : Char) : Bool :=
  (0xa ≤ c.toNat && c.toNat ≤ 0xd) || (0x1c ≤ c.toNat && c.toNat ≤ 0x1e) || c.toNat == 0x85 ||
    c.toNat == 0x2028 || c.toNat == 0x2029

/-- The text up to its first line end. -/
def firstLine (s : List Char) : List Char := s.takeWhile fun c => !isLineEnd c

theorem split_ne_nil (sep s : List Char) : split sep s ≠ [] := by
  unfold split
  cases s with
  | nil => simp [pieces]
  | cons c s =>
    unfold pieces
    split
    · simp
    · split <;> simp

end FormRules.Text
