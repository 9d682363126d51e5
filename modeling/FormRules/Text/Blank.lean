import FormRules.Text.CharSet

/-!
# White space

The characters that count as blank, and the trimming of a text at both ends. Every reader of this
library (rules, numbers, dates, empty fields) trims by this one class.
-/

namespace FormRules.Text

/-- The white-space characters: the separators of Unicode, the control characters from tab to
carriage return, the four information separators and the next-line control. -/
def blankRanges : CharSet :=
  [(0x9, 0xd), (0x1c, 0x20), (0x85, 0x85), (0xa0, 0xa0), (0x1680, 0x1680), (0x2000, 0x200a),
    (0x2028, 0x2029), (0x202f, 0x202f), (0x205f, 0x205f), (0x3000, 0x3000)]

/-- A white-space character. -/
def isBlank (c : Char) : Bool := blankRanges.has c

/-- The text without its leading white space. -/
def trimStart (s : List Char) : List Char := s.dropWhile isBlank

/-- The text without its trailing white space. -/
def trimEnd (s : List Char) : List Char := (s.reverse.dropWhile isBlank).reverse

/-- The text without white space at either end. -/
def trim (s : List Char) : List Char := trimEnd (trimStart s)

/-- A text that holds white space only. -/
def isBlankText (s : List Char) : Bool := s.all isBlank

/-- `trim` on strings. -/
def strip (s : String) : String := String.ofList (trim s.toList)

@[simp] theorem toList_strip (s : String) : (strip s).toList = trim s.toList := by
  simp [strip]

end FormRules.Text
