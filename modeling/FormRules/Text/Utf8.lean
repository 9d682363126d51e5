/-!
# UTF-8

The bytes of a text, as numbers below 256, and the strict reading of bytes: overlong forms,
surrogates and code points beyond `0x10ffff` are refused.
-/

namespace FormRules.Text

/-- The bytes of one code point. -/
def utf8Char (n : Nat) : List Nat :=
  if n < 0x80 then [n]
  else if n < 0x800 then [0xc0 + n / 64, 0x80 + n % 64]
  else if n < 0x10000 then [0xe0 + n / 4096, 0x80 + n / 64 % 64, 0x80 + n % 64]
  else [0xf0 + n / 262144, 0x80 + n / 4096 % 64, 0x80 + n / 64 % 64, 0x80 + n % 64]

/-- The bytes of a text. -/
def utf8 (s : List Char) : List Nat := s.flatMap fun c => utf8Char c.toNat

/-- A byte that continues a character. -/
def isContinuation (b : Nat) : Bool := 0x80 ≤ b && b < 0xc0

/-- The number of bytes that continue the character opened by a byte, the bits that the first byte
contributes, and the least code point that needs so many bytes. -/
def opening? (b : Nat) : Option (Nat × Nat × Nat) :=
  if b < 0x80 then some (0, b, 0)
  else if 0xc2 ≤ b && b < 0xe0 then some (1, b - 0xc0, 0x80)
  else if 0xe0 ≤ b && b < 0xf0 then some (2, b - 0xe0, 0x800)
  else if 0xf0 ≤ b && b < 0xf5 then some (3, b - 0xf0, 0x10000)
  else none

/-- A code point that is a character. -/
def isScalar (n : Nat) : Bool := n < 0xd800 || (0xe000 ≤ n && n < 0x110000)

/-- The characters of bytes in the middle of a character: how many bytes are missing, the code point
so far, and the least code point allowed. -/
def decodeFrom : Nat → Nat → Nat → List Nat → Option (List Char)
  | 0, _, _, [] => some []
  | _ + 1, _, _, [] => none
  | 0, _, _, b :: bs =>
    match opening? b with
    | some (0, n, _) => (decodeFrom 0 0 0 bs).map (Char.ofNat n :: ·)
    | some (k + 1, n, least) => decodeFrom (k + 1) n least bs
    | none => none
  | k + 1, n, least, b :: bs =>
    if isContinuation b then
      let n := n * 64 + (b - 0x80)
      if k = 0 then
        if least ≤ n && isScalar n then (decodeFrom 0 0 0 bs).map (Char.ofNat n :: ·) else none
      else decodeFrom k n least bs
    else none

/-- The characters that bytes spell, if they spell any. -/
def decodeUtf8? (bytes : List Nat) : Option (List Char) := decodeFrom 0 0 0 bytes

/-- The text with every line end of two characters, and every carriage return, as one line feed. -/
def unifyLineEnds : List Char → List Char
  | '\r' :: '\n' :: s => '\n' :: unifyLineEnds s
  | '\r' :: s => '\n' :: unifyLineEnds s
  | c :: s => c :: unifyLineEnds s
  | [] => []

end FormRules.Text
