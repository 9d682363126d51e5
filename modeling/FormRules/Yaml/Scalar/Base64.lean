/-!
# Base64

Four characters stand for three bytes. Characters that stand for nothing are passed over, and so are
padding marks that come too early; what follows the padding of a group is ignored.
-/

namespace FormRules.Yaml.Base64

/-- The six bits that a character stands for. -/
def sextet? (c : Char) : Option Nat :=
  if 'A' ≤ c && c ≤ 'Z' then some (c.toNat - 65)
  else if 'a' ≤ c && c ≤ 'z' then some (c.toNat - 71)
  else if '0' ≤ c && c ≤ '9' then some (c.toNat + 4)
  else if c = '+' then some 62
  else if c = '/' then some 63
  else none

/-- The bytes of a text from the middle of a group on: the characters of the group so far, the bits
of them that are in no byte yet, and the padding marks just before. -/
def decodeFrom : Nat → Nat → Nat → List Char → Option (List Nat)
  | place, _, _, [] => if place = 0 then some [] else none
  | place, bits, marks, c :: s =>
    if c = '=' then
      if place < 2 then decodeFrom place bits marks s
      else if 4 ≤ place + marks + 1 then some []
      else decodeFrom place bits (marks + 1) s
    else
      match sextet? c with
      | none => decodeFrom place bits marks s
      | some v =>
        match place with
        | 0 => decodeFrom 1 v 0 s
        | 1 => (decodeFrom 2 (v % 16) 0 s).map ((bits * 4 + v / 16) :: ·)
        | 2 => (decodeFrom 3 (v % 4) 0 s).map ((bits * 16 + v / 4) :: ·)
        | _ => (decodeFrom 0 0 0 s).map ((bits * 64 + v) :: ·)

/-- The bytes that a text stands for, unless a group is incomplete at its end. -/
def decode? (s : List Char) : Option (List Nat) := decodeFrom 0 0 0 s

end FormRules.Yaml.Base64
