import FormRules.Predicate.Characters
import FormRules.Text.Digit
import FormRules.Text.Split

/-!
# Formats

The predicates for electronic addresses.
-/

namespace FormRules

open Text

namespace Pattern

open Predicate

/-- The character itself. -/
def lit (c : Char) : Piece := .one (· == c)

/-- A letter of either case; the long s counts as an s. -/
def letter (lower upper : Char) (c : Char) : Bool :=
  c == lower || c == upper || (lower == 's' && c == '\u017f')

/-- A character of the part of an e-mail address before the at sign. -/
def isLocal (c : Char) : Bool := isAlphanumeric c || ['.', '_', '%', '+', '-'].contains c

/-- A character of a host name. -/
def isHost (c : Char) : Bool := isAlphanumeric c || c == '.' || c == '-'

/-- An e-mail address: a local part, an at sign, and a host name that ends in a dot and at least two
letters. -/
def email : List Piece :=
  atLeastOne isLocal ++ lit '@' :: atLeastOne isHost ++
    [lit '.', .one isLetter, .one isLetter, .many isLetter]

/-- The first character after the scheme of a URL. -/
def isAuthorityStart (c : Char) : Bool :=
  !isBlank c && !(['/', '$', '.', '?', '#'].contains c)

/-- A URL: an `http` or `https` scheme in any case, a character that may begin an authority, any
character but a line feed, and no white space after that. -/
def url : List Piece :=
  [.one (letter 'h' 'H'), .one (letter 't' 'T'), .one (letter 't' 'T'), .one (letter 'p' 'P'),
    .maybe (letter 's' 'S'), lit ':', lit '/', lit '/', .one isAuthorityStart, .one (· != '\n'),
    .many fun c => !isBlank c]

end Pattern

namespace Predicate

/-- The value is an e-mail address. -/
def email : Value → List Value → Check Bool := ofPattern Pattern.email

/-- The value is a URL. -/
def url : Value → List Value → Check Bool := ofPattern Pattern.url

/-- A number from 0 to 255 in ASCII digits without leading zeros. -/
def isOctet (s : List Char) : Bool :=
  !s.isEmpty && s.all isAsciiDigit && s.length ≤ 3 && (s == ['0'] || s.head? != some '0') &&
    valueOf 10 (s.map fun c => c.toNat - 48) ≤ 255

/-- Four numbers from 0 to 255 between dots. -/
def isIpv4 (s : List Char) : Bool :=
  let parts := split ['.'] s
  parts.length == 4 && parts.all isOctet

/-- The value is an IPv4 address; a value that has no text is none. -/
def ipvFour (value : Value) : List Value → Check Bool
  | [] =>
    if value.isEmpty then return true
    else
      match value.plainText with
      | .ok s => return isIpv4 (trim s.toList)
      | .error _ => return false
  | _ => Check.fail .tooManyParameters

end Predicate

end FormRules
