import FormRules.Text.Split
import FormRules.Yaml.Tag
import FormRules.Yaml.Timestamp

/-!
# Scalars that need no tag

A plain scalar without a tag has the tag that its text suggests. One line feed at the end does not
count.
-/

namespace FormRules.Yaml

open Text

/-- The texts that stand for truth values. -/
def truthTexts : List (List Char) :=
  ["yes".toList, "Yes".toList, "YES".toList, "no".toList, "No".toList, "NO".toList, "true".toList,
    "True".toList, "TRUE".toList, "false".toList, "False".toList, "FALSE".toList, "on".toList,
    "On".toList, "ON".toList, "off".toList, "Off".toList, "OFF".toList]

/-- The texts that stand for no value. -/
def nullTexts : List (List Char) := [[], ['~'], "null".toList, "Null".toList, "NULL".toList]

/-- The names of infinity. -/
def infinityTexts : List (List Char) := [".inf".toList, ".Inf".toList, ".INF".toList]

/-- The names of what is not a number. -/
def nanTexts : List (List Char) := [".nan".toList, ".NaN".toList, ".NAN".toList]

/-- A digit or an underscore. -/
def isDigitOrLow (c : Char) : Bool := isAsciiDigit c || c == '_'

/-- The text without a sign at its start. -/
def unsigned : List Char → List Char
  | c :: s => if c == '-' || c == '+' then s else c :: s
  | [] => []

/-- An exponent with a sign, or nothing. -/
def isExponent : List Char → Bool
  | [] => true
  | e :: sign :: s =>
    (e == 'e' || e == 'E') && (sign == '-' || sign == '+') && !s.isEmpty && s.all isAsciiDigit
  | _ => false

/-- Digits and underscores, and then an exponent or nothing. -/
def isFraction (s : List Char) : Bool := isExponent (s.dropWhile isDigitOrLow)

/-- One of sixty: one digit, or two of which the first is below six. -/
def isSixtieth (s : List Char) : Bool :=
  match s with
  | [a] => isAsciiDigit a
  | [a, b] => '0' ≤ a && a ≤ '5' && isAsciiDigit b
  | _ => false

/-- At least one colon, each followed by one of sixty. -/
def areSixtieths (s : List Char) : Bool :=
  match split [':'] s with
  | [] :: p :: ps => (p :: ps).all isSixtieth
  | _ => false

/-- The text of a number with a point, or of an infinity or what is not a number. -/
def isFloatText (s : List Char) : Bool :=
  let u := unsigned s
  let rest := u.dropWhile isDigitOrLow
  let whole := isAsciiDigit (u.headD nul)
  (whole && match rest with
    | '.' :: r => isFraction r
    | _ => false) ||
  (whole &&
    areSixtieths (rest.takeWhile (· != '.')) &&
    match rest.dropWhile (· != '.') with
    | '.' :: r => r.all isDigitOrLow
    | _ => false) ||
  (match s with
    | '.' :: d :: r => isAsciiDigit d && isFraction r
    | _ => false) ||
  infinityTexts.contains u || nanTexts.contains s

/-- The text of a whole number in base two, eight, ten, sixteen or sixty. -/
def isIntText (s : List Char) : Bool :=
  match unsigned s with
  | ['0'] => true
  | '0' :: 'b' :: r => !r.isEmpty && r.all fun c => c == '0' || c == '1' || c == '_'
  | '0' :: 'x' :: r => !r.isEmpty && r.all fun c => (hexValue? c).isSome || c == '_'
  | '0' :: r => r.all fun c => ('0' ≤ c && c ≤ '7') || c == '_'
  | d :: r =>
    let rest := r.dropWhile isDigitOrLow
    '1' ≤ d && d ≤ '9' && (rest.isEmpty || areSixtieths rest)
  | [] => false

/-- The text of a timestamp; a day alone has to be padded. -/
def isTimestampText (s : List Char) : Bool :=
  match Timestamp.read? s with
  | some t => t.time.isSome || t.padded
  | none => false

/-- The text without one line feed at its end. -/
def dropFinalBreak (s : List Char) : List Char :=
  if s.length != 1 && s.getLast? == some '\n' then s.dropLast else s

/-- The tag that a text suggests. -/
def implicitTag (text : List Char) : Tag :=
  let s := dropFinalBreak text
  if truthTexts.contains s then .bool
  else if isFloatText s then .float
  else if isIntText s then .int
  else if s == ['<', '<'] then .merge
  else if nullTexts.contains s then .null
  else if isTimestampText s then .timestamp
  else if s == ['='] then .value
  else if [['!'], ['&'], ['*']].contains s then .unknown
  else .text

end FormRules.Yaml
