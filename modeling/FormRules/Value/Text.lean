import FormRules.Number.Reader
import FormRules.Text.Printable
import FormRules.Text.Split
import FormRules.Value.Basic

/-!
# The text of a value

A value has a *literal*, which shows what kind of value it is, and a *text*, which is the literal
except for texts (themselves) and for days and moments (their ISO form). A whole number of more than
4300 digits has neither, and so has no collection that holds one.
-/

namespace FormRules

open Text

/-- The hexadecimal digit of a number below 16. -/
def hexDigit (n : Nat) : Char := Char.ofNat (if n < 10 then 48 + n else 87 + n)

/-- A number in hexadecimal with exactly the given number of digits. -/
def hex : Nat → Nat → List Char
  | 0, _ => []
  | width + 1, n => hex width (n / 16) ++ [hexDigit (n % 16)]

/-- A character inside a quoted text. -/
def quotedChar (quote c : Char) : List Char :=
  if c = quote || c = '\\' then ['\\', c]
  else if c = '\t' then ['\\', 't']
  else if c = '\n' then ['\\', 'n']
  else if c = '\r' then ['\\', 'r']
  else if isPrintable c then [c]
  else if c.toNat < 0x100 then '\\' :: 'x' :: hex 2 c.toNat
  else if c.toNat < 0x10000 then '\\' :: 'u' :: hex 4 c.toNat
  else '\\' :: 'U' :: hex 8 c.toNat

/-- The quote of a text: the single one, unless the text holds it and no double one. -/
def quoteOf (s : List Char) : Char :=
  if s.contains '\'' && !s.contains '"' then '"' else '\''

/-- A text in quotes. -/
def quoted (s : List Char) : List Char :=
  let q := quoteOf s
  q :: s.flatMap (quotedChar q) ++ [q]

/-- Bytes in quotes; bytes outside ASCII are shown by their number. -/
def quotedBytes (bs : List Nat) : List Char :=
  let s := bs.map Char.ofNat
  let q := quoteOf s
  let shown (c : Char) : List Char :=
    if c.toNat < 128 then quotedChar q c else '\\' :: 'x' :: hex 2 c.toNat
  'b' :: q :: s.flatMap shown ++ [q]

/-- The decimal text of a whole number. -/
def intText (i : Int) : Attempt String :=
  if i.natAbs < Nat.pow 10 maxDigits then .ok (toString i) else .error .tooManyDigits

/-- Numbers separated by commas. -/
def commaSeparated (ns : List Nat) : String := ", ".intercalate (ns.map toString)

/-- The literal of a distance from universal time. -/
def aheadLiteral (seconds : Int) : String :=
  if seconds = 0 then "datetime.timezone.utc"
  else
    let days := seconds.fdiv 86400
    let rest := seconds.fmod 86400
    "datetime.timezone(datetime.timedelta(" ++
      (if days = 0 then "" else "days=" ++ toString days ++ ", ") ++
      "seconds=" ++ toString rest ++ "))"

/-- The literal of a day. -/
def Date.literal (d : Date) : String :=
  "datetime.date(" ++ commaSeparated [d.year, d.month, d.day] ++ ")"

/-- The literal of a moment; seconds and microseconds are left out while they are zero. -/
def Moment.literal (m : Moment) : String :=
  let fine :=
    if m.clock.micro ≠ 0 then [m.clock.second, m.clock.micro]
    else if m.clock.second ≠ 0 then [m.clock.second]
    else []
  "datetime.datetime(" ++
    commaSeparated
      ([m.date.year, m.date.month, m.date.day, m.clock.hour, m.clock.minute] ++ fine) ++
    (match m.ahead with
      | some seconds => ", tzinfo=" ++ aheadLiteral seconds
      | none => "") ++ ")"

namespace Value

mutual

/-- The literal of a value. -/
def literal : Value → Attempt String
  | null => .ok "None"
  | bool b => .ok (if b then "True" else "False")
  | int i => intText i
  | float d => .ok d.text
  | text s => .ok (String.ofList (quoted s.toList))
  | list xs => do return "[" ++ ", ".intercalate (← literals xs) ++ "]"
  | tuple xs => do
    match ← literals xs with
    | [s] => return "(" ++ s ++ ",)"
    | ss => return "(" ++ ", ".intercalate ss ++ ")"
  | map es => do return "\x7b" ++ ", ".intercalate (← entryLiterals es) ++ "\x7d"
  | set xs => do
    match ← literals xs with
    | [] => return "set()"
    | ss => return "\x7b" ++ ", ".intercalate ss ++ "\x7d"
  | date d => .ok d.literal
  | moment m => .ok m.literal
  | bytes bs => .ok (String.ofList (quotedBytes bs))

/-- The literals of items. -/
def literals : List Value → Attempt (List String)
  | [] => .ok []
  | x :: xs => do
    let s ← x.literal
    return s :: (← literals xs)

/-- The literals of entries. -/
def entryLiterals : List (Value × Value) → Attempt (List String)
  | [] => .ok []
  | (k, v) :: es => do
    let s ← k.literal
    let t ← v.literal
    return (s ++ ": " ++ t) :: (← entryLiterals es)

end

/-- The text of a value. -/
def toText : Value → Attempt String
  | text s => .ok s
  | date d => .ok (String.ofList d.iso)
  | moment m => .ok (String.ofList (m.iso ' '))
  | v => v.literal

/-- The text of a value with truth values in lower case. -/
def plainText : Value → Attempt String
  | bool b => .ok (if b then "true" else "false")
  | v => v.toText

/-- The text of a value, or of its kind if it has none. -/
def shown (v : Value) : String :=
  match v.toText with
  | .ok s => s
  | .error _ => v.kind

/-- The literal of a value, or the name of its kind if it has none. -/
def shownLiteral (v : Value) : String :=
  match v.literal with
  | .ok s => s
  | .error _ => v.kind

@[simp] theorem toText_text (s : String) : (text s).toText = .ok s := rfl

@[simp] theorem plainText_text (s : String) : (text s).plainText = .ok s := rfl

end Value

end FormRules
