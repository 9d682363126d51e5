/-!
# What can go wrong

A `Fault` is one cause for which an operation does not answer. The causes that a user of the library
brings about by a wrong set-up have a message of their own; the others are told by their
constructor.
-/

namespace FormRules

/-- One problem found in a rule file or a rule document: where it is and what it is. -/
structure Issue where
  file : String
  path : String
  message : String
deriving DecidableEq, Repr, Inhabited

/-- The issue on one line. -/
def Issue.text (i : Issue) : String :=
  i.file ++ (if i.path.isEmpty then "" else " at " ++ i.path) ++ ": " ++ i.message

/-- The cause of a failed operation. -/
inductive Fault where
  /-- the declarations of rules are not a mapping -/
  | declarationsShape
  /-- the fields of a form are not a mapping -/
  | fieldsShape (form : String)
  /-- an item of a field's rules is not a text -/
  | ruleShape (place kind : String)
  /-- a field's rules are neither a text nor a list -/
  | rulesShape (place kind : String)
  /-- no predicate has the name -/
  | unknownValidation (name : String)
  /-- the accessor holds no value for the field -/
  | fieldNotFound (form field : String)
  /-- a rule file that does not load -/
  | invalidRuleFile (issues : List Issue)
  /-- a value that gives no access to fields -/
  | unusableAccessor (kind : String)
  /-- a predicate was called with more parameters than it takes -/
  | tooManyParameters
  /-- a list, mapping or set as a key -/
  | unhashableKey
  /-- an entry that is no pair where a mapping is made from pairs -/
  | notAPair
  /-- a value that is no text where only a text can be put into a message -/
  | notAText
  /-- an entry of the wrong length where a mapping is made from pairs -/
  | pairLength
  /-- a text is to be cut at an empty delimiter -/
  | emptyDelimiter
  /-- a whole number with too many digits to be read or written -/
  | tooManyDigits
  /-- `nan` has no whole part -/
  | noWholePart
  /-- a text that does not spell the scalar it is meant for -/
  | badScalar
  /-- a code point that is no character -/
  | badCodePoint
  /-- an infinity has no whole part -/
  | infiniteWholePart
  /-- a whole number beyond the doubles -/
  | beyondDoubles
  /-- a code point too large to be considered -/
  | hugeCodePoint
  /-- a value without entries where a mapping is taken apart -/
  | notAMapping
  /-- a context is used where none was given -/
  | noContext
  /-- a field is written that an accessor computes -/
  | inaccessible
  /-- a text that is no timestamp is marked as one -/
  | notATimestamp
  /-- bytes that are no UTF-8 -/
  | notUtf8
  /-- a path with the character that ends the names of files -/
  | nulInPath
  /-- a text that is no truth value is marked as one -/
  | notATruthValue
  /-- nothing has the name -/
  | unknownName (name : String)
  /-- a scalar is empty where a first character is needed -/
  | emptyScalar
  /-- a parameter is used that was not given -/
  | missingParameter
  /-- runs or documents are nested too deeply -/
  | tooDeep
  /-- a predicate failed on purpose -/
  | raised
deriving DecidableEq, Repr

/-- The message of the faults that come from a wrong set-up. -/
def Fault.message : Fault → Option String
  | .declarationsShape => some "Rule declarations must be a mapping of form names"
  | .fieldsShape form => some ("Fields of form '" ++ form ++ "' must be a mapping")
  | .ruleShape place kind =>
    some ("Rule for " ++ place ++ " must be a string, got " ++ kind)
  | .rulesShape place kind =>
    some ("Rules for " ++ place ++ " must be a string or a list of strings, got " ++ kind)
  | .unknownValidation name => some ("Validation does not exist: " ++ name)
  | .fieldNotFound form field => some ("Field '" ++ field ++ "' not found in form '" ++ form ++ "'")
  | .invalidRuleFile issues =>
    some ("Invalid rule file: " ++ "; ".intercalate (issues.map Issue.text))
  | .unusableAccessor kind => some ("Cannot use " ++ kind ++ " as a field accessor")
  | _ => none

/-- The result of an operation that may fail. -/
abbrev Attempt (α : Type) : Type := Except Fault α

end FormRules
