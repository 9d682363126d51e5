import FormRules.RuleFile.Document
import FormRules.World

/-!
# Rule files

A rule file is read as text in YAML, its keys are turned to texts, and it is checked against the
schema of rule documents. Checking it gives the issues; loading it gives the declarations and
message overrides, or ends with the issues. There are three kinds of issues: those of reading the
file, those of its notation, and those of its shape. How YAML is read and how a schema is checked is
up to the `Tools` at hand.
-/

namespace FormRules

/-- What comes of reading the bytes of a file as a YAML text. A document is walked by the values of
its mappings and the items of its lists; what holds itself by way of a tuple does not keep it from
being walked, and stands in the tuple as far as it is written there. -/
inductive Loaded where
  /-- a document that can be walked to its end -/
  | document (v : Value)
  /-- a document in which a mapping or list is reached from itself, or from more of them than the
  stack of the interpreter holds; a key that is too long a number may be met before that -/
  | bottomless (longKey : Bool)
  /-- no document, and this is told as an error of the notation -/
  | malformed
  /-- no document, for a cause that is not told so -/
  | stopped (fault : Fault)

/-- What is not made here but used to read rule files. -/
structure Tools where
  /-- to decode the bytes of a file and read them as a YAML text -/
  load : List Nat → Loaded
  /-- to check documents -/
  check : Checker

/-- A place in the file system, and the bytes of the file there if there is one. -/
structure RuleFile where
  path : String
  content : Option (List Nat)
deriving Repr

/-- What a rule document declares. -/
structure RuleDocument where
  /-- the declared rules by form and field -/
  forms : Table Value (Table Value Value)
  /-- the message overrides -/
  messages : Table Value Value
  /-- the name of the file -/
  source : String

namespace RuleDocument

/-- The entries of a mapping; other values have none. -/
def entriesOf : Value → List (Value × Value)
  | .map es => es
  | _ => []

/-- The entries that a document has under a name. -/
def section? (name : String) (document : Value) : List (Value × Value) :=
  match Table.find (.text name) (entriesOf document) with
  | some v => entriesOf v
  | none => []

/-- The declarations of a document that has the shape of a rule document; a form that declares
nothing has no fields. -/
def ofValue (source : String) (document : Value) : RuleDocument :=
  ⟨Table.mapValues (fun fields => ⟨entriesOf fields⟩) ⟨section? "forms" document⟩,
    ⟨section? "messages" document⟩, source⟩

/-- The declarations of all forms as one value. -/
def formsValue (d : RuleDocument) : Value := .ofTable (d.forms.mapValues .ofTable)

/-- The message overrides as one value. -/
def messagesValue (d : RuleDocument) : Value := .ofTable d.messages

end RuleDocument

namespace RuleFile

/-- A relative path in its plain form: without repeated slashes, a slash at the end, and steps that
stay in place. -/
def plainPath (path : String) : String :=
  let steps := (Text.splitText "/" path).filter fun s => !s.isEmpty && s != "."
  let root :=
    if path.startsWith "//" && !path.startsWith "///" then "//"
    else if path.startsWith "/" then "/" else ""
  let plain := root ++ "/".intercalate steps
  if plain.isEmpty then "." else plain

/-- The name of the file in messages. -/
def name (f : RuleFile) : String := plainPath f.path

/-- An issue of the file as a whole. -/
def issue (f : RuleFile) (message : String) : Issue := ⟨f.name, "", message⟩

/-- The path has the character that ends the names of files for the system, so there is no such
file. -/
def hasNul (f : RuleFile) : Bool := f.path.toList.contains '\x00'

/-- The document that the bytes of the file have come to, with its keys as texts, or the issue that
says why there is none. -/
def readLoaded (f : RuleFile) : Loaded → Attempt (Except Issue Value)
  | .malformed => .ok (.error (f.issue "YAML parse error"))
  | .stopped fault => .error fault
  | .bottomless longKey => .error (if longKey then .tooManyDigits else .tooDeep)
  | .document .null => .ok (.error (f.issue "File is empty or contains only whitespace"))
  | .document document => do return .ok (← document.textKeys)

/-- The document in the file, with its keys as texts, or the issue that keeps it from being read. -/
def read (tools : Tools) (f : RuleFile) : Attempt (Except Issue Value) :=
  if f.hasNul then .error .nulInPath
  else
    match f.content with
    | none => .ok (.error (f.issue "Cannot read file"))
    | some bytes => f.readLoaded (tools.load bytes)

/-- The issues of the file. -/
def check (tools : Tools) (f : RuleFile) : Run (List Issue) := do
  match ← f.read tools with
  | .error issue => return [issue]
  | .ok document =>
    let issues ← RuleDocument.issues tools.check document f.name
    if !issues.isEmpty then Run.log (.schemaIssues f.name issues.length)
    return issues

/-- The declarations of the file, or the issues that it has. -/
def declarations (tools : Tools) (f : RuleFile) : Attempt (Except (List Issue) RuleDocument) := do
  match ← f.read tools with
  | .error issue => return .error [issue]
  | .ok document =>
    match ← RuleDocument.issues tools.check document f.name with
    | [] => return .ok (.ofValue f.name document)
    | issues => return .error issues

/-- Load the file; its issues are a fault. -/
def load (tools : Tools) (f : RuleFile) : Run RuleDocument := do
  match ← f.declarations tools with
  | .error issues => Run.fail (.invalidRuleFile issues)
  | .ok document =>
    Run.log (.loaded document.forms.size document.source)
    return document

end RuleFile

end FormRules
