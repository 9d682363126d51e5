import FormRules.Calendar.Date
import FormRules.Fault
import FormRules.Table

/-!
# Values

The values of form fields, rule parameters and rule documents.
-/

namespace FormRules

/-- A value. The entries of a mapping and the members of a set stand in the order of insertion. -/
inductive Value where
  /-- no value -/
  | null
  /-- a truth value -/
  | bool (b : Bool)
  /-- a whole number -/
  | int (i : Int)
  /-- a number in double precision -/
  | float (d : Double)
  /-- a text -/
  | text (s : String)
  /-- a list -/
  | list (items : List Value)
  /-- a tuple -/
  | tuple (items : List Value)
  /-- a mapping -/
  | map (entries : List (Value × Value))
  /-- a set -/
  | set (members : List Value)
  /-- a day -/
  | date (d : Date)
  /-- a moment -/
  | moment (m : Moment)
  /-- a sequence of bytes -/
  | bytes (bs : List Nat)
deriving Inhabited, Repr

namespace Value

/-- The name of a value's kind, as messages give it. -/
def kind : Value → String
  | null => "NoneType"
  | bool _ => "bool"
  | int _ => "int"
  | float _ => "float"
  | text _ => "str"
  | list _ => "list"
  | tuple _ => "tuple"
  | map _ => "dict"
  | set _ => "set"
  | date _ => "date"
  | moment _ => "datetime"
  | bytes _ => "bytes"

/-- The truth value of a value: numbers are true unless zero, and texts and collections unless
empty. -/
def truth : Value → Bool
  | null => false
  | bool b => b
  | int i => i != 0
  | float d => !d.isZero
  | text s => !s.isEmpty
  | list xs | tuple xs | set xs => !xs.isEmpty
  | map es => !es.isEmpty
  | date _ | moment _ => true
  | bytes bs => !bs.isEmpty

mutual

/-- The value can be a key: it holds no list, mapping or set. -/
def hashable : Value → Bool
  | list _ | map _ | set _ => false
  | tuple xs => allHashable xs
  | _ => true

/-- All items can be keys. -/
def allHashable : List Value → Bool
  | [] => true
  | x :: xs => x.hashable && allHashable xs

end

/-- The number that a number or truth value stands for. -/
def number? : Value → Option Double
  | bool b => some (.exactly (if b then 1 else 0))
  | int i => some (.exactly i)
  | float d => some d
  | _ => none

/-- Two moments are equal if they are the same instant, or the same day and time where neither tells
its distance from universal time. -/
def sameMoment (a b : Moment) : Bool :=
  match a.ahead, b.ahead with
  | none, none => a == b
  | some _, some _ => a.instant == b.instant
  | _, _ => false

mutual

/-- Equality of values. Numbers and truth values are compared as numbers; lists and tuples item by
item; two mappings, or two sets, are equal if whatever the one holds is held by the other. -/
def same (a b : Value) : Bool :=
  match a, b with
  | null, null => true
  | text s, text t => s == t
  | list xs, list ys => sameItems xs ys
  | tuple xs, tuple ys => sameItems xs ys
  | map es, map fs => entriesIn es fs && fs.all fun f => entryIn es f
  | set xs, set ys => membersIn xs ys && ys.all fun y => memberIn xs y
  | date a, date b => a == b
  | moment a, moment b => sameMoment a b
  | bytes a, bytes b => a == b
  | a, b =>
    match a.number?, b.number? with
    | some x, some y => x.equal y
    | _, _ => false
termination_by structural a

/-- Equal items at equal places. -/
def sameItems (xs ys : List Value) : Bool :=
  match xs, ys with
  | [], [] => true
  | x :: xs, y :: ys => x.same y && sameItems xs ys
  | _, _ => false
termination_by structural xs

/-- Every entry of the first list is in the second. -/
def entriesIn (es fs : List (Value × Value)) : Bool :=
  match es with
  | [] => true
  | (k, v) :: es => (fs.any fun f => k.same f.1 && v.same f.2) && entriesIn es fs
termination_by structural es

/-- The entry is in the list. -/
def entryIn (es : List (Value × Value)) (f : Value × Value) : Bool :=
  match es with
  | [] => false
  | (k, v) :: es => (k.same f.1 && v.same f.2) || entryIn es f
termination_by structural es

/-- Every member of the first list is in the second. -/
def membersIn (xs ys : List Value) : Bool :=
  match xs with
  | [] => true
  | x :: xs => (ys.any fun y => x.same y) && membersIn xs ys
termination_by structural xs

/-- The member is in the list. -/
def memberIn (xs : List Value) (y : Value) : Bool :=
  match xs with
  | [] => false
  | x :: xs => x.same y || memberIn xs y
termination_by structural xs

end

instance : BEq Value := ⟨same⟩

theorem beq_def (a b : Value) : (a == b) = a.same b := rfl

/-- Membership in a list of values. -/
theorem memberIn_eq_any (xs : List Value) (y : Value) :
    memberIn xs y = xs.any fun x => x.same y := by
  induction xs with
  | nil => rfl
  | cons x xs ih => simp [memberIn, ih]

/-- A set of the given members, each taken once. -/
def setOf (xs : List Value) : Value :=
  .set (xs.foldl (fun ms x => if memberIn ms x then ms else ms ++ [x]) [])

/-- The table as a mapping. -/
def ofTable (t : Table Value Value) : Value := map t.entries

end Value

/-- A key that can be looked up, or the fault of one that cannot. -/
def Value.asKey (v : Value) : Attempt Value :=
  if v.hashable then .ok v else .error .unhashableKey

end FormRules
