import BackgroundTasks.Json.Value

/-!
# Records in JSON

A record is written as an object of its fields. Reading is strict about what it knows and
indifferent to the rest: a known field may not come twice, a required one may not be missing, and
unknown ones are passed over. Records that are not nested into another one may also be written as
an array of their fields in order.

Some records take in the members of others. Then members are set aside before anyone reads them,
and what is set aside has to be readable itself: strings that spell a text, numbers within range,
and no deeper nesting than the reader allows.
-/

namespace BackgroundTasks.Json

/--
How many arrays and objects may be open in a text where a value is set aside, those around the
value included.
-/
def nestingLimit : Nat := 127

mutual

/-- A value that can be set aside with `depth` levels to spare; a word stays a word, and every
other number becomes a float. -/
def keepable (depth : Nat) : Json → Bool
  | string s => s.isSome
  | number n => (word? (number n)).isSome || (float? (number n)).isSome
  | array items => 1 < depth && keepableItems (depth - 1) items
  | object members => 1 < depth && keepableMembers (depth - 1) members
  | _ => true

/-- Items that can all be set aside. -/
def keepableItems (depth : Nat) : List Json → Bool
  | [] => true
  | v :: r => keepable depth v && keepableItems depth r

/-- Members that can all be set aside. -/
def keepableMembers (depth : Nat) : List (Option String × Json) → Bool
  | [] => true
  | (k, v) :: r => k.isSome && keepable depth v && keepableMembers depth r

end

/-- The fields of a record as they were found. -/
structure Fields where
  /-- Whether they came as an array, where no field but a defaulted one can be left out. -/
  positional : Bool
  found : List (String × Json)

namespace Fields

/-- A field's value. -/
def find? (f : Fields) (name : String) : Option Json := f.found.lookup name

/-- A field that has to be there. -/
def required {α : Type} (f : Fields) (name : String) (read : Json → Option α) : Option α :=
  (f.find? name).bind read

/-- A field that may be null, which is also what a missing member counts as. -/
def optional {α : Type} (f : Fields) (name : String) (read : Json → Option α) :
    Option (Option α) :=
  match f.find? name with
  | none => if f.positional then none else some none
  | some null => some none
  | some v => (read v).map some

/-- A field that has a default. -/
def defaulted {α : Type} (f : Fields) (name : String) (default : α) (read : Json → Option α) :
    Option α :=
  match f.find? name with
  | none => some default
  | some v => read v

end Fields

/-- Whether a name occurs at most once. -/
def occursOnce (members : List (String × Json)) (name : String) : Bool :=
  (members.filter (·.1 == name)).length ≤ 1

/-- The members of an object whose names are all readable. -/
def namedMembers? (members : List (Option String × Json)) : Option (List (String × Json)) :=
  members.mapM fun (name, value) => name.map (·, value)

/-- The fields of a record written as an object. -/
def objectFields? (names : List String) : Json → Option Fields
  | object members => do
    let members ← namedMembers? members
    if names.all (occursOnce members) then some { positional := false, found := members } else none
  | _ => none

/-- The fields of a record, written as an object or as an array. -/
def fields? (names : List String) : Json → Option Fields
  | array items =>
    if items.length ≤ names.length then some { positional := true, found := names.zip items }
    else none
  | v => objectFields? names v

/--
The fields of a record that takes in others: `own` are its own, `inner` those of the records it
takes in. Every member but its own is set aside first, with `depth` levels to spare for the record.
-/
def mergedFields? (depth : Nat) (own inner : List String) (v : Json) : Option Fields := do
  let f ← objectFields? (own ++ inner) v
  if f.found.all fun (name, value) => own.contains name || keepable depth value then some f
  else none

/-- One of several names, written as a string or as an object with null under the name. -/
def choice? {α : Type} (choices : List (String × α)) : Json → Option α
  | string (some s) => choices.lookup s
  | object [(some s, null)] => choices.lookup s
  | _ => none

end BackgroundTasks.Json
