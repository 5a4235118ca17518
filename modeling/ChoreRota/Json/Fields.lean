import ChoreRota.Json.Reading

/-!
# Records in JSON

Reading records with named fields. Members come in any order, unknown ones are passed over, and a
missing field is only noticed behind the last member. A record may also be written as an array of
its fields in order.
-/

namespace ChoreRota.Json

/-- Where the value of a field stands: at the start of a text, or in a tree. -/
inductive Located where
  | inText (chars : List Char)
  | inTree (json : Json)

/-- Where the values of the fields of one record stand, by their names. -/
abbrev Members := List (String × Located)

def Reading.located {α : Type} (reading : Reading α) : Located → Except DecodeFault α
  | .inText chars => (reading.ofText chars).map Prod.fst
  | .inTree json => reading.ofTree json

structure RecordField (α : Type) where
  name : String
  reading : Reading α
  fallback : Option α

def RecordField.get {α : Type} (field : RecordField α) (members : Members) :
    Except DecodeFault α :=
  match members.lookup field.name with
  | some value => field.reading.located value
  | none =>
    match field.fallback with
    | some value => .ok value
    | none => .error (.missingField field.name)

/-- A field without the type of its value. -/
structure Slot where
  name : String
  reading : Reading Unit
  isRequired : Bool

def RecordField.slot {α : Type} (field : RecordField α) : Slot where
  name := field.name
  reading := field.reading.map fun _ => ()
  isRequired := field.fallback.isNone

namespace Slot

/-- Reads the members up to a closing brace. Known ones may not repeat. -/
def textMembers (slots : List Slot) :
    Nat → Bool → Members → List Char → Except DecodeFault (Members × List Char)
  | 0, _, _, _ => .error (.malformed .endOfObject)
  | fuel + 1, isFirst, found, chars => do
    match ← formed (nextKey isFirst chars) with
    | (none, rest) => return (found, rest)
    | (some key, rest) =>
      match slots.find? fun slot => slot.name == key with
      | none =>
        let rest ← formed (skipColon rest)
        let rest ← formed (skip rest)
        textMembers slots fuel false found rest
      | some slot =>
        if (found.lookup key).isSome then throw (.duplicateField key)
        let value ← formed (skipColon rest)
        let (_, rest) ← slot.reading.ofText value
        textMembers slots fuel false ((key, .inText value) :: found) rest

def treeMembers (slots : List Slot) : List (String × Json) → Except DecodeFault Members
  | [] => .ok []
  | (key, value) :: rest =>
    match slots.find? fun slot => slot.name == key with
    | none => treeMembers slots rest
    | some slot => do
      slot.reading.ofTree value
      return (key, .inTree value) :: (← treeMembers slots rest)

def checkMissing (slots : List Slot) (members : Members) : Except DecodeFault Unit :=
  match slots.find? fun slot => slot.isRequired && (members.lookup slot.name).isNone with
  | some slot => .error (.missingField slot.name)
  | none => .ok ()

/-- Refuses an array that ends in front of a required field, `position` of which came before. -/
def checkRest (expected : String) (position : Nat) : List Slot → Except DecodeFault Unit
  | [] => .ok ()
  | slot :: slots =>
    if slot.isRequired then .error (.invalidLength position expected)
    else checkRest expected (position + 1) slots

def closeItems (chars : List Char) : Except Flaw (List Char) :=
  match skipSpace chars with
  | [] => .error .endOfList
  | ']' :: rest => .ok rest
  | ',' :: rest =>
    match skipSpace rest with
    | ']' :: _ => .error .trailingComma
    | _ => .error .trailingCharacters
  | _ => .error .trailingCharacters

/-- Reads the items up to a closing bracket as the fields in order. -/
def textItems (expected : String) (position : Nat) :
    List Slot → List Char → Except DecodeFault (Members × List Char)
  | [], chars => do return ([], ← formed (closeItems chars))
  | slot :: slots, chars => do
    match ← formed (nextItem (position == 0) chars) with
    | (false, rest) =>
      checkRest expected position (slot :: slots)
      return ([], rest)
    | (true, value) =>
      let (_, rest) ← slot.reading.ofText value
      let (members, rest) ← textItems expected (position + 1) slots rest
      return ((slot.name, .inText value) :: members, rest)

def treeItems (expected : String) (total position : Nat) :
    List Slot → List Json → Except DecodeFault Members
  | [], [] => .ok []
  | [], _ :: _ => .error (.invalidLength total "fewer elements in array")
  | slot :: slots, [] => do
    checkRest expected position (slot :: slots)
    return []
  | slot :: slots, item :: items => do
    slot.reading.ofTree item
    return (slot.name, .inTree item) :: (← treeItems expected total (position + 1) slots items)

end Slot

/-- A record, built from its members once they are all read. -/
def Reading.record {α : Type} (name : String) (slots : List Slot)
    (build : Members → Except DecodeFault α) : Reading α :=
  let expected := "struct " ++ name ++ " with " ++ toString slots.length ++ " elements"
  { ofText := fun chars =>
      match skipSpace chars with
      | '[' :: rest => do
        let (members, rest) ← Slot.textItems expected 0 slots rest
        return (← build members, rest)
      | '\x7b' :: rest => do
        let (members, rest) ← Slot.textMembers slots (rest.length + 1) true [] rest
        Slot.checkMissing slots members
        return (← build members, rest)
      | chars => (Reading.mismatched ("struct " ++ name)).ofText chars
    ofTree := fun
      | .array items => do build (← Slot.treeItems expected items.length 0 slots items)
      | .object members => do
        let members ← Slot.treeMembers slots members
        Slot.checkMissing slots members
        build members
      | json => mismatch ("struct " ++ name) json }

end ChoreRota.Json
