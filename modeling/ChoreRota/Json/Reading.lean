import ChoreRota.Calendar.Rfc3339
import ChoreRota.Fault
import ChoreRota.Json.Reader
import ChoreRota.Numeric.Shortest
import ChoreRota.Text.Digits
import ChoreRota.Text.Quoted

/-!
# Reading typed values from JSON

How values of a type are read, from the start of a text and from a finished tree. A text is read in
the order it is written, up to the first fault: what comes later, even a flaw of the text, is not
looked at.
-/

namespace ChoreRota.Json

inductive Shape where
  | null
  | bool (value : Bool)
  | integer (value : Int)
  | float (isNegative : Bool) (value : Rat)
  | string (text : String)
  | sequence
  | map

def Shape.describe : Shape → String
  | .null => "null"
  | .bool value => "boolean `" ++ (if value then "true" else "false") ++ "`"
  | .integer value => "integer `" ++ toString value ++ "`"
  | .float isNegative value => "floating point `" ++ Binary64.render isNegative value ++ "`"
  | .string text => "string " ++ Text.quoted text
  | .sequence => "sequence"
  | .map => "map"

inductive DecodeFault where
  | invalidType (found : Shape) (expected : String)
  | invalidValue (found : Shape) (expected : String)
  | invalidLength (length : Nat) (expected : String)
  | missingField (name : String)
  | duplicateField (name : String)
  | unknownVariant (name : String) (known : List String)
  | badTimestamp (fault : Rfc3339.Fault)
  | refused (fault : Fault)
  | malformed (flaw : Flaw)

/-- The text of a fault. A refusal ends in the text that is refused; a position at its end would
pass for that of the fault, which is not shown. -/
def DecodeFault.message : DecodeFault → String
  | .invalidType found expected => "invalid type: " ++ found.describe ++ ", expected " ++ expected
  | .invalidValue found expected => "invalid value: " ++ found.describe ++ ", expected " ++ expected
  | .invalidLength length expected =>
    "invalid length " ++ toString length ++ ", expected " ++ expected
  | .missingField name => "missing field `" ++ name ++ "`"
  | .duplicateField name => "duplicate field `" ++ name ++ "`"
  | .unknownVariant name known =>
    "unknown variant `" ++ name ++ "`, expected one of " ++
      ", ".intercalate (known.map fun variant => "`" ++ variant ++ "`")
  | .badTimestamp fault => fault.message
  | .refused fault => Text.withoutPosition (fault.code.name ++ " - " ++ fault.message)
  | .malformed flaw => flaw.message

def formed {α : Type} (step : Except Flaw α) : Except DecodeFault α :=
  step.mapError .malformed

/-- How values of a type are read: from the start of a text, whose rest is left over, and from a
tree. -/
structure Reading (α : Type) where
  ofText : List Char → Except DecodeFault (α × List Char)
  ofTree : Json → Except DecodeFault α

def mismatch {α : Type} (expected : String) (json : Json) : Except DecodeFault α :=
  let found : Shape :=
    match json with
    | .null => .null
    | .bool value => .bool value
    | .integer value => .integer value
    | .float isNegative value => .float isNegative value
    | .string text => .string text
    | .array _ => .sequence
    | .object _ => .map
  .error (.invalidType found expected)

namespace Reading

/-- A value that holds no others. Of an array or an object only the first character is read. -/
def scalar {α : Type} (expected : String) (decode : Json → Except DecodeFault α) : Reading α where
  ofText chars :=
    match skipSpace chars with
    | '[' :: _ => .error (.invalidType .sequence expected)
    | '\x7b' :: _ => .error (.invalidType .map expected)
    | chars => do
      let (json, rest) ← formed (readScalar chars)
      return (← decode json, rest)
  ofTree := decode

/-- No value at all: whatever is found is of another type than expected. -/
def mismatched {α : Type} (expected : String) : Reading α :=
  scalar expected (mismatch expected)

def andThen {α β : Type} (reading : Reading α) (next : α → Except DecodeFault β) : Reading β where
  ofText chars := do
    let (value, rest) ← reading.ofText chars
    return (← next value, rest)
  ofTree json := do next (← reading.ofTree json)

def map {α β : Type} (f : α → β) (reading : Reading α) : Reading β :=
  reading.andThen fun value => .ok (f value)

def within (low high : Int) (expected : String) : Reading Int :=
  scalar expected fun
    | .integer value =>
      if low ≤ value ∧ value ≤ high then .ok value
      else .error (.invalidValue (.integer value) expected)
    | json => mismatch expected json

def int64 : Reading Int64 :=
  (within (-9223372036854775808) 9223372036854775807 "i64").map Int64.ofInt

def int32 : Reading Int32 :=
  (within (-2147483648) 2147483647 "i32").map Int32.ofInt

def nat32 : Reading Nat :=
  (within 0 4294967295 "u32").map Int.toNat

def uint64 (expected : String) : Reading UInt64 :=
  (within 0 18446744073709551615 expected).map fun value => UInt64.ofNat value.toNat

def bool : Reading Bool :=
  scalar "a boolean" fun
    | .bool value => .ok value
    | json => mismatch "a boolean" json

def text (expected : String) : Reading String :=
  scalar expected fun
    | .string text => .ok text
    | json => mismatch expected json

def string : Reading String :=
  text "a string"

/-- The only value that may follow a variant's name. -/
def unit : Reading Unit :=
  scalar "unit" fun
    | .null => .ok ()
    | json => mismatch "unit" json

def timestamp : Reading Timestamp :=
  (text "an RFC3339-formatted `OffsetDateTime`").andThen fun text =>
    (Rfc3339.read text).mapError .badTimestamp

/-- A name that `find?` knows, or the fault of one that it does not. -/
def named {α : Type} (find? : String → Option α) (unknown : String → Fault) : Reading α :=
  string.andThen fun text =>
    match find? text with
    | some value => .ok value
    | none => .error (.refused (unknown text))

def optional {α : Type} (reading : Reading α) : Reading (Option α) where
  ofText chars :=
    match skipSpace chars with
    | 'n' :: rest => do return (none, ← formed (skipName ['u', 'l', 'l'] rest))
    | chars => do
      let (value, rest) ← reading.ofText chars
      return (some value, rest)
  ofTree
    | .null => .ok none
    | json => (reading.ofTree json).map some

def items {α : Type} (reading : Reading α) :
    Nat → Bool → List Char → Except DecodeFault (List α × List Char)
  | 0, _, _ => .error (.malformed .endOfList)
  | fuel + 1, isFirst, chars => do
    match ← formed (nextItem isFirst chars) with
    | (false, rest) => return ([], rest)
    | (true, rest) =>
      let (value, rest) ← reading.ofText rest
      let (values, rest) ← items reading fuel false rest
      return (value :: values, rest)

def list {α : Type} (reading : Reading α) : Reading (List α) where
  ofText chars :=
    match skipSpace chars with
    | '[' :: rest => reading.items (rest.length + 1) true rest
    | chars => (mismatched "a sequence").ofText chars
  ofTree
    | .array values => values.mapM reading.ofTree
    | json => mismatch "a sequence" json

def findVariant {α : Type} (name : α → String) (all : List α) (text : String) :
    Except DecodeFault α :=
  match all.find? fun variant => name variant == text with
  | some variant => .ok variant
  | none => .error (.unknownVariant text (all.map name))

/-- A variant as the key of a null, behind the opening brace. -/
def variantKey {α : Type} (key : Reading α) (chars : List Char) :
    Except DecodeFault (α × List Char) := do
  let (found, rest) ← key.ofText chars
  let rest ← formed (skipColon rest)
  let (_, rest) ← unit.ofText rest
  match skipSpace rest with
  | '\x7d' :: rest => return (found, rest)
  | [] => throw (.malformed .endOfObject)
  | _ => throw (.malformed .expectedValue)

/-- A variant of a choice by its exact name, alone or as the key of a null. -/
def variant {α : Type} (name : α → String) (all : List α) : Reading α :=
  let key := (text "variant identifier").andThen (findVariant name all)
  { ofText := fun chars =>
      match skipSpace chars with
      | '"' :: rest => key.ofText ('"' :: rest)
      | '\x7b' :: rest => variantKey key rest
      | [] => .error (.malformed .endOfValue)
      | _ => .error (.malformed .expectedValue)
    ofTree := fun
      | .string text => findVariant name all text
      | .object [(key, value)] => do
        let found ← findVariant name all key
        unit.ofTree value
        return found
      | .object _ => .error (.invalidValue .map "map with a single key")
      | json => mismatch "string or map" json }

end Reading

def decodeText {α : Type} (reading : Reading α) (text : String) : Except DecodeFault α := do
  let (value, rest) ← reading.ofText text.toList
  formed (checkEnd rest)
  return value

end ChoreRota.Json
