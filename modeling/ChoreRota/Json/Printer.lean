import ChoreRota.Json.Value

/-!
# Writing JSON

The compact form without any space, and the form with one item or member a line, indented by two
spaces. Quotes, backslashes and control characters are escaped, all else stands for itself.
-/

namespace ChoreRota.Json

def hexDigit (value : Nat) : Char :=
  (Nat.toDigits 16 value).headD '0'

def escapeChar (c : Char) : List Char :=
  match c with
  | '"' => ['\\', '"']
  | '\\' => ['\\', '\\']
  | '\x08' => ['\\', 'b']
  | '\x0c' => ['\\', 'f']
  | '\n' => ['\\', 'n']
  | '\r' => ['\\', 'r']
  | '\t' => ['\\', 't']
  | c =>
    if c.toNat < 32 then
      ['\\', 'u', '0', '0', hexDigit (c.toNat / 16), hexDigit (c.toNat % 16)]
    else [c]

def writeString (text : String) : List Char :=
  '"' :: text.toList.flatMap escapeChar ++ ['"']

def writeInteger (value : Int) : List Char :=
  (if value < 0 then ['-'] else []) ++ Nat.toDigits 10 value.natAbs

def writeBool (value : Bool) : List Char :=
  if value then ['t', 'r', 'u', 'e'] else ['f', 'a', 'l', 's', 'e']

def writeNull : List Char :=
  ['n', 'u', 'l', 'l']

mutual

def writeCompact : Json → List Char
  | .null => writeNull
  | .bool value => writeBool value
  | .integer value => writeInteger value
  | .string text => writeString text
  | .array items => '[' :: writeCompactItems items ++ [']']
  | .object members => '\x7b' :: writeCompactMembers members ++ ['\x7d']
  | .float _ _ => writeNull

def writeCompactItems : List Json → List Char
  | [] => []
  | [item] => writeCompact item
  | item :: rest => writeCompact item ++ ',' :: writeCompactItems rest

def writeCompactMembers : List (String × Json) → List Char
  | [] => []
  | [(key, value)] => writeString key ++ ':' :: writeCompact value
  | (key, value) :: rest =>
    writeString key ++ ':' :: writeCompact value ++ ',' :: writeCompactMembers rest

end

def newLine (depth : Nat) : List Char :=
  '\n' :: List.replicate (2 * depth) ' '

mutual

def writePretty (depth : Nat) : Json → List Char
  | .null => writeNull
  | .bool value => writeBool value
  | .integer value => writeInteger value
  | .string text => writeString text
  | .array [] => ['[', ']']
  | .array items => '[' :: writePrettyItems (depth + 1) items ++ newLine depth ++ [']']
  | .object [] => ['\x7b', '\x7d']
  | .object members =>
    '\x7b' :: writePrettyMembers (depth + 1) members ++ newLine depth ++ ['\x7d']
  | .float _ _ => writeNull

def writePrettyItems (depth : Nat) : List Json → List Char
  | [] => []
  | [item] => newLine depth ++ writePretty depth item
  | item :: rest =>
    newLine depth ++ writePretty depth item ++ ',' :: writePrettyItems depth rest

def writePrettyMembers (depth : Nat) : List (String × Json) → List Char
  | [] => []
  | [(key, value)] =>
    newLine depth ++ writeString key ++ ':' :: ' ' :: writePretty depth value
  | (key, value) :: rest =>
    newLine depth ++ writeString key ++ ':' :: ' ' :: writePretty depth value ++
      ',' :: writePrettyMembers depth rest

end

def compact (value : Json) : String :=
  String.ofList (writeCompact value)

def pretty (value : Json) : String :=
  String.ofList (writePretty 0 value)

end ChoreRota.Json
