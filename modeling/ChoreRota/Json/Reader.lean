import ChoreRota.Json.Skipping

/-!
# Reading JSON

A text is one value with white space around it. The first flaw in reading order is reported.
-/

namespace ChoreRota.Json

/-- Whether an item comes next, and the text from it on or behind the closing bracket. -/
def nextItem (isFirst : Bool) (chars : List Char) : Except Flaw (Bool × List Char) :=
  match skipSpace chars with
  | [] => .error .endOfList
  | ']' :: rest => .ok (false, rest)
  | c :: rest =>
    if isFirst then .ok (true, c :: rest)
    else if c = ',' then
      match skipSpace rest with
      | [] => .error .endOfValue
      | ']' :: _ => .error .trailingComma
      | rest => .ok (true, rest)
    else .error .expectedListEnd

def nextKey (isFirst : Bool) (chars : List Char) : Except Flaw (Option String × List Char) :=
  match skipSpace chars with
  | [] => .error .endOfObject
  | '\x7d' :: rest => .ok (none, rest)
  | c :: rest =>
    if isFirst then
      if c = '"' then (readString rest).map fun (key, rest) => (some key, rest)
      else .error .keyNotString
    else if c = ',' then
      match skipSpace rest with
      | [] => .error .endOfValue
      | '\x7d' :: _ => .error .trailingComma
      | '"' :: rest => (readString rest).map fun (key, rest) => (some key, rest)
      | _ => .error .keyNotString
    else .error .expectedObjectEnd

mutual

/-- The value at the start of a text, in which values may nest `depth` deep. -/
def readValue : Nat → Nat → List Char → Except Flaw (Json × List Char)
  | 0, _, _ => .error .tooDeep
  | fuel + 1, depth, chars =>
    match skipSpace chars with
    | '[' :: rest =>
      if depth = 0 then .error .tooDeep
      else (readItems fuel (depth - 1) true rest).map fun (items, rest) => (.array items, rest)
    | '\x7b' :: rest =>
      if depth = 0 then .error .tooDeep
      else
        (readMembers fuel (depth - 1) true rest).map fun (members, rest) =>
          (.object (sortMembers members), rest)
    | rest => readScalar rest

def readItems : Nat → Nat → Bool → List Char → Except Flaw (List Json × List Char)
  | 0, _, _, _ => .error .tooDeep
  | fuel + 1, depth, isFirst, chars => do
    match ← nextItem isFirst chars with
    | (false, rest) => return ([], rest)
    | (true, rest) =>
      let (item, rest) ← readValue fuel depth rest
      let (items, rest) ← readItems fuel depth false rest
      return (item :: items, rest)

def readMembers : Nat → Nat → Bool → List Char → Except Flaw (List (String × Json) × List Char)
  | 0, _, _, _ => .error .tooDeep
  | fuel + 1, depth, isFirst, chars => do
    match ← nextKey isFirst chars with
    | (none, rest) => return ([], rest)
    | (some key, rest) =>
      let rest ← skipColon rest
      let (value, rest) ← readValue fuel depth rest
      let (members, rest) ← readMembers fuel depth false rest
      return ((key, value) :: members, rest)

end

def checkEnd (rest : List Char) : Except Flaw Unit :=
  if (skipSpace rest).isEmpty then .ok () else .error .trailingCharacters

/-- A whole text. In an object the members are sorted, and the last of several with one key
counts. -/
def read (text : String) : Except Flaw Json := do
  let chars := text.toList
  let (value, rest) ← readValue (2 * chars.length + 2) nestingLimit chars
  checkEnd rest
  return value

end ChoreRota.Json
