import ChoreRota.Json.Scalar

/-!
# Passing over values

The rest of a text behind a value that nobody asks for. Its form is checked and nothing else.
-/

namespace ChoreRota.Json

def skipColon (chars : List Char) : Except Flaw (List Char) :=
  match skipSpace chars with
  | ':' :: rest => .ok rest
  | [] => .error .endOfObject
  | _ => .error .expectedColon

mutual

def skipValue : Nat → List Char → Except Flaw (List Char)
  | 0, _ => .error .tooDeep
  | fuel + 1, chars =>
    match skipSpace chars with
    | '[' :: rest => skipItems fuel true rest
    | '\x7b' :: rest => skipMembers fuel true rest
    | rest => skipScalar rest

def skipItems : Nat → Bool → List Char → Except Flaw (List Char)
  | 0, _, _ => .error .tooDeep
  | fuel + 1, isFirst, chars =>
    match skipSpace chars with
    | [] => .error .endOfList
    | ']' :: rest => .ok rest
    | c :: rest =>
      if isFirst then do
        let rest ← skipValue fuel (c :: rest)
        skipItems fuel false rest
      else if c = ',' then do
        let rest ← skipValue fuel rest
        skipItems fuel false rest
      else .error .expectedListEnd

def skipMembers : Nat → Bool → List Char → Except Flaw (List Char)
  | 0, _, _ => .error .tooDeep
  | fuel + 1, isFirst, chars =>
    match skipSpace chars with
    | [] => .error .endOfObject
    | '\x7d' :: rest => .ok rest
    | c :: rest =>
      if isFirst then do
        let rest ← skipMember fuel (c :: rest)
        skipMembers fuel false rest
      else if c = ',' then do
        let rest ← skipMember fuel rest
        skipMembers fuel false rest
      else .error .expectedObjectEnd

def skipMember : Nat → List Char → Except Flaw (List Char)
  | 0, _ => .error .tooDeep
  | fuel + 1, chars =>
    match skipSpace chars with
    | [] => .error .endOfObject
    | '"' :: rest => do
      let rest ← skipString rest
      let rest ← skipColon rest
      skipValue fuel rest
    | _ => .error .keyNotString

end

/-- The rest of a text behind the value that it starts with. -/
def skip (chars : List Char) : Except Flaw (List Char) :=
  skipValue (3 * chars.length + 3) chars

end ChoreRota.Json
