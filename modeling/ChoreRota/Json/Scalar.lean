import ChoreRota.Json.Number

/-!
# Strings, numbers and names in a text

Reading the values that hold no others, and passing over them where nobody asks for what they hold:
then neither surrogates nor sizes are looked at.
-/

namespace ChoreRota.Json

def isSpace (c : Char) : Bool :=
  c == ' ' || c == '\n' || c == '\t' || c == '\r'

def skipSpace (chars : List Char) : List Char :=
  chars.dropWhile isSpace

def hexValue? (c : Char) : Option Nat :=
  if '0' ≤ c ∧ c ≤ '9' then some (c.toNat - 48)
  else if 'a' ≤ c ∧ c ≤ 'f' then some (c.toNat - 87)
  else if 'A' ≤ c ∧ c ≤ 'F' then some (c.toNat - 55)
  else none

def hexCode? (a b c d : Char) : Option Nat := do
  return (((← hexValue? a) * 16 + (← hexValue? b)) * 16 + (← hexValue? c)) * 16 + (← hexValue? d)

/-- The flaw of an escape whose code has fewer than four characters left in the text. -/
def shortCodeFlaw (rest : List Char) : Flaw :=
  if 4 ≤ (String.ofList rest).utf8ByteSize then .invalidEscape else .endOfString

def simpleEscape? : Char → Option Char
  | '"' => some '"'
  | '\\' => some '\\'
  | '/' => some '/'
  | 'b' => some '\x08'
  | 'f' => some '\x0c'
  | 'n' => some '\n'
  | 'r' => some '\r'
  | 't' => some '\t'
  | _ => none

def isLeading (code : Nat) : Bool := 0xD800 ≤ code && code ≤ 0xDBFF

def isTrailing (code : Nat) : Bool := 0xDC00 ≤ code && code ≤ 0xDFFF

def pairedChar (leading trailing : Nat) : Char :=
  Char.ofNat ((leading - 0xD800) * 0x400 + (trailing - 0xDC00) + 0x10000)

def consChar (c : Char) (result : Except Flaw (List Char × List Char)) :
    Except Flaw (List Char × List Char) :=
  result.map fun (chars, rest) => (c :: chars, rest)

/-- The characters of a string after its opening quote, or after the leading half of a surrogate
pair, and the rest of the text. -/
def readChars (leading : Option Nat) : List Char → Except Flaw (List Char × List Char)
  | [] => .error .endOfString
  | '\\' :: 'u' :: a :: b :: c :: d :: rest =>
    match hexCode? a b c d, leading with
    | none, _ => .error .invalidEscape
    | some code, some leading =>
      if isTrailing code then consChar (pairedChar leading code) (readChars none rest)
      else .error .loneSurrogate
    | some code, none =>
      if isTrailing code then .error .loneSurrogate
      else if isLeading code then readChars (some code) rest
      else consChar (Char.ofNat code) (readChars none rest)
  | '\\' :: c :: rest =>
    if c = 'u' then .error (shortCodeFlaw rest)
    else if leading.isSome then .error .unfinishedSurrogate
    else
      match simpleEscape? c with
      | none => .error .invalidEscape
      | some plain => consChar plain (readChars none rest)
  | c :: rest =>
    if c = '\\' then .error .endOfString
    else if leading.isSome then .error .unfinishedSurrogate
    else if c = '"' then .ok ([], rest)
    else if c.toNat < 32 then .error .controlCharacter
    else consChar c (readChars none rest)

def readString (chars : List Char) : Except Flaw (String × List Char) :=
  (readChars none chars).map fun (chars, rest) => (String.ofList chars, rest)

def skipString : List Char → Except Flaw (List Char)
  | [] => .error .endOfString
  | '\\' :: 'u' :: a :: b :: c :: d :: rest =>
    if (hexCode? a b c d).isSome then skipString rest else .error .invalidEscape
  | '\\' :: c :: rest =>
    if c = 'u' then .error (shortCodeFlaw rest)
    else if (simpleEscape? c).isSome then skipString rest
    else .error .invalidEscape
  | c :: rest =>
    if c = '\\' then .error .endOfString
    else if c = '"' then .ok rest
    else if c.toNat < 32 then .error .controlCharacter
    else skipString rest

def readDigits (chars : List Char) : Except Flaw (List Char × List Char) :=
  let digits := chars.takeWhile Text.isDigit
  if digits.isEmpty then
    .error (if chars.isEmpty then .endOfValue else .invalidNumber)
  else .ok (digits, chars.dropWhile Text.isDigit)

def readFraction : List Char → Except Flaw (List Char × List Char)
  | '.' :: rest => readDigits rest
  | rest => .ok ([], rest)

def readSign : List Char → Int × List Char
  | '+' :: rest => (1, rest)
  | '-' :: rest => (-1, rest)
  | rest => (1, rest)

def readExponent (chars : List Char) : Except Flaw (Option Int × List Char) :=
  match chars with
  | [] => .ok (none, [])
  | c :: rest =>
    if c = 'e' ∨ c = 'E' then do
      let (sign, rest) := readSign rest
      let (digits, rest) ← readDigits rest
      return (some (sign * Text.digitsValue digits), rest)
    else .ok (none, c :: rest)

/-- The parts of a number after its sign; a zero in front is the whole integer part. -/
def readParts (isNegative : Bool) (chars : List Char) : Except Flaw (NumberParts × List Char) := do
  let (whole, rest) ← readDigits chars
  if whole.head? = some '0' ∧ 1 < whole.length then throw .invalidNumber
  let (fraction, rest) ← readFraction rest
  let (exponent, rest) ← readExponent rest
  return (⟨isNegative, whole, fraction, exponent⟩, rest)

def readNumber (isNegative : Bool) (chars : List Char) : Except Flaw (Json × List Char) := do
  let (parts, rest) ← readParts isNegative chars
  return (← parts.value, rest)

/-- The rest of a text behind a number, whose sign is passed already. -/
def skipNumber (chars : List Char) : Except Flaw (List Char) :=
  match readParts false chars with
  | .ok (_, rest) => .ok rest
  | .error _ => .error .invalidNumber

def skipName : List Char → List Char → Except Flaw (List Char)
  | [], rest => .ok rest
  | _ :: _, [] => .error .endOfValue
  | expected :: name, c :: rest =>
    if c = expected then skipName name rest else .error .expectedIdent

/-- A value that holds no others, at the start of a text without leading space. -/
def readScalar (chars : List Char) : Except Flaw (Json × List Char) :=
  match chars with
  | [] => .error .endOfValue
  | 'n' :: rest => (skipName ['u', 'l', 'l'] rest).map fun rest => (.null, rest)
  | 't' :: rest => (skipName ['r', 'u', 'e'] rest).map fun rest => (.bool true, rest)
  | 'f' :: rest => (skipName ['a', 'l', 's', 'e'] rest).map fun rest => (.bool false, rest)
  | '"' :: rest => (readString rest).map fun (text, rest) => (.string text, rest)
  | '-' :: rest => readNumber true rest
  | c :: rest => if Text.isDigit c then readNumber false (c :: rest) else .error .expectedValue

def skipScalar (chars : List Char) : Except Flaw (List Char) :=
  match chars with
  | '"' :: rest => skipString rest
  | '-' :: rest => skipNumber rest
  | c :: rest =>
    if Text.isDigit c then skipNumber (c :: rest) else (readScalar (c :: rest)).map Prod.snd
  | [] => .error .endOfValue

end ChoreRota.Json
