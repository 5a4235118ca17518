/-!
# Decimal digits

Reading ASCII digits, and the reason why a text is no 64-bit integer. A text is judged from left to
right, so a number that is already too large is reported before a later character that is no digit.
-/

namespace ChoreRota.Text

def digit? (c : Char) : Option Nat :=
  if '0' ≤ c ∧ c ≤ '9' then some (c.toNat - 48) else none

def isDigit (c : Char) : Bool :=
  (digit? c).isSome

def digitsValue (digits : List Char) : Nat :=
  digits.foldl (fun total c => total * 10 + (c.toNat - 48)) 0

def takeDigits (count : Nat) (chars : List Char) : Option (Nat × List Char) :=
  let front := chars.take count
  if front.length = count ∧ front.all isDigit then some (digitsValue front, chars.drop count)
  else none

/-- At least `width` digits, filled up with zeros on the left. -/
def padded (width value : Nat) : List Char :=
  let digits := Nat.toDigits 10 value
  List.replicate (width - digits.length) '0' ++ digits

inductive IntegerFault where
  | empty
  | invalidDigit
  | tooLarge
  | tooSmall
  deriving DecidableEq, Repr

def IntegerFault.message : IntegerFault → String
  | .empty => "cannot parse integer from empty string"
  | .invalidDigit => "invalid digit found in string"
  | .tooLarge => "number too large to fit in target type"
  | .tooSmall => "number too small to fit in target type"

/-- Reads digits after `total`, refusing the first step past `limit`. -/
def readDigits (limit : Nat) (excess : IntegerFault) : List Char → Nat → Except IntegerFault Nat
  | [], total => .ok total
  | c :: rest, total =>
    match digit? c with
    | none => .error .invalidDigit
    | some d =>
      if limit < total * 10 + d then .error excess
      else readDigits limit excess rest (total * 10 + d)

def readMagnitude (limit : Nat) (excess : IntegerFault) : List Char → Except IntegerFault Nat
  | [] => .error .invalidDigit
  | digits => readDigits limit excess digits 0

/-- An optional plus sign and digits, up to 64 bits. -/
def readUnsigned (chars : List Char) : Except IntegerFault Nat :=
  match chars with
  | [] => .error .empty
  | '+' :: digits => readMagnitude 18446744073709551615 .tooLarge digits
  | digits => readMagnitude 18446744073709551615 .tooLarge digits

/-- An optional sign and digits, up to 64 bits with the sign. -/
def readSigned (chars : List Char) : Except IntegerFault Int :=
  match chars with
  | [] => .error .empty
  | '+' :: digits => return (← readMagnitude 9223372036854775807 .tooLarge digits : Nat)
  | '-' :: digits => return -(← readMagnitude 9223372036854775808 .tooSmall digits : Nat)
  | digits => return (← readMagnitude 9223372036854775807 .tooLarge digits : Nat)

/-- What stands in front of a number at the end of a text, if there is one behind these words. -/
def withoutNumber? (words : String) (text : List Char) : Option (List Char) :=
  let front := (text.reverse.dropWhile isDigit).reverse
  if front.length < text.length ∧ words.toList.isSuffixOf front then
    some (front.take (front.length - words.length))
  else none

def withoutPosition (message : String) : String :=
  let front? := do withoutNumber? " at line " (← withoutNumber? " column " message.toList)
  match front? with
  | some front => String.ofList front
  | none => message

end ChoreRota.Text
