import ChoreRota.Numeric.Binary64

/-!
# Shortest decimals

The fewest decimal digits that round to a binary floating point number, and of those the nearest to
it, with the layout in which a message shows them.
-/

namespace ChoreRota.Binary64

def tenPow (exponent : Int) : Rat :=
  if 0 ≤ exponent then (Nat.pow 10 exponent.toNat : Rat)
  else 1 / (Nat.pow 10 (-exponent).toNat : Rat)

/-- How many digits a positive value has before the decimal point; zero or less for the zeros after
it. -/
def decade (value : Rat) : Int :=
  let guess : Int := (Nat.toDigits 10 value.num.natAbs).length - (Nat.toDigits 10 value.den).length
  if tenPow guess ≤ value then guess + 1 else guess

/-- The decimals `digits * 10 ^ exponent` next to a value, nearest first, at a given exponent. -/
def neighbours (value : Rat) (exponent : Int) : List Int :=
  let scaled := value / tenPow exponent
  let nearest := roundHalfEven scaled
  if (nearest : Rat) < scaled then [nearest, nearest + 1] else [nearest, nearest - 1]

/-- The first decimal that rounds to a positive value, with `count` digits or as few more as it
takes. -/
def shortestFrom (value : Rat) (decade : Int) (count : Nat) : Nat → Int × Int
  | 0 => (roundHalfEven (value / tenPow (decade - count)), decade - count)
  | fuel + 1 =>
    let exponent := decade - count
    match (neighbours value exponent).find? fun (digits : Int) =>
      round (digits * tenPow exponent) == value with
    | some digits => (digits, exponent)
    | none => shortestFrom value decade (count + 1) fuel

def shortest (value : Rat) : Int × Int :=
  shortestFrom value (decade value) 1 17

/-- Positional between `1e-5` and `1e16`, with a digit after the point; else with an exponent. -/
def showPositive (value : Rat) : String :=
  let (digits, exponent) := shortest value
  let text := (Nat.toDigits 10 digits.toNat)
  let trailing := (text.reverse.takeWhile (· == '0')).length
  let text := text.take (text.length - trailing)
  let exponent := exponent + trailing
  let point := text.length + exponent
  if 0 < point ∧ point ≤ 16 then
    if 0 ≤ exponent then String.ofList (text ++ List.replicate exponent.toNat '0') ++ ".0"
    else String.ofList (text.take point.toNat) ++ "." ++ String.ofList (text.drop point.toNat)
  else if -5 < point ∧ point ≤ 0 then
    "0." ++ String.ofList (List.replicate (-point).toNat '0' ++ text)
  else
    let mantissa :=
      match text with
      | [single] => String.singleton single
      | first :: rest => String.singleton first ++ "." ++ String.ofList rest
      | [] => ""
    mantissa ++ "e" ++ (if point - 1 < 0 then "-" else "+") ++ toString (point - 1).natAbs

/-- A number as a message shows it; zero keeps its sign. -/
def render (isNegative : Bool) (value : Rat) : String :=
  (if isNegative then "-" else "") ++ if value = 0 then "0.0" else showPositive (magnitude value)

end ChoreRota.Binary64
