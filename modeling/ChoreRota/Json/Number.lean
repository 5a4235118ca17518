import ChoreRota.Json.Value
import ChoreRota.Numeric.Binary64
import ChoreRota.Text.Digits

/-!
# JSON numbers

An integer that fits in 64 bits, signed or not, is kept exactly. Every other number is a double: as
many leading digits as fit in 64 bits, scaled by powers of ten with a rounding at each step.
-/

namespace ChoreRota.Json

structure NumberParts where
  isNegative : Bool
  whole : List Char
  fraction : List Char
  exponent : Option Int

def largestWord : Nat := 18446744073709551615

/-- Digits of the whole part after `significand`, those that no longer fit counted in the
exponent. -/
def wholeDigits : List Char → Nat → Nat × Nat
  | [], significand => (significand, 0)
  | c :: rest, significand =>
    let next := significand * 10 + (c.toNat - 48)
    if next ≤ largestWord then wholeDigits rest next else (significand, rest.length + 1)

/-- Digits of the fraction after `significand`, up to the first that does not fit. -/
def fractionDigits : List Char → Nat → Nat → Nat × Nat
  | [], significand, count => (significand, count)
  | c :: rest, significand, count =>
    let next := significand * 10 + (c.toNat - 48)
    if next ≤ largestWord then fractionDigits rest next (count + 1) else (significand, count)

def powerOfTen (exponent : Nat) : Rat :=
  Binary64.round (Nat.pow 10 exponent : Rat)

/-- Scales by a power of ten, at most `10 ^ 308` at a time; there is no result above the doubles. -/
def scale? (value : Rat) (exponent : Int) : Nat → Option Rat
  | 0 => some 0
  | fuel + 1 =>
    if exponent.natAbs ≤ 308 then
      if 0 ≤ exponent then
        let scaled := Binary64.mul value (powerOfTen exponent.natAbs)
        if Binary64.isFinite scaled then some scaled else none
      else some (Binary64.div value (powerOfTen exponent.natAbs))
    else if value = 0 then some 0
    else if 0 ≤ exponent then none
    else scale? (Binary64.div value (powerOfTen 308)) (exponent + 308) fuel

def NumberParts.double? (parts : NumberParts) : Option Rat :=
  let (significand, dropped) := wholeDigits parts.whole 0
  let (significand, places) := fractionDigits parts.fraction significand 0
  let exponent := (dropped : Int) - places + parts.exponent.getD 0
  if significand = 0 then some 0
  else scale? (Binary64.round (significand : Rat)) exponent 8

def NumberParts.value (parts : NumberParts) : Except Flaw Json :=
  let whole := Text.digitsValue parts.whole
  if parts.fraction.isEmpty && parts.exponent.isNone &&
      if parts.isNegative then whole != 0 && whole ≤ 9223372036854775808
      else whole ≤ largestWord then
    .ok (.integer (if parts.isNegative then -(whole : Int) else whole))
  else
    match parts.double? with
    | some double => .ok (.float parts.isNegative double)
    | none => .error .numberOutOfRange

end ChoreRota.Json
