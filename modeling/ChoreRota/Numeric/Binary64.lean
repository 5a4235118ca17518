/-!
# Binary floating point

Numbers with 53 significant bits, kept as the rationals they are. An operation rounds its exact
result to the nearest such number, a tie to the even one; small results are multiples of
`2 ^ -1074`. There is no largest number here: `isFinite` tells which results a double can hold.
-/

namespace ChoreRota.Binary64

/-- The nearest integer, a tie going to the even one. -/
def roundHalfEven (value : Rat) : Int :=
  let low := value.floor
  let rest := value - low
  if rest < 1 / 2 then low
  else if 1 / 2 < rest then low + 1
  else if low % 2 = 0 then low else low + 1

def magnitude (value : Rat) : Rat :=
  if value < 0 then -value else value

def twoPow (exponent : Int) : Rat :=
  if 0 ≤ exponent then (Nat.pow 2 exponent.toNat : Rat) else 1 / (Nat.pow 2 (-exponent).toNat : Rat)

/-- The exponent of the largest power of two that is at most the magnitude of a nonzero number. -/
def binade (value : Rat) : Int :=
  let guess := (value.num.natAbs.log2 : Int) - value.den.log2
  if magnitude value < twoPow guess then guess - 1 else guess

def spacing (value : Rat) : Rat :=
  twoPow (max (-1074) (binade value - 52))

/-- The nearest number, a tie going to the one with an even last bit. -/
def round (value : Rat) : Rat :=
  if value = 0 then 0 else roundHalfEven (value / spacing value) * spacing value

def isFinite (value : Rat) : Bool :=
  magnitude value < twoPow 1024

def add (left right : Rat) : Rat := round (left + right)

def mul (left right : Rat) : Rat := round (left * right)

/-- A quotient by zero is zero. -/
def div (left right : Rat) : Rat := round (left / right)

def truncate (value : Rat) : Int :=
  value.num.tdiv value.den

end ChoreRota.Binary64
