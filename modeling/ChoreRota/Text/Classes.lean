/-!
# Classes of characters

White space, and cutting it, or other characters, off both ends of a text; and classes that are
given by sorted ranges of code points.
-/

namespace ChoreRota.Text

/-- A character with the Unicode property White_Space. -/
def isBlank (c : Char) : Bool :=
  let code := c.toNat
  (9 ≤ code && code ≤ 13) || code == 0x20 || code == 0x85 || code == 0xA0 || code == 0x1680 ||
    (0x2000 ≤ code && code ≤ 0x200A) || code == 0x2028 || code == 0x2029 || code == 0x202F ||
    code == 0x205F || code == 0x3000

def stripped (isOfKind : Char → Bool) (chars : List Char) : List Char :=
  ((chars.dropWhile isOfKind).reverse.dropWhile isOfKind).reverse

def trimmed (chars : List Char) : List Char :=
  stripped isBlank chars

def trim (text : String) : String :=
  String.ofList (trimmed text.toList)

def sameLetters (left right : String) : Bool :=
  left.toList.map Char.toLower == right.toList.map Char.toLower

/-- Halves the part of the ranges from `low` up to `high` until it is found whether one holds the
code point. -/
def searchRanges (ranges : Array (Nat × Nat)) (code low high : Nat) : Nat → Bool
  | 0 => false
  | fuel + 1 =>
    if high ≤ low then false
    else
      let middle := (low + high) / 2
      match ranges[middle]? with
      | none => false
      | some (first, last) =>
        if code < first then searchRanges ranges code low middle fuel
        else if last < code then searchRanges ranges code (middle + 1) high fuel
        else true

def inRanges (ranges : Array (Nat × Nat)) (c : Char) : Bool :=
  searchRanges ranges c.toNat 0 ranges.size ranges.size

end ChoreRota.Text
