import ChoreRota.Text.PictureTable
import ChoreRota.Text.Classes

/-!
# Sequences of pictures

Pictures, skin tones and flag letters that a terminal draws as one picture. A line is measured from
its end, so a rule says what a character adds in front of the rest of a sequence.
-/

namespace ChoreRota.Text

/-- The rest of a sequence. What starts with a joiner is tied to the picture in front of it; the
letters and the digits at the end of a tag are counted. -/
inductive PictureSequence where
  | picture
  | skinTone
  | flagLetter | flagLetters
  | tied | tiedKeycap
  | tiedFlagLetter | tiedFlag
  | tagLetters (count : Nat)
  | tagDigits (count : Nat)
  deriving DecidableEq, Repr

def isFlagLetter (code : Nat) : Bool :=
  0x1F1E6 ≤ code && code ≤ 0x1F1FF

def isSkinTone (code : Nat) : Bool :=
  0x1F3FB ≤ code && code ≤ 0x1F3FF

def isTagLetter (code : Nat) : Bool :=
  0xE0061 ≤ code && code ≤ 0xE007A

def isTagDigit (code : Nat) : Bool :=
  0xE0030 ≤ code && code ≤ 0xE0039

def isJoiner (code : Nat) : Bool :=
  code == 0x200D

/-- The black flag, which tags turn into that of a region. -/
def isTaggedFlag (code : Nat) : Bool :=
  code == 0x1F3F4

/-- A character that the selector of pictures behind it makes a picture. -/
def hasPictureForm (c : Char) : Bool :=
  inRanges styledRanges c

/-- A picture that the selector of text behind it makes as narrow as text; ideographs stay wide. -/
def hasNarrowForm (c : Char) : Bool :=
  inRanges styledRanges c && inRanges pictureRanges c && !(0x1F200 ≤ c.toNat && c.toNat ≤ 0x1F2FF)

namespace PictureSequence

def ofChar? (c : Char) : Option PictureSequence :=
  if isFlagLetter c.toNat then some .flagLetter
  else if isSkinTone c.toNat then some .skinTone
  else if inRanges pictureRanges c then some .picture
  else none

def isTied : PictureSequence → Bool
  | .tied | .tiedKeycap => true
  | _ => false

/-- The columns that a character adds to a sequence in front of which it stands, and the sequence
that they make. -/
def join? (c : Char) : PictureSequence → Option (Int × PictureSequence)
  | .picture => if isJoiner c.toNat then some (0, .tied) else none
  | .skinTone =>
    if inRanges skinToneBaseRanges c then some (0, .picture)
    else if isJoiner c.toNat then some (0, .tied)
    else none
  | .flagLetter => if isFlagLetter c.toNat then some (1, .flagLetters) else none
  | .flagLetters =>
    if isFlagLetter c.toNat then some (1, .flagLetters)
    else if isJoiner c.toNat then some (0, .tied)
    else none
  | .tied =>
    if c.toNat = 0x20E3 then some (0, .tiedKeycap)
    else if isFlagLetter c.toNat then some (1, .tiedFlagLetter)
    else if isSkinTone c.toNat then some (0, .skinTone)
    else if c.toNat = 0xE007F then some (0, .tagLetters 0)
    else if inRanges pictureRanges c then some (0, .picture)
    else none
  | .tiedKeycap => none
  | .tiedFlagLetter => if isFlagLetter c.toNat then some (-1, .tiedFlag) else none
  | .tiedFlag =>
    if isFlagLetter c.toNat then some (3, .tiedFlagLetter)
    else if isJoiner c.toNat then some (0, .tied)
    else none
  | .tagLetters count =>
    if isTagLetter c.toNat && count < 6 then some (0, .tagLetters (count + 1))
    else if isTagDigit c.toNat && count < 5 then some (0, .tagDigits 1)
    else if isTaggedFlag c.toNat && 3 ≤ count then some (0, .picture)
    else none
  | .tagDigits count =>
    if isTagDigit c.toNat && count < 3 then some (0, .tagDigits (count + 1))
    else if isTaggedFlag c.toNat && count == 3 then some (0, .picture)
    else none

end PictureSequence

end ChoreRota.Text
