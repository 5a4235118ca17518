import ChoreRota.Text.Ligature
import ChoreRota.Text.PictureSequence

/-!
# Width of text

How many columns a line of text takes on a terminal. What a character adds depends on what stands
behind it, so a line is measured from its end.
-/

namespace ChoreRota.Text

def charWidth (c : Char) : Nat :=
  if c.toNat ≤ 0xA0 then 1
  else if c.toNat = 0x17D8 then 3
  else if inRanges zeroWidthRanges c then 0
  else if inRanges doubleWidthRanges c then 2
  else 1

inductive Selector where
  | text | picture | wideQuote
  deriving DecidableEq, Repr

def Selector.ofChar? (c : Char) : Option Selector :=
  if c.toNat = 0xFE0E then some .text
  else if c.toNat = 0xFE0F then some .picture
  else if c.toNat = 0xFE01 then some .wideQuote
  else none

def isCurlyQuote (code : Nat) : Bool :=
  code == 0x2018 || code == 0x2019 || code == 0x201C || code == 0x201D

/-- The columns of a character in the form that a selector behind it chooses, if there is one. -/
def Selector.width? (c : Char) : Selector → Option Nat
  | .text => if hasNarrowForm c then some 1 else none
  | .picture => if hasPictureForm c then some 2 else none
  | .wideQuote => if isCurlyQuote c.toNat then some 2 else none

/-- What stands behind a place in a line, as far as a character in front of it may join it. -/
inductive Behind where
  | nothing
  | letter (ligature : Ligature) (hasJoiner : Bool)
  | sequence (rest : PictureSequence)
  deriving DecidableEq, Repr

namespace Behind

def ofChar (c : Char) : Behind :=
  match Ligature.ofChar? c with
  | some ligature => .letter ligature false
  | none =>
    match PictureSequence.ofChar? c with
    | some rest => .sequence rest
    | none => .nothing

def isTied : Behind → Bool
  | .sequence rest => rest.isTied
  | _ => false

def acrossSelector : Behind → Behind
  | .letter ligature hasJoiner =>
    if ligature.reachesOverJoints then .letter ligature hasJoiner else .nothing
  | _ => .nothing

def acrossPictureSelector (behind : Behind) : Behind :=
  if behind.isTied then behind else behind.acrossSelector

def join? (c : Char) : Behind → Option (Int × Behind)
  | .nothing => none
  | .sequence rest =>
    (rest.join? c).map fun (width, joined) => (width, .sequence joined)
  | .letter ligature hasJoiner =>
    if ligature.reachesOverJoints && isInvisibleJoint c.toNat then
      some (0, .letter ligature (hasJoiner || isJoiner c.toNat))
    else
      (ligature.join? c hasJoiner).map fun (width, joined) =>
        (width, match joined with | some joined => .letter joined false | none => .nothing)

end Behind

/-- A place in a line: the selector right behind it, and what stands behind that. -/
structure Place where
  selector : Option Selector
  behind : Behind
  deriving DecidableEq, Repr

namespace Place

/-- A place in front of which every character keeps its own columns. -/
def apart : Place :=
  ⟨none, .nothing⟩

def ofChar (c : Char) : Place :=
  ⟨Selector.ofChar? c, .ofChar c⟩

def join (c : Char) (behind : Behind) : Int × Place :=
  if c.toNat = 0xFE0F then (0, ⟨some .picture, behind.acrossPictureSelector⟩)
  else if c.toNat = 0xFE0E then (0, ⟨some .text, behind.acrossSelector⟩)
  else
    match behind.join? c with
    | some (width, behind) => (width, ⟨none, behind⟩)
    | none => (charWidth c, ofChar c)

/-- The columns that a character adds at a place, and the place in front of it. A character up to
U+00A0 joins nothing, but some of them have a form as a picture. -/
def put (c : Char) (place : Place) : Int × Place :=
  match place.selector with
  | none => if c.toNat ≤ 0xA0 then (1, apart) else join c place.behind
  | some selector =>
    match selector.width? c with
    | none => if c.toNat ≤ 0xA0 then (1, apart) else join c place.behind.acrossSelector
    | some width =>
      if selector = .picture then
        (if place.behind.isTied then 0 else width, ⟨none, .sequence .picture⟩)
      else (width, apart)

end Place

def measure (line : List Char) : Int × Place :=
  line.foldr
    (fun c (columns, place) =>
      let (width, place) := place.put c
      (width + columns, place))
    (0, Place.apart)

def lineWidth (line : List Char) : Nat :=
  (measure line).1.toNat

end ChoreRota.Text
