import ChoreRota.Text.Classes
import ChoreRota.Text.WidthTable

/-!
# Letters that join

Pairs of letters that share their columns on a terminal. A line is measured from its end, so a rule
says what a letter adds in front of the letter behind it.
-/

namespace ChoreRota.Text

/-- Characters without a column of their own that keep the letters around them apart. -/
def opaqueMarkRanges : Array (Nat × Nat) :=
  #[
    (0x605, 0x605), (0x890, 0x891), (0x8e2, 0x8e2), (0x9be, 0x9be), (0x9d7, 0x9d7),
    (0xb3e, 0xb3e), (0xb57, 0xb57), (0xbbe, 0xbbe), (0xbd7, 0xbd7), (0xcc0, 0xcc0),
    (0xcc2, 0xcc2), (0xcc7, 0xcc8), (0xcca, 0xccb), (0xcd5, 0xcd6), (0xd3e, 0xd3e),
    (0xd4e, 0xd4e), (0xd57, 0xd57), (0xdcf, 0xdcf), (0xddf, 0xddf), (0x1160, 0x11ff),
    (0x1715, 0x1715), (0x1734, 0x1734), (0x180e, 0x180e), (0x1b35, 0x1b35), (0x1b3b, 0x1b3b),
    (0x1b3d, 0x1b3d), (0x1b43, 0x1b44), (0x1baa, 0x1baa), (0x1bf2, 0x1bf3), (0x200c, 0x200d),
    (0x2065, 0x2069), (0x302e, 0x302f), (0x3164, 0x3164), (0xa8fa, 0xa8fa), (0xa953, 0xa953),
    (0xa9c0, 0xa9c0), (0xd7b0, 0xd7c6), (0xd7cb, 0xd7fb), (0xffa0, 0xffa0), (0xfff0, 0xfff8),
    (0x111c0, 0x111c0), (0x111c2, 0x111c3), (0x11235, 0x11235), (0x1133e, 0x1133e),
    (0x1134d, 0x1134d), (0x11357, 0x11357), (0x113b8, 0x113b8), (0x113c2, 0x113c2),
    (0x113c5, 0x113c5), (0x113c7, 0x113c9), (0x113cf, 0x113cf), (0x113d1, 0x113d1),
    (0x114b0, 0x114b0), (0x114bd, 0x114bd), (0x115af, 0x115af), (0x116b6, 0x116b6),
    (0x11930, 0x11930), (0x1193d, 0x1193d), (0x1193f, 0x1193f), (0x11941, 0x11941),
    (0x11a84, 0x11a89), (0x11d46, 0x11d46), (0x11f02, 0x11f02), (0x11f41, 0x11f41),
    (0x16ff0, 0x16ff1), (0x1d165, 0x1d166), (0x1d16d, 0x1d172), (0xe0000, 0xe0000),
    (0xe0002, 0xe001f), (0xe0080, 0xe00ff), (0xe01f0, 0xe0fff)
  ]

/-- A letter, or an end of a cluster, that a letter in front of it may join. -/
inductive Ligature where
  | arabicAlef
  | hebrewLamed
  | bugineseYa | bugineseVowelYa
  | tifinagh | joinedTifinagh
  | lisuTone
  | orkhonI
  | khmer
  | kiratE | kiratAi
  deriving DecidableEq, Repr

def isArabicAlef (code : Nat) : Bool :=
  code == 0x622 || code == 0x623 || code == 0x625 || code == 0x627 ||
    (0x671 ≤ code && code ≤ 0x673) || code == 0x675 || (0x773 ≤ code && code ≤ 0x774) ||
    (0x870 ≤ code && code ≤ 0x882)

def isArabicLam (code : Nat) : Bool :=
  code == 0x644 || (0x6B5 ≤ code && code ≤ 0x6B8) || code == 0x76A || code == 0x8A6 || code == 0x8C7

/-- A mark that does not part an Arabic letter from the next one. -/
def isTransparentMark (c : Char) : Bool :=
  inRanges zeroWidthRanges c && !inRanges opaqueMarkRanges c

def isTifinaghConsonant (code : Nat) : Bool :=
  (0x2D31 ≤ code && code ≤ 0x2D65) || code == 0x2D6F

def isKhmerBase (code : Nat) : Bool :=
  (0x1780 ≤ code && code ≤ 0x1782) || (0x1784 ≤ code && code ≤ 0x1787) ||
    (0x1789 ≤ code && code ≤ 0x178C) || (0x178E ≤ code && code ≤ 0x1793) ||
    (0x1795 ≤ code && code ≤ 0x1798) || (0x179B ≤ code && code ≤ 0x179D) || code == 0x17A0 ||
    code == 0x17A2 || code == 0x17A7 || (0x17AB ≤ code && code ≤ 0x17AC) || code == 0x17AF

/-- A joiner, a selector or another invisible character inside of a cluster. -/
def isInvisibleJoint (code : Nat) : Bool :=
  code == 0x34F || (0x17B4 ≤ code && code ≤ 0x17B5) || (0x180B ≤ code && code ≤ 0x180D) ||
    code == 0x180F || code == 0x200D || (0xFE00 ≤ code && code ≤ 0xFE0F) ||
    (0xE0100 ≤ code && code ≤ 0xE01EF)

namespace Ligature

def ofChar? (c : Char) : Option Ligature :=
  let code := c.toNat
  if isArabicAlef code then some .arabicAlef
  else if code = 0x5DC then some .hebrewLamed
  else if code = 0x1A10 then some .bugineseYa
  else if isTifinaghConsonant code then some .tifinagh
  else if 0xA4FC ≤ code ∧ code ≤ 0xA4FD then some .lisuTone
  else if code = 0x10C03 then some .orkhonI
  else if isKhmerBase code then some .khmer
  else if code = 0x16D67 then some .kiratE
  else if code = 0x16D68 then some .kiratAi
  else none

def reachesOverJoints : Ligature → Bool
  | .arabicAlef | .kiratE | .kiratAi => false
  | _ => true

/-- The columns that a character adds by joining a letter, and the letter that the two make. Some
pairs need a joiner between them. -/
def join? (c : Char) (hasJoiner : Bool) : Ligature → Option (Int × Option Ligature)
  | .arabicAlef =>
    if isArabicLam c.toNat then some (0, none)
    else if isTransparentMark c then some (0, some .arabicAlef)
    else none
  | .hebrewLamed => if hasJoiner && c.toNat == 0x5D0 then some (0, none) else none
  | .bugineseYa => if hasJoiner && c.toNat == 0x1A17 then some (0, some .bugineseVowelYa) else none
  | .bugineseVowelYa => if c.toNat = 0x1A15 then some (0, none) else none
  | .tifinagh =>
    if c.toNat = 0x2D7F then some (1, some .joinedTifinagh)
    else if hasJoiner && isTifinaghConsonant c.toNat then some (0, none)
    else none
  | .joinedTifinagh => if isTifinaghConsonant c.toNat then some (-1, none) else none
  | .lisuTone => if 0xA4F8 ≤ c.toNat ∧ c.toNat ≤ 0xA4FB then some (0, none) else none
  | .orkhonI => if hasJoiner && c.toNat == 0x10C32 then some (0, none) else none
  | .khmer => if c.toNat = 0x17D2 then some (-1, none) else none
  | .kiratE =>
    if c.toNat = 0x16D63 ∨ c.toNat = 0x16D69 then some (0, none)
    else if c.toNat = 0x16D67 then some (0, some .kiratAi)
    else if c.toNat = 0x16D68 then some (1, some .kiratE)
    else none
  | .kiratAi => if c.toNat = 0x16D63 then some (0, none) else none

end Ligature

end ChoreRota.Text
