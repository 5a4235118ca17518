import ChoreRota.Json.Printer
import ChoreRota.Json.Scalar
import ChoreRota.Proofs.DecimalText

/-!
# Strings, numbers and names read back

Every string is read again from its quoted form, whatever characters it has, and so is every integer
of 64 bits as long as nothing that could belong to it comes next.
-/

namespace ChoreRota.Json

variable {rest : List Char}

/-! ### White space -/

theorem skipSpace_of_head {chars : List Char} (hhead : ∀ c ∈ chars.head?, isSpace c = false) :
    skipSpace chars = chars := by
  cases chars with
  | nil => rfl
  | cons c rest => simp [skipSpace, hhead c rfl]

theorem skipSpace_append {space : List Char} (hspace : ∀ c ∈ space, isSpace c)
    (hhead : ∀ c ∈ rest.head?, isSpace c = false) : skipSpace (space ++ rest) = rest := by
  rw [skipSpace, List.dropWhile_append_of_pos hspace]
  exact skipSpace_of_head hhead

theorem isSpace_of_mem_newLine {depth : Nat} : ∀ c ∈ newLine depth, isSpace c := by
  intro c hc
  rcases List.mem_cons.1 hc with rfl | hblank
  · decide
  · obtain rfl := List.eq_of_mem_replicate hblank
    decide

theorem skipSpace_newLine (depth : Nat) {c : Char} (hc : isSpace c = false) :
    skipSpace (newLine depth ++ c :: rest) = c :: rest :=
  skipSpace_append isSpace_of_mem_newLine (by simpa using hc)

/-! ### Strings -/

theorem hexCode?_hexDigit :
    ∀ code < 32, hexCode? '0' '0' (hexDigit (code / 16)) (hexDigit (code % 16)) = some code := by
  decide

theorem readChars_control {c : Char} (hc : c.toNat < 32) :
    readChars none
        ('\\' :: 'u' :: '0' :: '0' :: hexDigit (c.toNat / 16) :: hexDigit (c.toNat % 16) :: rest) =
      consChar c (readChars none rest) := by
  have hleading : isLeading c.toNat = false := by
    simp [isLeading]
    omega
  have htrailing : isTrailing c.toNat = false := by
    simp [isTrailing]
    omega
  rw [readChars.eq_def]
  simp only [hexCode?_hexDigit c.toNat hc, hleading, htrailing, Char.ofNat_toNat]
  rfl

theorem readChars_plain {c : Char} (hquote : c ≠ '"') (hslash : c ≠ '\\') (hc : ¬c.toNat < 32) :
    readChars none (c :: rest) = consChar c (readChars none rest) := by
  rw [readChars.eq_def]
  split
  case h_4 found more _ _ heq =>
    obtain ⟨rfl, rfl⟩ := List.cons.inj heq
    simp [hquote, hslash, hc]
  all_goals simp_all

theorem readChars_escapeChar (c : Char) (rest : List Char) :
    readChars none (escapeChar c ++ rest) = consChar c (readChars none rest) := by
  unfold escapeChar
  split
  case h_8 =>
    rename_i hquote hslash _ _ _ _ _
    split
    · rename_i hc
      exact readChars_control hc
    · rename_i hc
      exact readChars_plain hquote hslash hc
  all_goals
    simp [readChars, simpleEscape?]

theorem readString_flatMap (text : String) (rest : List Char) :
    readString (text.toList.flatMap escapeChar ++ '"' :: rest) = .ok (text, rest) := by
  have hchars : ∀ chars : List Char,
      readChars none (chars.flatMap escapeChar ++ '"' :: rest) = .ok (chars, rest) := by
    intro chars
    induction chars with
    | nil => simp [readChars]
    | cons c chars ih =>
      rw [List.flatMap_cons, List.append_assoc, readChars_escapeChar, ih]
      rfl
  rw [readString, hchars]
  simp [Except.map]

theorem readScalar_writeString (text : String) (rest : List Char) :
    readScalar (writeString text ++ rest) = .ok (.string text, rest) := by
  have hstring := readString_flatMap text rest
  simp only [writeString, List.cons_append, List.append_assoc, List.nil_append, readScalar, hstring]
  rfl

/-! ### Integers -/

/-- What may come behind a value: nothing, a comma or a line break. -/
def EndsValue (rest : List Char) : Prop :=
  ∀ c ∈ rest.head?, c = ',' ∨ c = '\n'

theorem endsValue_nil : EndsValue [] := by
  simp [EndsValue]

theorem endsValue_comma : EndsValue (',' :: rest) := by
  simp [EndsValue]

theorem endsValue_newLine (depth : Nat) : EndsValue (newLine depth ++ rest) := by
  simp [EndsValue, newLine]

theorem EndsValue.not_isDigit (hrest : EndsValue rest) :
    ∀ c ∈ rest.head?, Text.isDigit c = false := by
  intro c hc
  rcases hrest c hc with rfl | rfl <;> decide

theorem readParts_toDigits (isNegative : Bool) (value : Nat) (hrest : EndsValue rest) :
    readParts isNegative (Nat.toDigits 10 value ++ rest) =
      .ok (⟨isNegative, Nat.toDigits 10 value, [], none⟩, rest) := by
  have hdigits : readDigits (Nat.toDigits 10 value ++ rest) =
      .ok (Nat.toDigits 10 value, rest) := by
    rw [readDigits, Text.takeWhile_isDigit_append Text.isDigit_of_mem_toDigits hrest.not_isDigit,
      Text.dropWhile_isDigit_append Text.isDigit_of_mem_toDigits hrest.not_isDigit]
    simp [Nat.toDigits_ne_nil]
  have hlone : ¬((Nat.toDigits 10 value).head? = some '0' ∧ 1 < (Nat.toDigits 10 value).length) := by
    rintro ⟨hzero, hlong⟩
    rcases Nat.eq_zero_or_pos value with rfl | hpositive
    · simp at hlong
    · exact Text.head?_toDigits_ne hpositive hzero
  have hends : readFraction rest = .ok ([], rest) ∧ readExponent rest = .ok (none, rest) := by
    cases rest with
    | nil => exact ⟨rfl, rfl⟩
    | cons c rest => rcases hrest c rfl with rfl | rfl <;> exact ⟨rfl, rfl⟩
  simp only [readParts, hdigits, bind, Except.bind]
  rw [if_neg hlone]
  simp only [hends]
  rfl

theorem value_of_negative {magnitude : Nat} (hpositive : magnitude ≠ 0)
    (hmagnitude : magnitude ≤ 9223372036854775808) :
    NumberParts.value ⟨true, Nat.toDigits 10 magnitude, [], none⟩ =
      .ok (.integer (-magnitude)) := by
  simp [NumberParts.value, hpositive, hmagnitude]

theorem value_of_nonnegative {magnitude : Nat} (hmagnitude : magnitude ≤ largestWord) :
    NumberParts.value ⟨false, Nat.toDigits 10 magnitude, [], none⟩ = .ok (.integer magnitude) := by
  simp [NumberParts.value, hmagnitude]

theorem readNumber_of_value {isNegative : Bool} {magnitude : Nat} {json : Json}
    (hrest : EndsValue rest)
    (hvalue : NumberParts.value ⟨isNegative, Nat.toDigits 10 magnitude, [], none⟩ = .ok json) :
    readNumber isNegative (Nat.toDigits 10 magnitude ++ rest) = .ok (json, rest) := by
  simp only [readNumber, readParts_toDigits isNegative magnitude hrest, bind, Except.bind, hvalue]
  rfl

theorem readScalar_digits {chars : List Char} (hsome : chars ≠ [])
    (hdigits : ∀ c ∈ chars, Text.isDigit c) :
    readScalar (chars ++ rest) = readNumber false (chars ++ rest) := by
  cases chars with
  | nil => exact absurd rfl hsome
  | cons c chars =>
    have hc := hdigits c List.mem_cons_self
    rw [List.cons_append, readScalar.eq_def]
    split
    case h_1 heq => cases heq
    case h_7 heq =>
      obtain ⟨rfl, rfl⟩ := List.cons.inj heq
      exact if_pos hc
    -- Every other case is that of a character which is no digit.
    all_goals
      rename_i heq
      obtain ⟨rfl, -⟩ := List.cons.inj heq
      exact absurd hc (by decide)

theorem readScalar_writeInteger {value : Int} (hlow : -9223372036854775808 ≤ value)
    (hhigh : value ≤ 18446744073709551615) (hrest : EndsValue rest) :
    readScalar (writeInteger value ++ rest) = .ok (.integer value, rest) := by
  by_cases hnegative : value < 0
  · have hnumber := readNumber_of_value hrest
      (value_of_negative (by omega : value.natAbs ≠ 0) (by omega))
    rw [show -(value.natAbs : Int) = value by omega] at hnumber
    rw [writeInteger, if_pos hnegative]
    exact hnumber
  · have hnumber := readNumber_of_value hrest
      (value_of_nonnegative (by unfold largestWord; omega : value.natAbs ≤ largestWord))
    rw [show (value.natAbs : Int) = value by omega] at hnumber
    rw [writeInteger, if_neg hnegative, List.nil_append,
      readScalar_digits Nat.toDigits_ne_nil Text.isDigit_of_mem_toDigits]
    exact hnumber

end ChoreRota.Json
