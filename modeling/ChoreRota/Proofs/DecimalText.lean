import Mathlib.Algebra.Group.Nat.Defs
import Mathlib.Data.List.DropRight
import ChoreRota.Text.Digits

/-!
# Decimal digits read back

A number is written in digits without a zero in front, or in at least so many digits. Either way the
digits denote the number again, and a reader that takes so many digits, or as many as there are,
stops right behind them. A reader with a limit takes the digits of every number up to it.
-/

namespace ChoreRota.Text

variable {count value width : Nat} {digits rest : List Char}

theorem digitsValue_eq_ofDigitChars (digits : List Char) :
    digitsValue digits = Nat.ofDigitChars 10 digits 0 := by
  unfold digitsValue Nat.ofDigitChars
  congr 1
  funext total c
  rw [Nat.mul_comm]
  rfl

theorem digitsValue_append (front back : List Char) :
    digitsValue (front ++ back) = digitsValue front * 10 ^ back.length + digitsValue back := by
  simp only [digitsValue_eq_ofDigitChars]
  rw [Nat.ofDigitChars_append, Nat.ofDigitChars_eq_ofDigitChars_zero, Nat.mul_comm]

@[simp]
theorem digitsValue_replicate_zero (count : Nat) : digitsValue (List.replicate count '0') = 0 := by
  rw [digitsValue_eq_ofDigitChars, Nat.ofDigitChars_replicate_zero, Nat.mul_zero]

@[simp]
theorem digitsValue_toDigits (value : Nat) : digitsValue (Nat.toDigits 10 value) = value := by
  rw [digitsValue_eq_ofDigitChars, Nat.ofDigitChars_ten_toDigits]

@[simp]
theorem digitsValue_padded (width value : Nat) : digitsValue (padded width value) = value := by
  simp [padded, digitsValue_append]

theorem isDigit_eq (c : Char) : isDigit c = c.isDigit := by
  unfold isDigit digit? Char.isDigit
  by_cases hdigit : '0' ≤ c ∧ c ≤ '9'
  · rw [if_pos hdigit]
    simp [Char.le_def] at hdigit ⊢
    exact hdigit
  · rw [if_neg hdigit]
    simp [Char.le_def] at hdigit ⊢
    exact hdigit

theorem isDigit_of_mem_toDigits : ∀ c ∈ Nat.toDigits 10 value, isDigit c := by
  intro c hc
  rw [isDigit_eq]
  exact Nat.isDigit_of_mem_toDigits (by decide) (by decide) hc

theorem isDigit_of_mem_padded : ∀ c ∈ padded width value, isDigit c := by
  intro c hc
  rcases List.mem_append.1 hc with hzero | hdigit
  · obtain rfl := List.eq_of_mem_replicate hzero
    decide
  · exact isDigit_of_mem_toDigits c hdigit

theorem length_padded (hwidth : 0 < width) (hvalue : value < 10 ^ width) :
    (padded width value).length = width := by
  have hlength := (Nat.length_toDigits_le_iff (by decide : 1 < 10) hwidth).2 hvalue
  rw [padded, List.length_append, List.length_replicate]
  omega

theorem ne_of_isDigit {c other : Char} (hc : isDigit c = true) (hother : isDigit other = false) :
    c ≠ other := by
  rintro rfl
  rw [hc] at hother
  cases hother

theorem toNat_bounds_of_isDigit {c : Char} (hdigit : isDigit c) : 48 ≤ c.toNat ∧ c.toNat ≤ 57 := by
  rwa [isDigit_eq, Char.isDigit_iff_toNat] at hdigit

theorem digitsValue_singleton (c : Char) : digitsValue [c] = c.toNat - 48 := by
  simp [digitsValue]

theorem digitsValue_lt (hdigits : ∀ c ∈ digits, isDigit c) :
    digitsValue digits < 10 ^ digits.length := by
  induction digits using List.reverseRecOn with
  | nil => decide
  | append_singleton digits c ih =>
    have hfront := ih fun d hd => hdigits d (List.mem_append_left _ hd)
    have hlast : digitsValue [c] < 10 := by
      have hc := toNat_bounds_of_isDigit (hdigits c (by simp))
      rw [digitsValue_singleton]
      omega
    calc digitsValue (digits ++ [c])
      _ = digitsValue digits * 10 + digitsValue [c] := digitsValue_append digits [c]
      _ < 10 ^ digits.length * 10 := by omega
      _ = 10 ^ (digits ++ [c]).length := by rw [List.length_append]; rfl

theorem eq_of_digitsValue_eq {left right : List Char} (hlength : left.length = right.length)
    (hleft : ∀ c ∈ left, isDigit c) (hright : ∀ c ∈ right, isDigit c)
    (hvalue : digitsValue left = digitsValue right) : left = right := by
  induction left using List.reverseRecOn generalizing right with
  | nil => exact (List.length_eq_zero_iff.1 hlength.symm).symm
  | append_singleton left c ih =>
    induction right using List.reverseRecOn with
    | nil => simp at hlength
    | append_singleton right d _ =>
      have hc := toNat_bounds_of_isDigit (hleft c (by simp))
      have hd := toNat_bounds_of_isDigit (hright d (by simp))
      simp only [digitsValue_append, List.length_singleton, digitsValue_singleton] at hvalue
      have hsame : c = d := Char.toNat_inj.1 (by omega)
      have hfront : left = right := by
        refine ih (by simpa using hlength) ?_ ?_ (by omega)
        · exact fun c hmem => hleft c (List.mem_append_left _ hmem)
        · exact fun c hmem => hright c (List.mem_append_left _ hmem)
      rw [hsame, hfront]

theorem padded_digitsValue (hwidth : 0 < width) (hlength : digits.length = width)
    (hdigits : ∀ c ∈ digits, isDigit c) : padded width (digitsValue digits) = digits := by
  have hvalue := digitsValue_lt hdigits
  rw [hlength] at hvalue
  refine eq_of_digitsValue_eq ?_ isDigit_of_mem_padded hdigits (digitsValue_padded _ _)
  rw [length_padded hwidth hvalue, hlength]

theorem head?_toDigits_ne (hvalue : 0 < value) : (Nat.toDigits 10 value).head? ≠ some '0' := by
  induction value using Nat.strongRecOn with
  | ind value ih =>
    rw [Nat.toDigits_eq_if (by decide)]
    split
    · rename_i hsmall
      have hdigit : ∀ value < 10, 0 < value → value.digitChar ≠ '0' := by decide
      simpa using hdigit value hsmall hvalue
    · have hrest := ih (value / 10) (by omega) (by omega)
      cases hdigits : Nat.toDigits 10 (value / 10) with
      | nil => exact absurd hdigits Nat.toDigits_ne_nil
      | cons c more => simpa [hdigits] using hrest

/-! ### Taking a fixed number of digits -/

theorem takeDigits_append (hlength : digits.length = count) (hdigits : ∀ c ∈ digits, isDigit c) :
    takeDigits count (digits ++ rest) = some (digitsValue digits, rest) := by
  subst hlength
  unfold takeDigits
  rw [List.take_left, List.drop_left]
  exact if_pos ⟨rfl, List.all_eq_true.2 hdigits⟩

theorem takeDigits_padded (hwidth : 0 < width) (hvalue : value < 10 ^ width) :
    takeDigits width (padded width value ++ rest) = some (value, rest) := by
  rw [takeDigits_append (length_padded hwidth hvalue) isDigit_of_mem_padded, digitsValue_padded]

theorem takeDigits_eq_some_iff {chars : List Char} (hcount : 0 < count) :
    takeDigits count chars = some (value, rest) ↔
      value < 10 ^ count ∧ chars = padded count value ++ rest := by
  constructor
  · intro htake
    unfold takeDigits at htake
    simp only [List.all_eq_true] at htake
    split at htake
    · rename_i hfront
      obtain ⟨rfl, rfl⟩ := Prod.mk.inj (Option.some.inj htake)
      have hvalue := digitsValue_lt hfront.2
      rw [hfront.1] at hvalue
      refine ⟨hvalue, ?_⟩
      rw [padded_digitsValue hcount hfront.1 hfront.2, List.take_append_drop]
    · cases htake
  · rintro ⟨hvalue, rfl⟩
    exact takeDigits_padded hcount hvalue

/-! ### Taking as many digits as there are -/

theorem takeWhile_isDigit_append (hdigits : ∀ c ∈ digits, isDigit c)
    (hrest : ∀ c ∈ rest.head?, isDigit c = false) :
    (digits ++ rest).takeWhile isDigit = digits := by
  rw [List.takeWhile_append_of_pos hdigits]
  cases rest with
  | nil => simp
  | cons c rest => simp [hrest c rfl]

theorem dropWhile_isDigit_append (hdigits : ∀ c ∈ digits, isDigit c)
    (hrest : ∀ c ∈ rest.head?, isDigit c = false) :
    (digits ++ rest).dropWhile isDigit = rest := by
  rw [List.dropWhile_append_of_pos hdigits]
  cases rest with
  | nil => rfl
  | cons c rest => simp [hrest c rfl]

/-! ### Reading up to a limit -/

theorem le_ofDigitChars (total : Nat) (digits : List Char) :
    total ≤ Nat.ofDigitChars 10 digits total := by
  rw [Nat.ofDigitChars_eq_ofDigitChars_zero]
  have hpower : total ≤ 10 ^ digits.length * total :=
    Nat.le_mul_of_pos_left total (Nat.pow_pos (by decide))
  omega

/-- A step past the limit is never made good: the number only grows. -/
theorem readDigits_eq_ok_iff {limit total : Nat} {excess : IntegerFault} {chars : List Char}
    (htotal : total ≤ limit) :
    readDigits limit excess chars total = .ok value ↔
      (∀ c ∈ chars, isDigit c) ∧ Nat.ofDigitChars 10 chars total = value ∧ value ≤ limit := by
  induction chars generalizing total with
  | nil =>
    rw [readDigits, Except.ok.injEq]
    constructor
    · rintro rfl
      exact ⟨by simp, rfl, htotal⟩
    · rintro ⟨-, hvalue, -⟩
      exact hvalue
  | cons c rest ih =>
    rw [readDigits, List.forall_mem_cons, Nat.ofDigitChars_cons, Nat.mul_comm 10 total]
    cases hdigit : digit? c with
    | none =>
      have hother : isDigit c = false := by rw [isDigit, hdigit]; rfl
      simp [hother]
    | some d =>
      have hisDigit : isDigit c = true := by rw [isDigit, hdigit]; rfl
      obtain rfl : c.toNat - 48 = d := by
        unfold digit? at hdigit
        split at hdigit
        · exact Option.some.inj hdigit
        · cases hdigit
      simp only
      split
      · rename_i hover
        refine iff_of_false nofun ?_
        rintro ⟨-, rfl, hvalue⟩
        have hgrows := le_ofDigitChars (total * 10 + (c.toNat - 48)) rest
        exact absurd (Nat.le_trans hgrows hvalue) (Nat.not_le.2 hover)
      · rename_i hroom
        rw [ih (Nat.not_lt.1 hroom)]
        simp only [hisDigit, true_and]
        rfl

theorem readMagnitude_eq_ok_iff {limit : Nat} {excess : IntegerFault} {chars : List Char} :
    readMagnitude limit excess chars = .ok value ↔
      chars ≠ [] ∧ (∀ c ∈ chars, isDigit c) ∧ digitsValue chars = value ∧ value ≤ limit := by
  rw [digitsValue_eq_ofDigitChars, ← readDigits_eq_ok_iff (Nat.zero_le limit)]
  unfold readMagnitude
  split
  · simp
  · rename_i hsome
    exact (and_iff_right hsome).symm

/-- A number as it is written: one or more digits, perhaps behind a plus sign. -/
inductive SpellsUnsigned : List Char → Nat → Prop
  | plain {digits : List Char} (hsome : digits ≠ []) (hdigits : ∀ c ∈ digits, isDigit c) :
    SpellsUnsigned digits (digitsValue digits)
  | signed {digits : List Char} (hsome : digits ≠ []) (hdigits : ∀ c ∈ digits, isDigit c) :
    SpellsUnsigned ('+' :: digits) (digitsValue digits)

theorem readUnsigned_eq_ok_iff {chars : List Char} :
    readUnsigned chars = .ok value ↔ SpellsUnsigned chars value ∧ value < 2 ^ 64 := by
  have hlimit : value ≤ 18446744073709551615 ↔ value < 2 ^ 64 := Nat.lt_succ_iff.symm
  rw [← hlimit]
  constructor
  · intro hread
    unfold readUnsigned at hread
    split at hread
    · cases hread
    · obtain ⟨hsome, hdigits, rfl, hvalue⟩ := readMagnitude_eq_ok_iff.1 hread
      exact ⟨.signed hsome hdigits, hvalue⟩
    · obtain ⟨hsome, hdigits, rfl, hvalue⟩ := readMagnitude_eq_ok_iff.1 hread
      exact ⟨.plain hsome hdigits, hvalue⟩
  · rintro ⟨hspells, hvalue⟩
    cases hspells with
    | signed hsome hdigits =>
      exact readMagnitude_eq_ok_iff.2 ⟨hsome, hdigits, rfl, hvalue⟩
    | plain hsome hdigits =>
      have hmagnitude : readMagnitude _ .tooLarge chars = .ok (digitsValue chars) :=
        readMagnitude_eq_ok_iff.2 ⟨hsome, hdigits, rfl, hvalue⟩
      unfold readUnsigned
      split
      · exact absurd rfl hsome
      · have hplus := hdigits '+' List.mem_cons_self
        cases hplus
      · exact hmagnitude

/-! ### Zeros at the end -/

theorem exists_rdropWhile_append (digits : List Char) :
    ∃ zeros, digits = digits.rdropWhile (· == '0') ++ List.replicate zeros '0' := by
  induction digits using List.reverseRecOn with
  | nil => exact ⟨0, rfl⟩
  | append_singleton digits c ih =>
    rw [List.rdropWhile_concat]
    split
    · rename_i hzero
      obtain ⟨zeros, hzeros⟩ := ih
      obtain rfl : c = '0' := by simpa using hzero
      refine ⟨zeros + 1, ?_⟩
      rw [List.replicate_succ', ← List.append_assoc, ← hzeros]
    · exact ⟨0, by simp⟩

end ChoreRota.Text
