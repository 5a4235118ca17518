import ChoreRota.Proofs.TimestampForms

/-!
# Timestamps read back

A timestamp whose year has four digits, at an offset of whole minutes below a day, is written in a
form from which it is read again: with the same clock down to the nanosecond and the same offset.
-/

namespace ChoreRota.Rfc3339

variable {value : Nat} {timestamp : Timestamp}

theorem spellsSubsecond_writeSubsecond (hvalue : value < 1000000000) :
    SpellsSubsecond (writeSubsecond value) value := by
  unfold writeSubsecond
  split
  · rename_i hzero
    rw [hzero]
    exact .none
  · rename_i hpositive
    change SpellsSubsecond ('.' :: (Text.padded 9 value).rdropWhile (· == '0')) value
    obtain ⟨zeros, hzeros⟩ := Text.exists_rdropWhile_append (Text.padded 9 value)
    have hlength := Text.length_padded (by decide : 0 < 9) hvalue
    have hdigits : ∀ c ∈ (Text.padded 9 value).rdropWhile (· == '0'), Text.isDigit c :=
      fun c hc => Text.isDigit_of_mem_padded c ((List.rdropWhile_prefix _ _).mem hc)
    have hsame := Text.digitsValue_padded 9 value
    generalize (Text.padded 9 value).rdropWhile (· == '0') = digits at *
    rw [hzeros] at hlength hsame
    rw [Text.digitsValue_append, Text.digitsValue_replicate_zero, Nat.add_zero,
      List.length_replicate] at hsame
    have hsum : zeros + digits.length = 9 := by
      rw [List.length_append, List.length_replicate, Nat.add_comm] at hlength
      exact hlength
    have hsome : digits ≠ [] := by
      rintro rfl
      exact hpositive (by rw [← hsame]; simp [Text.digitsValue])
    have hspells := SpellsSubsecond.digits hsome hdigits
    have hfraction : Text.digitsValue digits * 10 ^ 9 / 10 ^ digits.length = value := by
      rw [← hsum, Nat.pow_add, ← Nat.mul_assoc, Nat.mul_div_cancel _ (Nat.pow_pos (by decide)),
        hsame]
    rwa [hfraction] at hspells

theorem spellsOffset_writeOffset {offset : Int} (hoffset : IsMinuteOffset offset) :
    SpellsOffset (writeOffset offset) offset := by
  obtain ⟨hminutes, hlow, hhigh⟩ := hoffset
  have hhour : offset.natAbs / 3600 ≤ 23 := by omega
  have hminute : offset.natAbs / 60 % 60 ≤ 59 := by omega
  have hsize : offset.natAbs / 3600 * 3600 + offset.natAbs / 60 % 60 * 60 = offset.natAbs := by
    omega
  unfold writeOffset
  by_cases hzero : offset = 0
  · rw [if_pos hzero, hzero]
    exact .upper
  · rw [if_neg hzero]
    by_cases hnegative : offset < 0
    · have hspells := SpellsOffset.behind hhour hminute
      rw [hsize, Int.ofNat_natAbs_of_nonpos (Int.le_of_lt hnegative), Int.neg_neg] at hspells
      rwa [if_pos hnegative]
    · have hspells := SpellsOffset.ahead hhour hminute
      rw [hsize, Int.natAbs_of_nonneg (Int.not_lt.1 hnegative)] at hspells
      rwa [if_neg hnegative]

theorem read_write (hwritable : timestamp.IsWritable) :
    ∃ text, write? timestamp = some text ∧ read text = .ok timestamp := by
  refine ⟨_, if_pos hwritable.year, read_eq_ok_iff.2 ?_⟩
  have htimestamp := isTimestamp_of_spells hwritable.year (by decide : 'T'.toNat < 128)
    (spellsSubsecond_writeSubsecond timestamp.wall.time.clock_bounds.2.2.2)
    (spellsOffset_writeOffset hwritable.offset)
  rw [String.toList_ofList]
  simpa [writeTime] using htimestamp

end ChoreRota.Rfc3339
