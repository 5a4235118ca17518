/-!
# Splitting text

The pieces of a text between the characters that separate them, empty pieces included.
-/

namespace ChoreRota.Text

/-- The pieces between the separators; there is always one more piece than separators. -/
def splitWhere (isSeparator : Char → Bool) : List Char → List (List Char)
  | [] => [[]]
  | c :: rest =>
    if isSeparator c then [] :: splitWhere isSeparator rest
    else
      match splitWhere isSeparator rest with
      | [] => [[c]]
      | first :: others => (c :: first) :: others

def splitFirst? (isSeparator : Char → Bool) (chars : List Char) :
    Option (List Char × List Char) :=
  match chars.dropWhile (!isSeparator ·) with
  | [] => none
  | _ :: rest => some (chars.takeWhile (!isSeparator ·), rest)

theorem splitWhere_eq_splitOnP (isSeparator : Char → Bool) (chars : List Char) :
    splitWhere isSeparator chars = chars.splitOnP isSeparator := by
  induction chars with
  | nil => rfl
  | cons c rest ih =>
    rw [List.splitOnP_cons_eq_if_modifyHead, splitWhere, ih]
    split
    · rfl
    · cases hpieces : List.splitOnP isSeparator rest with
      | nil => exact absurd hpieces (List.splitOnP_ne_nil isSeparator rest)
      | cons first others => rfl

theorem splitFirst?_eq_some_iff {isSeparator : Char → Bool} {chars front back : List Char} :
    splitFirst? isSeparator chars = some (front, back) ↔
      ∃ separator, isSeparator separator = true ∧ (∀ c ∈ front, isSeparator c = false) ∧
        chars = front ++ separator :: back := by
  constructor
  · intro hsplit
    unfold splitFirst? at hsplit
    split at hsplit
    · cases hsplit
    · rename_i separator rest hrest
      obtain ⟨rfl, rfl⟩ := Prod.mk.inj (Option.some.inj hsplit)
      refine ⟨separator, ?_, ?_, ?_⟩
      · have hhead := List.head_dropWhile_not (!isSeparator ·) (l := chars) (by simp [hrest])
        simpa [hrest] using hhead
      · intro c hc
        simpa using List.all_eq_true.1 List.all_takeWhile c hc
      · rw [← hrest, List.takeWhile_append_dropWhile]
  · rintro ⟨separator, hseparator, hfront, rfl⟩
    have hplain : ∀ c ∈ front, (!isSeparator c) = true := fun c hc => by simp [hfront c hc]
    unfold splitFirst?
    rw [List.dropWhile_append_of_pos hplain, List.takeWhile_append_of_pos hplain]
    simp [hseparator]

end ChoreRota.Text
