import ChoreRota.Json.Fields
import ChoreRota.Json.Printer
import ChoreRota.Proofs.ScalarText

/-!
# Typed values read back

`ReadsBack` says of a way of reading that it gets a value back from what is written for it, at any
depth, behind any white space, and leaves what comes next. It holds of scalars, and passes from
items to lists and from fields to records.
-/

namespace ChoreRota.Json

variable {α β : Type} {reading : Reading α} {json : Json} {value : α} {depth : Nat}
  {space rest : List Char}

/-! ### How a value begins -/

/-- A value without others in it, and not nothing, of which nothing is lost when it is written. -/
inductive IsPlain : Json → Prop
  | bool (value : Bool) : IsPlain (.bool value)
  | integer {value : Int} (hlow : -9223372036854775808 ≤ value)
      (hhigh : value ≤ 18446744073709551615) : IsPlain (.integer value)
  | string (text : String) : IsPlain (.string text)

theorem exists_writeInteger_eq_cons (value : Int) :
    ∃ c more, writeInteger value = c :: more ∧ (c = '-' ∨ Text.isDigit c) := by
  unfold writeInteger
  split
  · exact ⟨'-', _, rfl, .inl rfl⟩
  · cases hdigits : Nat.toDigits 10 value.natAbs with
    | nil => exact absurd hdigits Nat.toDigits_ne_nil
    | cons c more =>
      refine ⟨c, more, rfl, .inr (@Text.isDigit_of_mem_toDigits value.natAbs c ?_)⟩
      rw [hdigits]
      exact List.mem_cons_self

theorem writePretty_array (depth : Nat) (item : Json) (items : List Json) :
    writePretty depth (.array (item :: items)) =
      '[' :: (writePrettyItems (depth + 1) (item :: items) ++ (newLine depth ++ [']'])) := by
  rw [writePretty, List.cons_append, List.cons_append, List.append_assoc]
  simp

theorem writePretty_object (depth : Nat) (member : String × Json)
    (members : List (String × Json)) :
    writePretty depth (.object (member :: members)) =
      '\x7b' :: (writePrettyMembers (depth + 1) (member :: members) ++
        (newLine depth ++ ['\x7d'])) := by
  rw [writePretty, List.cons_append, List.cons_append, List.append_assoc]
  simp

theorem exists_writePretty_eq_cons (depth : Nat) (json : Json) :
    ∃ c more, writePretty depth json = c :: more ∧ isSpace c = false ∧ c ≠ ']' := by
  cases json with
  | null => exact ⟨'n', _, rfl, by decide, by decide⟩
  | bool value =>
    cases value with
    | false => exact ⟨'f', _, rfl, by decide, by decide⟩
    | true => exact ⟨'t', _, rfl, by decide, by decide⟩
  | integer value =>
    obtain ⟨c, more, hwritten, hc⟩ := exists_writeInteger_eq_cons value
    refine ⟨c, more, by rw [writePretty, hwritten], ?_⟩
    rcases hc with rfl | hdigit
    · exact ⟨by decide, by decide⟩
    · refine ⟨?_, Text.ne_of_isDigit hdigit (by decide)⟩
      simp only [isSpace, Bool.or_eq_false_iff, beq_eq_false_iff_ne]
      exact ⟨⟨⟨Text.ne_of_isDigit hdigit (by decide), Text.ne_of_isDigit hdigit (by decide)⟩,
        Text.ne_of_isDigit hdigit (by decide)⟩, Text.ne_of_isDigit hdigit (by decide)⟩
  | float isNegative value => exact ⟨'n', _, by rw [writePretty]; rfl, by decide, by decide⟩
  | string text => exact ⟨'"', _, by rw [writePretty]; rfl, by decide, by decide⟩
  | array items =>
    cases items with
    | nil => exact ⟨'[', _, rfl, by decide, by decide⟩
    | cons item items => exact ⟨'[', _, writePretty_array depth item items, by decide, by decide⟩
  | object members =>
    cases members with
    | nil => exact ⟨'\x7b', _, rfl, by decide, by decide⟩
    | cons member members =>
      exact ⟨'\x7b', _, writePretty_object depth member members, by decide, by decide⟩

theorem IsPlain.exists_writePretty_eq_cons (hplain : json.IsPlain) (depth : Nat) :
    ∃ c more, writePretty depth json = c :: more ∧ c ≠ '[' ∧ c ≠ '\x7b' ∧ c ≠ 'n' := by
  cases hplain with
  | bool value =>
    cases value with
    | false => exact ⟨'f', _, rfl, by decide, by decide, by decide⟩
    | true => exact ⟨'t', _, rfl, by decide, by decide, by decide⟩
  | @integer value hlow hhigh =>
    obtain ⟨c, more, hwritten, hc⟩ := exists_writeInteger_eq_cons value
    refine ⟨c, more, by rw [writePretty, hwritten], ?_⟩
    rcases hc with rfl | hdigit
    · exact ⟨by decide, by decide, by decide⟩
    · exact ⟨Text.ne_of_isDigit hdigit (by decide), Text.ne_of_isDigit hdigit (by decide),
        Text.ne_of_isDigit hdigit (by decide)⟩
  | string text => exact ⟨'"', _, by rw [writePretty]; rfl, by decide, by decide, by decide⟩

theorem skipSpace_writePretty (hspace : ∀ c ∈ space, isSpace c) (depth : Nat) (json : Json)
    (rest : List Char) :
    skipSpace (space ++ (writePretty depth json ++ rest)) = writePretty depth json ++ rest := by
  apply skipSpace_append hspace
  obtain ⟨c, more, hwritten, hc, -⟩ := exists_writePretty_eq_cons depth json
  simpa [hwritten] using hc

theorem IsPlain.readScalar_writePretty (hplain : json.IsPlain) (depth : Nat)
    (hrest : EndsValue rest) : readScalar (writePretty depth json ++ rest) = .ok (json, rest) := by
  cases hplain with
  | bool value =>
    cases value with
    | false => rw [writePretty]; rfl
    | true => rw [writePretty]; rfl
  | integer hlow hhigh =>
    rw [writePretty]
    exact readScalar_writeInteger hlow hhigh hrest
  | string text =>
    rw [writePretty]
    exact readScalar_writeString text rest

namespace Reading

/-- What is written for a value is read as the value, wherever it stands, and what comes behind it
is left. -/
def ReadsBack (reading : Reading α) (json : Json) (value : α) : Prop :=
  ∀ depth space rest, (∀ c ∈ space, isSpace c) → EndsValue rest →
    reading.ofText (space ++ (writePretty depth json ++ rest)) = .ok (value, rest)

namespace ReadsBack

theorem inPlace (hread : reading.ReadsBack json value) (depth : Nat) (hrest : EndsValue rest) :
    reading.ofText (writePretty depth json ++ rest) = .ok (value, rest) :=
  hread depth [] rest (by simp) hrest

/-! ### Scalars -/

theorem scalar {expected : String} {decode : Json → Except DecodeFault α} (hplain : json.IsPlain)
    (hdecode : decode json = .ok value) : (Reading.scalar expected decode).ReadsBack json value := by
  intro depth space rest hspace hrest
  obtain ⟨c, more, hwritten, hbracket, hbrace, -⟩ := hplain.exists_writePretty_eq_cons depth
  have hscalar := hplain.readScalar_writePretty depth hrest
  simp only [Reading.scalar, skipSpace_writePretty hspace]
  rw [hwritten, List.cons_append] at hscalar ⊢
  split
  · rename_i heq
    exact absurd (List.cons.inj heq).1 hbracket
  · rename_i heq
    exact absurd (List.cons.inj heq).1 hbrace
  · simp only [hscalar, formed, Except.mapError, bind, Except.bind, hdecode]
    rfl

theorem andThen {next : α → Except DecodeFault β} {result : β}
    (hread : reading.ReadsBack json value) (hnext : next value = .ok result) :
    (reading.andThen next).ReadsBack json result := by
  intro depth space rest hspace hrest
  simp only [Reading.andThen, hread depth space rest hspace hrest, bind, Except.bind, hnext]
  rfl

theorem map (f : α → β) (hread : reading.ReadsBack json value) :
    (reading.map f).ReadsBack json (f value) :=
  hread.andThen rfl

theorem within {low high value : Int} {expected : String} (hlow : low ≤ value)
    (hhigh : value ≤ high) (hleast : -9223372036854775808 ≤ low)
    (hgreatest : high ≤ 18446744073709551615) :
    (Reading.within low high expected).ReadsBack (.integer value) value :=
  scalar (.integer (by omega) (by omega)) (if_pos ⟨hlow, hhigh⟩)

theorem int64 (value : Int64) : Reading.int64.ReadsBack (.integer value.toInt) value := by
  have hlow := value.le_toInt
  have hhigh := value.toInt_lt
  have hread := (within (by omega) (by omega) (by decide) (by decide) :
    (Reading.within (-9223372036854775808) 9223372036854775807 "i64").ReadsBack _ value.toInt)
  have hvalue := hread.map Int64.ofInt
  rwa [value.ofInt_toInt] at hvalue

theorem int32 (value : Int32) : Reading.int32.ReadsBack (.integer value.toInt) value := by
  have hlow := value.le_toInt
  have hhigh := value.toInt_lt
  have hread := (within (by omega) (by omega) (by decide) (by decide) :
    (Reading.within (-2147483648) 2147483647 "i32").ReadsBack _ value.toInt)
  have hvalue := hread.map Int32.ofInt
  rwa [value.ofInt_toInt] at hvalue

theorem nat32 {value : Nat} (hvalue : value ≤ 4294967295) :
    Reading.nat32.ReadsBack (.integer value) value :=
  (within (by omega) (by omega) (by decide) (by decide) :
    (Reading.within 0 4294967295 "u32").ReadsBack _ (value : Int)).map Int.toNat

theorem bool (value : Bool) : Reading.bool.ReadsBack (.bool value) value := by
  unfold Reading.bool
  exact scalar (.bool value) rfl

theorem text (expected text : String) :
    (Reading.text expected).ReadsBack (.string text) text := by
  unfold Reading.text
  exact scalar (.string text) rfl

theorem string (text : String) : Reading.string.ReadsBack (.string text) text :=
  .text "a string" text

theorem timestamp {text : String} {timestamp : Timestamp}
    (hread : Rfc3339.read text = .ok timestamp) :
    Reading.timestamp.ReadsBack (.string text) timestamp :=
  (ReadsBack.text _ text).andThen (by rw [hread]; rfl)

theorem named {find? : String → Option α} {unknown : String → Fault} {name : String}
    (hfind : find? name = some value) :
    (Reading.named find? unknown).ReadsBack (.string name) value :=
  (string name).andThen (by simp only [hfind])

theorem variant {name : α → String} {all : List α}
    (hfind : (all.find? fun variant => name variant == name value) = some value) :
    (Reading.variant name all).ReadsBack (.string (name value)) value := by
  intro depth space rest hspace hrest
  have hkey : ((Reading.text "variant identifier").andThen (findVariant name all)).ReadsBack
      (.string (name value)) value :=
    (ReadsBack.text _ (name value)).andThen (by simp only [findVariant, hfind])
  have hread := hkey.inPlace depth hrest
  simp only [Reading.variant, skipSpace_writePretty hspace]
  simp only [writePretty, writeString, List.cons_append] at hread ⊢
  exact hread

/-! ### Optional values -/

theorem null (reading : Reading α) : reading.optional.ReadsBack .null none := by
  intro depth space rest hspace hrest
  simp only [Reading.optional]
  rw [skipSpace_writePretty hspace, writePretty]
  rfl

theorem optional (hplain : json.IsPlain) (hread : reading.ReadsBack json value) :
    reading.optional.ReadsBack json (some value) := by
  intro depth space rest hspace hrest
  obtain ⟨c, more, hwritten, -, -, hnull⟩ := hplain.exists_writePretty_eq_cons depth
  have hvalue := hread.inPlace depth hrest
  simp only [Reading.optional, skipSpace_writePretty hspace]
  rw [hwritten, List.cons_append] at hvalue ⊢
  split
  · rename_i heq
    exact absurd (List.cons.inj heq).1 hnull
  · simp only [hvalue, bind, Except.bind]
    rfl

end ReadsBack

end Reading

/-! ### Lists -/

def writeMoreItems (depth : Nat) (items : List Json) : List Char :=
  items.flatMap fun item => ',' :: (newLine depth ++ writePretty depth item)

theorem writePrettyItems_cons (depth : Nat) (item : Json) (items : List Json) :
    writePrettyItems depth (item :: items) =
      newLine depth ++ (writePretty depth item ++ writeMoreItems depth items) := by
  induction items generalizing item with
  | nil => simp [writePrettyItems, writeMoreItems]
  | cons next items ih =>
    rw [writePrettyItems.eq_3 _ _ _ (by simp), ih next]
    simp [writeMoreItems]

theorem length_le_writeMoreItems (depth : Nat) (items : List Json) :
    items.length ≤ (writeMoreItems depth items).length := by
  induction items with
  | nil => exact Nat.zero_le _
  | cons item items ih =>
    simp only [writeMoreItems, List.flatMap_cons, List.length_append, List.length_cons] at ih ⊢
    omega

theorem endsValue_writeMoreItems (depth outer : Nat) (items : List Json) (rest : List Char) :
    EndsValue (writeMoreItems depth items ++ (newLine outer ++ rest)) := by
  cases items with
  | nil => exact endsValue_newLine outer
  | cons item items => exact endsValue_comma

theorem skipSpace_line (depth : Nat) (json : Json) (rest : List Char) :
    skipSpace (newLine depth ++ (writePretty depth json ++ rest)) =
      writePretty depth json ++ rest :=
  skipSpace_writePretty isSpace_of_mem_newLine depth json rest

theorem nextItem_first (depth : Nat) (json : Json) (rest : List Char) :
    nextItem true (newLine depth ++ (writePretty depth json ++ rest)) =
      .ok (true, writePretty depth json ++ rest) := by
  obtain ⟨c, more, hwritten, -, hbracket⟩ := exists_writePretty_eq_cons depth json
  rw [nextItem, skipSpace_line, hwritten, List.cons_append]
  split
  · rename_i heq
    cases heq
  · rename_i heq
    exact absurd (List.cons.inj heq).1 hbracket
  · rename_i heq
    obtain ⟨rfl, rfl⟩ := List.cons.inj heq
    rfl

theorem nextItem_more (depth : Nat) (json : Json) (rest : List Char) :
    nextItem false (',' :: (newLine depth ++ (writePretty depth json ++ rest))) =
      .ok (true, writePretty depth json ++ rest) := by
  obtain ⟨c, more, hwritten, -, hbracket⟩ := exists_writePretty_eq_cons depth json
  have hskip := skipSpace_line depth json rest
  rw [hwritten, List.cons_append] at hskip ⊢
  have hcomma : ∀ chars, skipSpace (',' :: chars) = ',' :: chars := fun _ => rfl
  rw [nextItem, hcomma]
  split
  · rename_i heq
    cases heq
  · rename_i heq
    exact absurd (List.cons.inj heq).1 (by decide)
  · rename_i heq
    obtain ⟨rfl, rfl⟩ := List.cons.inj heq
    rw [if_neg Bool.false_ne_true, if_pos rfl, hskip]
    split
    · rename_i heq
      cases heq
    · rename_i heq
      exact absurd (List.cons.inj heq).1 hbracket
    · rfl

theorem nextItem_close (isFirst : Bool) (depth : Nat) (rest : List Char) :
    nextItem isFirst (newLine depth ++ ']' :: rest) = .ok (false, rest) := by
  rw [nextItem, skipSpace_newLine depth (by decide)]
  rfl

theorem items_writeMoreItems {items : List Json} {values : List α}
    (hitems : List.Forall₂ reading.ReadsBack items values) {fuel : Nat}
    (hfuel : items.length < fuel) (depth outer : Nat) (rest : List Char) :
    reading.items fuel false (writeMoreItems depth items ++ (newLine outer ++ ']' :: rest)) =
      .ok (values, rest) := by
  induction hitems generalizing fuel with
  | nil =>
    cases fuel with
    | zero => cases hfuel
    | succ fuel =>
      simp only [writeMoreItems, List.flatMap_nil, List.nil_append, Reading.items, nextItem_close]
      rfl
  | @cons item value items values hitem _ ih =>
    cases fuel with
    | zero => cases hfuel
    | succ fuel =>
      have hvalue := hitem.inPlace depth
        (endsValue_writeMoreItems depth outer items (']' :: rest))
      have hrest := ih (Nat.lt_of_succ_lt_succ hfuel)
      have hline : writeMoreItems depth (item :: items) ++ (newLine outer ++ ']' :: rest) =
          ',' :: (newLine depth ++ (writePretty depth item ++
            (writeMoreItems depth items ++ (newLine outer ++ ']' :: rest)))) := by
        simp [writeMoreItems]
      rw [hline]
      simp only [Reading.items, nextItem_more, formed, Except.mapError, bind, Except.bind, hvalue,
        hrest]
      rfl

theorem Reading.ReadsBack.list {items : List Json} {values : List α}
    (hitems : List.Forall₂ reading.ReadsBack items values) :
    reading.list.ReadsBack (.array items) values := by
  intro depth space rest hspace hrest
  simp only [Reading.list, skipSpace_writePretty hspace]
  cases hitems with
  | nil => rfl
  | @cons item value items values hitem hmore =>
    have hvalue := hitem.inPlace (depth + 1)
      (endsValue_writeMoreItems (depth + 1) depth items (']' :: rest))
    have hline : writePretty depth (.array (item :: items)) ++ rest =
        '[' :: (newLine (depth + 1) ++ (writePretty (depth + 1) item ++
          (writeMoreItems (depth + 1) items ++ (newLine depth ++ ']' :: rest)))) := by
      rw [writePretty_array, writePrettyItems_cons]
      simp
    have hlength := length_le_writeMoreItems (depth + 1) items
    rw [hline]
    simp only [Reading.items, nextItem_first, formed, Except.mapError, bind, Except.bind, hvalue]
    rw [items_writeMoreItems hmore]
    · rfl
    · simp only [newLine, List.length_append, List.length_cons]
      omega

end ChoreRota.Json
