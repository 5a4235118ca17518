import ChoreRota.Recurrence.ConfiguredTime
import ChoreRota.Proofs.MonthArithmetic
import ChoreRota.Proofs.TimestampForms

/-!
# What a time of day looks like

A time of day is a whole timestamp, or hours and minutes, perhaps with seconds and perhaps with an
offset. No text is both. Either form is turned into the time of day in UTC, and a clock that is
written with two digits for each number means the same with a date in front of it as without.
-/

namespace ChoreRota

namespace TimeOfDay

variable {chars clock : List Char} {value lastHour elapsed : Nat} {offset : Int} {time : TimeOfDay}

/-! ### Clocks -/

structure SpellsComponent (chars : List Char) (value : Nat) : Prop where
  length : chars.length = 1 ∨ chars.length = 2
  digits : ∀ c ∈ chars, Text.isDigit c
  value_eq : Text.digitsValue chars = value

theorem component?_eq_some_iff : component? chars = some value ↔ SpellsComponent chars value := by
  unfold component?
  simp only [List.all_eq_true]
  constructor
  · intro hvalue
    split at hvalue
    · rename_i hchars
      obtain ⟨hsome, hlength, hdigits⟩ := hchars
      have hpositive := List.length_pos_iff.2 hsome
      exact ⟨by omega, hdigits, Option.some.inj hvalue⟩
    · cases hvalue
  · rintro ⟨hlength, hdigits, rfl⟩
    rw [if_pos]
    exact ⟨List.ne_nil_of_length_pos (by omega), by omega, hdigits⟩

theorem spellsComponent_padded (hvalue : value < 100) :
    SpellsComponent (Text.padded 2 value) value :=
  ⟨.inr (Text.length_padded (by decide) hvalue), Text.isDigit_of_mem_padded,
    Text.digitsValue_padded 2 value⟩

theorem SpellsComponent.ne_colon (hspells : SpellsComponent chars value) :
    ∀ c ∈ chars, (c == ':') = false := by
  intro c hc
  simpa using Text.ne_of_isDigit (hspells.digits c hc) (by decide)

/-- Hours up to a last one, a colon and minutes, with the seconds that they make up. -/
inductive SpellsHourMinute (lastHour : Nat) : List Char → Nat → Prop
  | parts {hourText minuteText : List Char} {hour minute : Nat}
    (hhour : SpellsComponent hourText hour) (hminute : SpellsComponent minuteText minute)
    (hhourBound : hour ≤ lastHour) (hminuteBound : minute ≤ 59) :
    SpellsHourMinute lastHour (hourText ++ ':' :: minuteText) (hour * 3600 + minute * 60)

inductive SpellsClock : List Char → Nat → Prop
  | minutes {front : List Char} {elapsed : Nat} (hfront : SpellsHourMinute 23 front elapsed) :
    SpellsClock front elapsed
  | seconds {front secondText : List Char} {elapsed second : Nat}
    (hfront : SpellsHourMinute 23 front elapsed) (hsecond : SpellsComponent secondText second)
    (hsecondBound : second ≤ 59) : SpellsClock (front ++ ':' :: secondText) (elapsed + second)

def IsClockChar (c : Char) : Prop :=
  Text.isDigit c = true ∨ c = ':'

theorem SpellsComponent.isClockChar (hspells : SpellsComponent chars value) :
    ∀ c ∈ chars, IsClockChar c :=
  fun c hc => .inl (hspells.digits c hc)

theorem SpellsHourMinute.isClockChar (hspells : SpellsHourMinute lastHour chars elapsed) :
    ∀ c ∈ chars, IsClockChar c := by
  cases hspells with
  | parts hhour hminute =>
    rw [List.forall_mem_append, List.forall_mem_cons]
    exact ⟨hhour.isClockChar, .inr rfl, hminute.isClockChar⟩

theorem SpellsHourMinute.ne_nil (hspells : SpellsHourMinute lastHour chars elapsed) :
    chars ≠ [] := by
  cases hspells with
  | parts => simp

theorem SpellsClock.isClockChar (hclock : SpellsClock clock elapsed) :
    ∀ c ∈ clock, IsClockChar c := by
  cases hclock with
  | minutes hfront => exact hfront.isClockChar
  | seconds hfront hsecond =>
    rw [List.forall_mem_append, List.forall_mem_cons]
    exact ⟨hfront.isClockChar, .inr rfl, hsecond.isClockChar⟩

theorem SpellsClock.ne_nil (hclock : SpellsClock clock elapsed) : clock ≠ [] := by
  cases hclock with
  | minutes hfront => exact hfront.ne_nil
  | seconds => simp

theorem SpellsClock.elapsed_lt (hclock : SpellsClock clock elapsed) : elapsed < 86400 := by
  cases hclock with
  | minutes hfront =>
    cases hfront
    omega
  | seconds hfront =>
    cases hfront
    omega

theorem ofClock?_whole_eq_some_iff {hour minute second : Nat} :
    ofClock? hour minute second 0 = some time ↔
      (hour ≤ 23 ∧ minute ≤ 59 ∧ second ≤ 59) ∧
        time.nanos = (hour * 3600 + minute * 60 + second) * 1000000000 := by
  unfold ofClock?
  constructor
  · intro hclock
    split at hclock
    · obtain rfl := Option.some.inj hclock
      simp only
      omega
    · cases hclock
  · rintro ⟨hbounds, hnanos⟩
    rw [dif_pos (by omega), Option.some.injEq]
    apply eq_of_nanos
    simp only
    omega

theorem clock?_eq_some_iff :
    clock? chars = some time ↔
      ∃ elapsed, SpellsClock chars elapsed ∧ time.nanos = elapsed * 1000000000 := by
  unfold clock?
  rw [Text.splitWhere_eq_splitOnP]
  constructor
  · intro hclock
    -- The pieces, with the colons put back between them, are the text.
    have hjoined : [':'].intercalate (chars.splitOnP (· == ':')) = chars :=
      List.intercalate_splitOn ':'
    split at hclock
    · rename_i hourText minuteText hpieces
      obtain ⟨hour, hhour, hclock⟩ := Option.bind_eq_some_iff.1 hclock
      obtain ⟨minute, hminute, hclock⟩ := Option.bind_eq_some_iff.1 hclock
      obtain ⟨⟨hhourBound, hminuteBound, -⟩, hnanos⟩ := ofClock?_whole_eq_some_iff.1 hclock
      have hspells := SpellsClock.minutes <| .parts (component?_eq_some_iff.1 hhour)
        (component?_eq_some_iff.1 hminute) hhourBound hminuteBound
      rw [hpieces] at hjoined
      rw [← hjoined]
      exact ⟨_, by simpa [List.intercalate] using hspells, by rw [hnanos, Nat.add_zero]⟩
    · rename_i hourText minuteText secondText hpieces
      obtain ⟨hour, hhour, hclock⟩ := Option.bind_eq_some_iff.1 hclock
      obtain ⟨minute, hminute, hclock⟩ := Option.bind_eq_some_iff.1 hclock
      obtain ⟨second, hsecond, hclock⟩ := Option.bind_eq_some_iff.1 hclock
      obtain ⟨⟨hhourBound, hminuteBound, hsecondBound⟩, hnanos⟩ :=
        ofClock?_whole_eq_some_iff.1 hclock
      have hfront := SpellsHourMinute.parts (component?_eq_some_iff.1 hhour)
        (component?_eq_some_iff.1 hminute) hhourBound hminuteBound
      have hspells := SpellsClock.seconds hfront (component?_eq_some_iff.1 hsecond) hsecondBound
      rw [hpieces] at hjoined
      rw [← hjoined]
      exact ⟨_, by simpa [List.intercalate] using hspells, hnanos⟩
    · cases hclock
  · rintro ⟨elapsed, hspells, hnanos⟩
    cases hspells with
    | minutes hfront =>
      obtain ⟨hhour, hminute, hhourBound, hminuteBound⟩ := hfront
      rw [List.splitOnP_append_cons_of_forall_mem hhour.ne_colon ':' rfl,
        List.splitOnP_eq_singleton hminute.ne_colon]
      simp only [component?_eq_some_iff.2 hhour, component?_eq_some_iff.2 hminute]
      refine ofClock?_whole_eq_some_iff.2 ⟨⟨hhourBound, hminuteBound, by decide⟩, ?_⟩
      rw [hnanos, Nat.add_zero]
    | seconds hfront hsecond hsecondBound =>
      obtain ⟨hhour, hminute, hhourBound, hminuteBound⟩ := hfront
      rw [List.append_assoc, List.cons_append,
        List.splitOnP_append_cons_of_forall_mem hhour.ne_colon ':' rfl,
        List.splitOnP_append_cons_of_forall_mem hminute.ne_colon ':' rfl,
        List.splitOnP_eq_singleton hsecond.ne_colon]
      simp only [component?_eq_some_iff.2 hhour, component?_eq_some_iff.2 hminute,
        component?_eq_some_iff.2 hsecond]
      exact ofClock?_whole_eq_some_iff.2 ⟨⟨hhourBound, hminuteBound, hsecondBound⟩, hnanos⟩

/-! ### Offsets -/

inductive SpellsOffset : List Char → Int → Prop
  | none : SpellsOffset [] 0
  | upper : SpellsOffset ['Z'] 0
  | lower : SpellsOffset ['z'] 0
  | ahead {tail : List Char} {elapsed : Nat} (htail : SpellsHourMinute 25 tail elapsed) :
    SpellsOffset ('+' :: tail) elapsed
  | behind {tail : List Char} {elapsed : Nat} (htail : SpellsHourMinute 25 tail elapsed) :
    SpellsOffset ('-' :: tail) (-elapsed)

theorem offsetClock?_eq_some_iff :
    offsetClock? chars = some offset ↔
      ∃ elapsed : Nat, SpellsHourMinute 25 chars elapsed ∧ (elapsed : Int) = offset := by
  unfold offsetClock?
  constructor
  · intro hoffset
    split at hoffset
    · rename_i hourText minuteText hsplit
      obtain ⟨hour, hhour, hoffset⟩ := Option.bind_eq_some_iff.1 hoffset
      obtain ⟨minute, hminute, hoffset⟩ := Option.bind_eq_some_iff.1 hoffset
      obtain ⟨separator, hcolon, -, rfl⟩ := Text.splitFirst?_eq_some_iff.1 hsplit
      obtain rfl : separator = ':' := by simpa using hcolon
      split at hoffset
      · rename_i hbounds
        exact ⟨_, .parts (component?_eq_some_iff.1 hhour) (component?_eq_some_iff.1 hminute)
          hbounds.1 hbounds.2, Option.some.inj hoffset⟩
      · cases hoffset
    · cases hoffset
  · rintro ⟨elapsed, hspells, rfl⟩
    obtain @⟨hourText, minuteText, hour, minute, hhour, hminute, hhourBound, hminuteBound⟩ :=
      hspells
    have hsplit : Text.splitFirst? (· == ':') (hourText ++ ':' :: minuteText) =
        some (hourText, minuteText) :=
      Text.splitFirst?_eq_some_iff.2 ⟨':', rfl, hhour.ne_colon, rfl⟩
    simp only [hsplit, component?_eq_some_iff.2 hhour, component?_eq_some_iff.2 hminute]
    exact if_pos ⟨hhourBound, hminuteBound⟩

theorem exists_spellsOffset (hsplit : splitOffset? chars = some (clock, offset)) :
    ∃ text, SpellsOffset text offset ∧ chars = clock ++ text := by
  have hreversed := chars.reverse_reverse
  unfold splitOffset? at hsplit
  split at hsplit
  · rename_i back hback
    obtain ⟨rfl, rfl⟩ := Prod.mk.inj (Option.some.inj hsplit)
    rw [hback, List.reverse_cons] at hreversed
    exact ⟨['Z'], .upper, hreversed.symm⟩
  · rename_i back hback
    obtain ⟨rfl, rfl⟩ := Prod.mk.inj (Option.some.inj hsplit)
    rw [hback, List.reverse_cons] at hreversed
    exact ⟨['z'], .lower, hreversed.symm⟩
  · split at hsplit
    · obtain ⟨rfl, rfl⟩ := Prod.mk.inj (Option.some.inj hsplit)
      exact ⟨[], .none, by simp⟩
    · cases hsplit
    · rename_i sign back _ hback
      obtain ⟨ahead, hahead, hsame⟩ := Option.map_eq_some_iff.1 hsplit
      obtain ⟨rfl, rfl⟩ := Prod.mk.inj hsame
      obtain ⟨elapsed, htail, rfl⟩ := offsetClock?_eq_some_iff.1 hahead
      have hsign : isSign sign = true := by
        have hhead := List.head_dropWhile_not (!isSign ·) (l := chars.reverse) (by simp [hback])
        simpa [hback] using hhead
      rw [← List.takeWhile_append_dropWhile (p := (!isSign ·)) (l := chars.reverse), hback,
        List.reverse_append, List.reverse_cons, List.append_assoc, List.singleton_append]
        at hreversed
      refine ⟨sign :: _, ?_, hreversed.symm⟩
      obtain rfl | rfl : sign = '+' ∨ sign = '-' := by simpa [isSign] using hsign
      · exact .ahead htail
      · exact .behind htail

theorem IsClockChar.ne {c : Char} (hc : IsClockChar c) (other : Char)
    (hdigit : Text.isDigit other = false) (hcolon : other ≠ ':') : c ≠ other := by
  obtain hc | rfl := hc
  · exact Text.ne_of_isDigit hc hdigit
  · exact hcolon.symm

theorem IsClockChar.not_isSign {c : Char} (hc : IsClockChar c) : (!isSign c) = true := by
  have hplus := hc.ne '+' (by decide) (by decide)
  have hminus := hc.ne '-' (by decide) (by decide)
  simp [isSign, hplus, hminus]

theorem exists_last (hsome : chars ≠ []) :
    ∃ last ∈ chars, ∃ back, chars.reverse = last :: back := by
  obtain ⟨last, back, hback⟩ := List.exists_cons_of_ne_nil (List.reverse_ne_nil_iff.2 hsome)
  refine ⟨last, ?_, back, hback⟩
  rw [← List.mem_reverse, hback]
  exact List.mem_cons_self

/-- Without a `Z` at the end the text is split at its last sign. -/
theorem splitOffset?_of_last {last : Char} {back : List Char} (hback : chars.reverse = last :: back)
    (hlast : IsClockChar last) :
    splitOffset? chars =
      match chars.reverse.dropWhile (!isSign ·) with
      | [] => some (chars, 0)
      | [_] => none
      | sign :: clock =>
        (offsetClock? (chars.reverse.takeWhile (!isSign ·)).reverse).map fun offset =>
          (clock.reverse, if sign = '-' then -offset else offset) := by
  unfold splitOffset?
  split
  · rename_i hupper
    obtain ⟨rfl, -⟩ := List.cons_eq_cons.1 (hback.symm.trans hupper)
    exact absurd rfl (hlast.ne _ (by decide) (by decide))
  · rename_i hlower
    obtain ⟨rfl, -⟩ := List.cons_eq_cons.1 (hback.symm.trans hlower)
    exact absurd rfl (hlast.ne _ (by decide) (by decide))
  · rfl

theorem splitOffset?_of_clock (hsome : clock ≠ []) (hclock : ∀ c ∈ clock, IsClockChar c) :
    splitOffset? clock = some (clock, 0) := by
  obtain ⟨last, hlast, back, hback⟩ := exists_last hsome
  have hnone : clock.reverse.dropWhile (!isSign ·) = [] :=
    List.dropWhile_eq_nil_iff.2 fun c hc => (hclock c (List.mem_reverse.1 hc)).not_isSign
  rw [splitOffset?_of_last hback (hclock last hlast), hnone]

theorem splitOffset?_of_sign {sign : Char} {tail : List Char} (hsign : isSign sign = true)
    (hclock : clock ≠ []) (hsome : tail ≠ []) (htail : ∀ c ∈ tail, IsClockChar c) :
    splitOffset? (clock ++ sign :: tail) =
      (offsetClock? tail).map fun offset => (clock, if sign = '-' then -offset else offset) := by
  obtain ⟨last, hlast, back, hback⟩ := exists_last hsome
  obtain ⟨_, -, _, hclockReverse⟩ := exists_last hclock
  have hreverse : (clock ++ sign :: tail).reverse = tail.reverse ++ sign :: clock.reverse := by simp
  have hplain : ∀ c ∈ tail.reverse, (!isSign c) = true :=
    fun c hc => (htail c (List.mem_reverse.1 hc)).not_isSign
  have hdrop : (sign :: clock.reverse).dropWhile (!isSign ·) = sign :: clock.reverse := by
    simp [hsign]
  have htake : (sign :: clock.reverse).takeWhile (!isSign ·) = [] := by simp [hsign]
  rw [splitOffset?_of_last (by rw [hreverse, hback, List.cons_append]) (htail last hlast), hreverse,
    List.dropWhile_append_of_pos hplain, List.takeWhile_append_of_pos hplain, hdrop, htake,
    List.append_nil, List.reverse_reverse, hclockReverse]
  simp only [← hclockReverse, List.reverse_reverse]

theorem splitOffset?_append {text : List Char} (hclock : SpellsClock clock elapsed)
    (hoffset : SpellsOffset text offset) :
    splitOffset? (clock ++ text) = some (clock, offset) := by
  cases hoffset with
  | none =>
    rw [List.append_nil]
    exact splitOffset?_of_clock hclock.ne_nil hclock.isClockChar
  | upper => simp [splitOffset?]
  | lower => simp [splitOffset?]
  | ahead htail =>
    rw [splitOffset?_of_sign (by decide) hclock.ne_nil htail.ne_nil htail.isClockChar,
      offsetClock?_eq_some_iff.2 ⟨_, htail, rfl⟩]
    rfl
  | behind htail =>
    rw [splitOffset?_of_sign (by decide) hclock.ne_nil htail.ne_nil htail.isClockChar,
      offsetClock?_eq_some_iff.2 ⟨_, htail, rfl⟩]
    rfl

/-! ### Clocks without a date -/

/-- A clock without a date, perhaps with an offset, and the time of day in UTC that it shows. -/
def IsBare (chars : List Char) (time : TimeOfDay) : Prop :=
  ∃ clock text elapsed offset, SpellsClock clock elapsed ∧ SpellsOffset text offset ∧
    chars = clock ++ text ∧ (time.nanos : Int) = (elapsed - offset) % 86400 * 1000000000

theorem exists_nanos_eq (helapsed : elapsed < 86400) :
    ∃ time : TimeOfDay, time.nanos = elapsed * 1000000000 :=
  ⟨⟨elapsed * 1000000000, by omega⟩, rfl⟩

theorem turn_eq_iff {start : TimeOfDay} (hstart : start.nanos = elapsed * 1000000000) :
    start.turn (seconds (-offset)) = time ↔
      (time.nanos : Int) = (elapsed - offset) % 86400 * 1000000000 := by
  have hturned : ((start.turn (seconds (-offset))).nanos : Int) =
      (elapsed - offset) % 86400 * 1000000000 := by
    simp only [turn, seconds, hstart]
    omega
  constructor
  · rintro rfl
    exact hturned
  · intro htime
    apply eq_of_nanos
    omega

theorem bare?_eq_some_iff : bare? chars = some time ↔ IsBare chars time := by
  unfold bare?
  constructor
  · intro hbare
    obtain ⟨⟨clock, offset⟩, hsplit, hbare⟩ := Option.bind_eq_some_iff.1 hbare
    obtain ⟨start, hclock, hturn⟩ := Option.bind_eq_some_iff.1 hbare
    obtain ⟨text, hoffset, hchars⟩ := exists_spellsOffset hsplit
    obtain ⟨elapsed, hspells, hstart⟩ := clock?_eq_some_iff.1 hclock
    exact ⟨clock, text, elapsed, offset, hspells, hoffset, hchars,
      (turn_eq_iff hstart).1 (Option.some.inj hturn)⟩
  · rintro ⟨clock, text, elapsed, offset, hspells, hoffset, rfl, htime⟩
    obtain ⟨start, hstart⟩ := exists_nanos_eq hspells.elapsed_lt
    refine Option.bind_eq_some_iff.2 ⟨(clock, offset), splitOffset?_append hspells hoffset, ?_⟩
    refine Option.bind_eq_some_iff.2 ⟨start, clock?_eq_some_iff.2 ⟨elapsed, hspells, hstart⟩, ?_⟩
    exact congrArg some ((turn_eq_iff hstart).2 htime)

/-! ### Both forms -/

theorem SpellsHourMinute.length_takeWhile_le (hspells : SpellsHourMinute lastHour chars elapsed)
    (rest : List Char) : ((chars ++ rest).takeWhile Text.isDigit).length ≤ 2 := by
  cases hspells with
  | parts hhour =>
    have hlength := hhour.length
    rw [List.append_assoc, Text.takeWhile_isDigit_append hhour.digits (by simp; decide)]
    omega

/-- A timestamp starts with four digits, a clock with at most two. -/
theorem not_isTimestamp_of_isBare (hbare : IsBare chars time) (timestamp : Timestamp) :
    ¬Rfc3339.IsTimestamp chars timestamp := by
  rintro ⟨parts, hspells, -⟩
  obtain ⟨clock, text, elapsed, offset, hclock, -, rfl, -⟩ := hbare
  have hshort : ((clock ++ text).takeWhile Text.isDigit).length ≤ 2 := by
    cases hclock with
    | minutes hfront => exact hfront.length_takeWhile_le text
    | seconds hfront =>
      rw [List.append_assoc]
      exact hfront.length_takeWhile_le _
  have hfour := hspells.length_takeWhile
  omega

def IsTimeOfDay (chars : List Char) (time : TimeOfDay) : Prop :=
  (∃ timestamp moment, Rfc3339.IsTimestamp chars timestamp ∧ timestamp.toUtc? = some moment ∧
    moment.time = time) ∨ IsBare chars time

/-- A timestamp that the text spells is on a date of the calendar in UTC too. -/
def ReachesUtc (chars : List Char) : Prop :=
  ∀ timestamp, Rfc3339.IsTimestamp chars timestamp → timestamp.toUtc? ≠ none

theorem read_eq_ok_iff {text : String} (hutc : ReachesUtc (Text.trim text).toList) :
    read text = .ok time ↔ IsTimeOfDay (Text.trim text).toList time := by
  unfold read
  cases hread : Rfc3339.read (Text.trim text) with
  | ok timestamp =>
    have htimestamp := Rfc3339.read_eq_ok_iff.1 hread
    obtain ⟨moment, hmoment⟩ := Option.ne_none_iff_exists'.1 (hutc timestamp htimestamp)
    simp only [hmoment, Except.ok.injEq]
    constructor
    · intro htime
      exact .inl ⟨timestamp, moment, htimestamp, hmoment, htime⟩
    · rintro (⟨other, otherMoment, hother, hotherMoment, rfl⟩ | hbare)
      · rw [Rfc3339.read_eq_ok_iff.2 hother, Except.ok.injEq] at hread
        rw [hread, hmoment, Option.some.injEq] at hotherMoment
        rw [hotherMoment]
      · exact absurd htimestamp (not_isTimestamp_of_isBare hbare timestamp)
  | error fault =>
    have hnone : ∀ timestamp, ¬Rfc3339.IsTimestamp (Text.trim text).toList timestamp := by
      intro timestamp htimestamp
      rw [Rfc3339.read_eq_ok_iff.2 htimestamp] at hread
      cases hread
    constructor
    · intro hok
      simp only at hok
      split at hok
      · rename_i found hfound
        obtain rfl := Except.ok.inj hok
        exact .inr (bare?_eq_some_iff.1 hfound)
      · cases hok
    · rintro (⟨timestamp, -, htimestamp, -, -⟩ | hbare)
      · exact absurd htimestamp (hnone timestamp)
      · simp only [bare?_eq_some_iff.2 hbare]

theorem read_eq_error {text : String} (hutc : ReachesUtc (Text.trim text).toList)
    (hform : ∀ time, ¬IsTimeOfDay (Text.trim text).toList time) :
    read text = .error (.badTime text) := by
  unfold read
  split
  · rename_i timestamp hread
    have htimestamp := Rfc3339.read_eq_ok_iff.1 hread
    obtain ⟨moment, hmoment⟩ := Option.ne_none_iff_exists'.1 (hutc timestamp htimestamp)
    exact absurd (.inl ⟨timestamp, moment, htimestamp, hmoment, rfl⟩) (hform moment.time)
  · split
    · rename_i time hbare
      exact absurd (.inr (bare?_eq_some_iff.1 hbare)) (hform time)
    · rfl

/-! ### A date in front -/

/-- Hours, minutes and seconds with two digits each, and an offset as a timestamp has it. -/
inductive IsLong : List Char → Prop
  | parts {hour minute second : Nat} {text : List Char} {offset : Int} (hhour : hour ≤ 23)
    (hminute : minute ≤ 59) (hsecond : second ≤ 59) (hoffset : Rfc3339.SpellsOffset text offset) :
    IsLong
      (Text.padded 2 hour ++ ':' :: Text.padded 2 minute ++ ':' :: Text.padded 2 second ++ text)

theorem spellsOffset_of_rfc3339 {text : List Char} (hoffset : Rfc3339.SpellsOffset text offset) :
    SpellsOffset text offset := by
  cases hoffset with
  | upper => exact .upper
  | lower => exact .lower
  | ahead hhour hminute =>
    exact .ahead (.parts (spellsComponent_padded (by omega)) (spellsComponent_padded (by omega))
      (by omega) hminute)
  | behind hhour hminute =>
    exact .behind (.parts (spellsComponent_padded (by omega)) (spellsComponent_padded (by omega))
      (by omega) hminute)

theorem nanos_time_of_toUtc? {timestamp : Timestamp} {moment : Moment}
    (hmoment : timestamp.toUtc? = some moment)
    (hwall : timestamp.wall.time.nanos = elapsed * 1000000000) :
    (moment.time.nanos : Int) = (elapsed - timestamp.offset) % 86400 * 1000000000 := by
  have hinstant := Moment.ofNanos?_eq_some_iff.1 hmoment
  have htime := moment.time.nanos_lt
  simp only [Timestamp.instant, Moment.nanos, hwall] at hinstant
  omega

/-- With a date in front a long clock is a timestamp, and shows the same time of day in UTC. -/
theorem IsLong.exists_dated (hlong : IsLong chars) {date : Date} {separator : Char}
    (hyear : 0 ≤ date.year) (hascii : separator.toNat < 128) :
    ∃ timestamp time,
      Rfc3339.IsTimestamp (Rfc3339.writeDate date ++ separator :: chars) timestamp ∧
        timestamp.wall.date = date ∧ IsBare chars time ∧
        ∀ moment, timestamp.toUtc? = some moment → moment.time = time := by
  obtain @⟨hour, minute, second, text, offset, hhour, hminute, hsecond, hoffset⟩ := hlong
  have hfront : SpellsHourMinute 23 (Text.padded 2 hour ++ ':' :: Text.padded 2 minute)
      (hour * 3600 + minute * 60) :=
    .parts (spellsComponent_padded (by omega)) (spellsComponent_padded (by omega)) hhour hminute
  have hspells := SpellsClock.seconds hfront (spellsComponent_padded (by omega)) hsecond
  obtain ⟨wall, hwall⟩ := exists_nanos_eq hspells.elapsed_lt
  have hclock := ofClock?_whole_eq_some_iff.2 ⟨⟨hhour, hminute, hsecond⟩, hwall⟩
  obtain ⟨rfl, rfl, rfl, hnanosecond⟩ := ofClock?_eq_some_iff.1 hclock
  have hsubsecond : Rfc3339.SpellsSubsecond [] wall.nanosecond := hnanosecond ▸ .none
  have htimestamp : Rfc3339.IsTimestamp _ ⟨⟨date, wall⟩, offset⟩ :=
    Rfc3339.isTimestamp_of_spells ⟨hyear, date.isOnCalendar_month.2⟩ hascii hsubsecond hoffset
  rw [List.append_nil] at htimestamp
  have htime : ((wall.turn (seconds (-offset))).nanos : Int) = _ := (turn_eq_iff hwall).1 rfl
  refine ⟨_, wall.turn (seconds (-offset)), htimestamp, rfl, ?_, ?_⟩
  · exact ⟨_, text, _, offset, hspells, spellsOffset_of_rfc3339 hoffset, rfl, htime⟩
  · intro moment hmoment
    have hnanos := nanos_time_of_toUtc? hmoment hwall
    apply eq_of_nanos
    simp only at hnanos
    omega

/-- How a text is read as a time of day, and how it is read with a date in front. -/
structure ReadsForms (text : String) : Prop where
  ok_iff : ∀ time, read text = .ok time ↔ IsTimeOfDay (Text.trim text).toList time
  error : (∀ time, ¬IsTimeOfDay (Text.trim text).toList time) →
    ∃ fault, read text = .error fault ∧ fault.code.name = "invalid_schedule" ∧
      fault.message = "invalid time of day: " ++ Text.trim text
  dated : IsLong (Text.trim text).toList → ∀ (date : Date) (separator : Char) (dated : String),
    0 ≤ date.year → separator.toNat < 128 →
    (Text.trim dated).toList = Rfc3339.writeDate date ++ separator :: (Text.trim text).toList →
    ∃ timestamp time, Rfc3339.IsTimestamp (Text.trim dated).toList timestamp ∧
      timestamp.wall.date = date ∧ read text = .ok time ∧
      (timestamp.toUtc? ≠ none → read dated = .ok time)

/-- **Times of day.** A timestamp is read as its time of day in UTC, and a clock without a date as
its time less its offset, whatever day that falls on; no other text is read. Where a long clock is
a timestamp once a date stands in front of it, both show the same time of day. -/
theorem readsForms_of_reachesUtc {text : String} (hutc : ReachesUtc (Text.trim text).toList) :
    ReadsForms text where
  ok_iff _ := read_eq_ok_iff hutc
  error hform := ⟨_, read_eq_error hutc hform, rfl, rfl⟩
  dated := by
    intro hlong date separator dated hyear hascii hdated
    obtain ⟨timestamp, time, htimestamp, hdate, hbare, htime⟩ := hlong.exists_dated hyear hascii
    rw [← hdated] at htimestamp
    refine ⟨timestamp, time, htimestamp, hdate, (read_eq_ok_iff hutc).2 (.inr hbare), ?_⟩
    intro hmoment
    obtain ⟨moment, hmoment⟩ := Option.ne_none_iff_exists'.1 hmoment
    have hread := Rfc3339.read_eq_ok_iff.2 htimestamp
    simp only [read, hread, hmoment, htime moment hmoment]

/-- Ten in the evening five hours behind UTC, without a date and with one. -/
theorem evening_is_next_morning_in_utc :
    ReachesUtc (Text.trim " 22:00:30-05:00 ").toList ∧
      IsLong (Text.trim " 22:00:30-05:00 ").toList ∧
      read " 22:00:30-05:00 " = .ok ⟨10830000000000, by decide⟩ ∧
      read "2024-07-07 22:00:30-05:00" = .ok ⟨10830000000000, by decide⟩ := by
  have hbare : IsBare (Text.trim " 22:00:30-05:00 ").toList ⟨10830000000000, by decide⟩ :=
    bare?_eq_some_iff.1 (by decide +kernel)
  have hutc : ReachesUtc (Text.trim " 22:00:30-05:00 ").toList :=
    fun timestamp htimestamp => absurd htimestamp (not_isTimestamp_of_isBare hbare timestamp)
  have hoffset : Rfc3339.SpellsOffset "-05:00".toList (-18000) :=
    @Rfc3339.SpellsOffset.behind 5 0 (by decide) (by decide)
  have hlong : IsLong (Text.trim " 22:00:30-05:00 ").toList :=
    @IsLong.parts 22 0 30 _ _ (by decide) (by decide) (by decide) hoffset
  have hforms := readsForms_of_reachesUtc hutc
  have htext := (hforms.ok_iff _).2 (.inr hbare)
  obtain ⟨timestamp, time, htimestamp, -, hsame, hdated⟩ :=
    hforms.dated hlong ⟨19911, by decide, by decide⟩ ' ' "2024-07-07 22:00:30-05:00"
      (by decide +kernel) (by decide) (by decide +kernel)
  have hmoment : timestamp.toUtc? ≠ none := by
    have hread := Rfc3339.read_eq_ok_iff.2 htimestamp
    have hfound : ((Rfc3339.read (Text.trim "2024-07-07 22:00:30-05:00")).toOption.bind
      Timestamp.toUtc?) ≠ none := by decide +kernel
    rwa [hread] at hfound
  rw [htext, Except.ok.injEq] at hsame
  rw [← hsame] at hdated
  exact ⟨hutc, hlong, htext, hdated hmoment⟩

end TimeOfDay

end ChoreRota
