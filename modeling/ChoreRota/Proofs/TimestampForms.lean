import ChoreRota.Fault
import ChoreRota.Calendar.Rfc3339
import ChoreRota.Proofs.DecimalText
import ChoreRota.Proofs.Months

/-!
# What a timestamp looks like

A timestamp is spelled with numbers of fixed width, which have to be those of a date and of a time
of day, except that a second 60 stands for the last nanosecond of a month in UTC. These texts, and
no others, are read, each as the timestamp that it denotes.
-/

namespace ChoreRota

def IsMinuteOffset (offset : Int) : Prop :=
  offset % 60 = 0 ∧ -86400 < offset ∧ offset < 86400

instance (offset : Int) : Decidable (IsMinuteOffset offset) :=
  inferInstanceAs (Decidable (_ ∧ _))

theorem isMinuteOffset_zero : IsMinuteOffset 0 := by
  decide

namespace Timestamp

def HasFourDigitYear (timestamp : Timestamp) : Prop :=
  0 ≤ timestamp.wall.year ∧ timestamp.wall.year ≤ 9999

instance (timestamp : Timestamp) : Decidable timestamp.HasFourDigitYear :=
  inferInstanceAs (Decidable (_ ∧ _))

structure IsWritable (timestamp : Timestamp) : Prop where
  year : timestamp.HasFourDigitYear
  offset : IsMinuteOffset timestamp.offset

end Timestamp

namespace TimeOfDay

theorem clock_bounds (time : TimeOfDay) :
    time.hour < 24 ∧ time.minute < 60 ∧ time.second < 60 ∧ time.nanosecond < 1000000000 := by
  have hnanos := time.nanos_lt
  unfold hour minute second nanosecond
  omega

theorem ofClock?_clock (time : TimeOfDay) :
    ofClock? time.hour time.minute time.second time.nanosecond = some time := by
  rw [ofClock?, dif_pos time.clock_bounds, Option.some.injEq]
  apply eq_of_nanos
  have hnanos := time.nanos_lt
  simp only [hour, minute, second, nanosecond]
  omega

theorem ofClock?_eq_some_iff {hour minute second nanosecond : Nat} {time : TimeOfDay} :
    ofClock? hour minute second nanosecond = some time ↔
      time.hour = hour ∧ time.minute = minute ∧ time.second = second ∧
        time.nanosecond = nanosecond := by
  constructor
  · intro hclock
    unfold ofClock? at hclock
    split at hclock
    · obtain rfl := Option.some.inj hclock
      simp only [TimeOfDay.hour, TimeOfDay.minute, TimeOfDay.second, TimeOfDay.nanosecond]
      omega
    · cases hclock
  · rintro ⟨rfl, rfl, rfl, rfl⟩
    exact ofClock?_clock time

end TimeOfDay

namespace Month

theorem number_bounds (month : Month) : 1 ≤ month.number ∧ month.number ≤ 12 := by
  unfold number
  omega

theorem ofYear_year_number (month : Month) : ofYear month.year month.number = month := by
  apply eq_of_index
  simp only [ofYear, year, number]
  omega

theorem eq_ofYear_iff {month : Month} {year number : Int} (hlow : 1 ≤ number)
    (hhigh : number ≤ 12) :
    month = ofYear year number ↔ month.year = year ∧ month.number = number := by
  constructor
  · rintro rfl
    simp only [ofYear, Month.year, Month.number]
    omega
  · rintro ⟨rfl, rfl⟩
    exact (ofYear_year_number month).symm

end Month

/-- In UTC it is the last minute of a month. -/
def Timestamp.IsLastMinute (timestamp : Timestamp) : Prop :=
  ∃ moment, timestamp.toUtc? = some moment ∧ moment.time.hour = 23 ∧ moment.time.minute = 59 ∧
    moment.date.day = moment.month.length

namespace Rfc3339

variable {count value nanosecond : Nat} {offset : Int} {chars rest : List Char}
  {timestamp : Timestamp} {parts : Parts}

/-! ### The parts of a text -/

theorem readDigits_padded (part : Part) (hcount : 0 < count) (hvalue : value < 10 ^ count) :
    readDigits part count (Text.padded count value ++ rest) = .ok (value, rest) := by
  rw [readDigits, Text.takeDigits_padded hcount hvalue]

theorem readDigits_two (part : Part) (hvalue : value < 100) :
    readDigits part 2 (Text.padded 2 value ++ rest) = .ok (value, rest) :=
  readDigits_padded part (by decide) hvalue

theorem readLiteral_self (literal : Char) (rest : List Char) :
    readLiteral literal (literal :: rest) = .ok rest :=
  if_pos rfl

theorem readDigits_eq_ok_iff (part : Part) (hcount : 0 < count) :
    readDigits part count chars = .ok (value, rest) ↔
      value < 10 ^ count ∧ chars = Text.padded count value ++ rest := by
  rw [← Text.takeDigits_eq_some_iff hcount, readDigits]
  split
  · rename_i htake
    rw [htake, Except.ok.injEq, Option.some.injEq]
  · rename_i htake
    simp [htake]

theorem readLiteral_eq_ok_iff {literal : Char} :
    readLiteral literal chars = .ok rest ↔ chars = literal :: rest := by
  cases chars with
  | nil => simp [readLiteral]
  | cons c chars =>
    by_cases hliteral : c = literal
    · simp [readLiteral, hliteral]
    · simp [readLiteral, hliteral]

theorem readSeparator_eq_ok_iff :
    readSeparator chars = .ok rest ↔ ∃ separator, separator.toNat < 128 ∧
      chars = separator :: rest := by
  cases chars with
  | nil => simp [readSeparator]
  | cons c chars =>
    by_cases hascii : c.toNat < 128
    · simp [readSeparator, hascii]
    · simp [readSeparator, hascii]

/-- Nothing, or a point and one or more digits, of which nine count. -/
inductive SpellsSubsecond : List Char → Nat → Prop
  | none : SpellsSubsecond [] 0
  | digits {digits : List Char} (hsome : digits ≠ []) (hdigits : ∀ c ∈ digits, Text.isDigit c) :
    SpellsSubsecond ('.' :: digits) (Text.digitsValue digits * 10 ^ 9 / 10 ^ digits.length)

theorem fraction_eq {digits : List Char} (hdigits : ∀ c ∈ digits, Text.isDigit c) :
    fraction digits = Text.digitsValue digits * 10 ^ 9 / 10 ^ digits.length := by
  rcases Nat.le_total digits.length 9 with hshort | hlong
  · have hpower : 10 ^ 9 = 10 ^ (9 - digits.length) * 10 ^ digits.length := by
      rw [← Nat.pow_add, Nat.sub_add_cancel hshort]
    rw [fraction, List.take_of_length_le hshort, hpower, ← Nat.mul_assoc,
      Nat.mul_div_cancel _ (Nat.pow_pos (by decide))]
    rfl
  · -- The digits past the ninth make up less than one.
    have hpower : 10 ^ digits.length = 10 ^ (digits.drop 9).length * 10 ^ 9 := by
      rw [← Nat.pow_add, List.length_drop, Nat.sub_add_cancel hlong]
    have hrest : Text.digitsValue (digits.drop 9) < 10 ^ (digits.drop 9).length :=
      Text.digitsValue_lt fun c hc => hdigits c (List.mem_of_mem_drop hc)
    have hvalue := Text.digitsValue_append (digits.take 9) (digits.drop 9)
    rw [List.take_append_drop] at hvalue
    rw [hpower, Nat.mul_div_mul_right _ _ (by decide), hvalue,
      Nat.mul_comm, Nat.mul_add_div (Nat.pow_pos (by decide)), Nat.div_eq_of_lt hrest, fraction,
      Nat.sub_eq_zero_of_le hlong]
    simp

def EndsSecond (rest : List Char) : Prop :=
  ∀ c ∈ rest.head?, Text.isDigit c = false ∧ c ≠ '.'

theorem endsSecond_cons {c : Char} (hdigit : Text.isDigit c = false) (hpoint : c ≠ '.') :
    EndsSecond (c :: rest) := by
  simp [EndsSecond, hdigit, hpoint]

theorem readSubsecond_append {text : List Char} (hspells : SpellsSubsecond text nanosecond)
    (hrest : EndsSecond rest) : readSubsecond (text ++ rest) = .ok (nanosecond, rest) := by
  cases hspells with
  | none =>
    cases rest with
    | nil => rfl
    | cons c rest => simp [readSubsecond, (hrest c rfl).2]
  | @digits digits hsome hdigits =>
    rw [List.cons_append, readSubsecond,
      Text.takeWhile_isDigit_append hdigits fun c hc => (hrest c hc).1,
      Text.dropWhile_isDigit_append hdigits fun c hc => (hrest c hc).1, fraction_eq hdigits]
    simp [hsome]

theorem exists_spellsSubsecond (hread : readSubsecond chars = .ok (nanosecond, rest)) :
    ∃ text, SpellsSubsecond text nanosecond ∧ chars = text ++ rest := by
  unfold readSubsecond at hread
  split at hread
  · rename_i after
    simp only at hread
    split at hread
    · cases hread
    · rename_i hsome
      obtain ⟨rfl, rfl⟩ := Prod.mk.inj (Except.ok.inj hread)
      have hdigits : ∀ c ∈ after.takeWhile Text.isDigit, Text.isDigit c :=
        fun c hc => List.mem_takeWhile_imp hc
      refine ⟨'.' :: after.takeWhile Text.isDigit, ?_, ?_⟩
      · rw [fraction_eq hdigits]
        exact .digits (by simpa using hsome) hdigits
      · rw [List.cons_append, List.takeWhile_append_dropWhile]
  · obtain ⟨rfl, rfl⟩ := Prod.mk.inj (Except.ok.inj hread)
    exact ⟨[], .none, rfl⟩

inductive SpellsOffset : List Char → Int → Prop
  | upper : SpellsOffset ['Z'] 0
  | lower : SpellsOffset ['z'] 0
  | ahead {hour minute : Nat} (hhour : hour ≤ 23) (hminute : minute ≤ 59) :
    SpellsOffset ('+' :: Text.padded 2 hour ++ ':' :: Text.padded 2 minute)
      (hour * 3600 + minute * 60 : Nat)
  | behind {hour minute : Nat} (hhour : hour ≤ 23) (hminute : minute ≤ 59) :
    SpellsOffset ('-' :: Text.padded 2 hour ++ ':' :: Text.padded 2 minute)
      (-(hour * 3600 + minute * 60 : Nat))

theorem SpellsOffset.isMinuteOffset {text : List Char} (hspells : SpellsOffset text offset) :
    IsMinuteOffset offset := by
  cases hspells with
  | upper => exact isMinuteOffset_zero
  | lower => exact isMinuteOffset_zero
  | ahead hhour hminute =>
    unfold IsMinuteOffset
    omega
  | behind hhour hminute =>
    unfold IsMinuteOffset
    omega

theorem readOffsetClock_eq_ok {sign : Int}
    (hread : readOffsetClock sign chars = .ok (offset, rest)) :
    ∃ hour minute : Nat, hour ≤ 23 ∧ minute ≤ 59 ∧
      chars = Text.padded 2 hour ++ ':' :: (Text.padded 2 minute ++ rest) ∧
      offset = sign * (hour * 3600 + minute * 60 : Nat) := by
  simp only [readOffsetClock] at hread
  obtain ⟨⟨hour, afterHour⟩, hhour, hread⟩ := bind_eq_ok_iff.1 hread
  split at hread
  · cases hread
  · rename_i hhourBound
    obtain ⟨afterColon, hcolon, hread⟩ := bind_eq_ok_iff.1 hread
    obtain ⟨⟨minute, afterMinute⟩, hminute, hread⟩ := bind_eq_ok_iff.1 hread
    split at hread
    · cases hread
    · rename_i hminuteBound
      obtain ⟨rfl, rfl⟩ := Prod.mk.inj (Except.ok.inj hread)
      obtain ⟨-, rfl⟩ := (readDigits_eq_ok_iff _ (by decide)).1 hhour
      obtain rfl : afterHour = ':' :: afterColon := readLiteral_eq_ok_iff.1 hcolon
      obtain ⟨-, rfl⟩ := (readDigits_eq_ok_iff _ (by decide)).1 hminute
      exact ⟨hour, minute, by omega, by omega, rfl, rfl⟩

theorem readOffsetClock_padded (sign : Int) {hour minute : Nat} (hhour : hour < 24)
    (hminute : minute < 60) :
    readOffsetClock sign (Text.padded 2 hour ++ ':' :: (Text.padded 2 minute ++ rest)) =
      .ok (sign * (hour * 3600 + minute * 60 : Nat), rest) := by
  simp only [readOffsetClock, readDigits_two .offsetHour (by omega : hour < 100),
    readLiteral_self, readDigits_two .offsetMinute (by omega : minute < 100), bind, Except.bind]
  rw [if_neg (by omega), if_neg (by omega)]
  rfl

theorem readOffset_eq_ok_iff :
    readOffset chars = .ok (offset, rest) ↔
      ∃ text, SpellsOffset text offset ∧ chars = text ++ rest := by
  constructor
  · intro hread
    unfold readOffset at hread
    split at hread
    · obtain ⟨rfl, rfl⟩ := Prod.mk.inj (Except.ok.inj hread)
      exact ⟨['Z'], .upper, rfl⟩
    · obtain ⟨rfl, rfl⟩ := Prod.mk.inj (Except.ok.inj hread)
      exact ⟨['z'], .lower, rfl⟩
    · obtain ⟨hour, minute, hhour, hminute, rfl, rfl⟩ := readOffsetClock_eq_ok hread
      rw [Int.one_mul]
      exact ⟨_, .ahead hhour hminute, by simp⟩
    · obtain ⟨hour, minute, hhour, hminute, rfl, rfl⟩ := readOffsetClock_eq_ok hread
      rw [Int.neg_one_mul]
      exact ⟨_, .behind hhour hminute, by simp⟩
    · cases hread
  · rintro ⟨text, hspells, rfl⟩
    cases hspells with
    | upper => rfl
    | lower => rfl
    | ahead hhour hminute =>
      simp only [List.cons_append, List.append_assoc, readOffset]
      rw [readOffsetClock_padded 1 (by omega) (by omega), Int.one_mul]
    | behind hhour hminute =>
      simp only [List.cons_append, List.append_assoc, readOffset]
      rw [readOffsetClock_padded (-1) (by omega) (by omega), Int.neg_one_mul]

/-! ### Whole texts -/

/-- The numbers of a timestamp as they are spelled, in range or not. -/
inductive Spells : List Char → Parts → Prop
  | parts {parts : Parts} {separator : Char} {subsecond offset : List Char}
    (hyear : parts.year < 10000) (hmonth : parts.month < 100) (hday : parts.day < 100)
    (hseparator : separator.toNat < 128) (hhour : parts.hour < 100) (hminute : parts.minute < 100)
    (hsecond : parts.second < 100) (hsubsecond : SpellsSubsecond subsecond parts.nanosecond)
    (hoffset : SpellsOffset offset parts.offset) :
    Spells
      (Text.padded 4 parts.year ++ '-' :: Text.padded 2 parts.month ++ '-' ::
        Text.padded 2 parts.day ++ separator :: Text.padded 2 parts.hour ++ ':' ::
        Text.padded 2 parts.minute ++ ':' :: Text.padded 2 parts.second ++ subsecond ++ offset)
      parts

theorem Spells.length_takeWhile (hspells : Spells chars parts) :
    (chars.takeWhile Text.isDigit).length = 4 := by
  cases hspells with
  | parts hyear =>
    simp only [List.append_assoc, List.cons_append]
    rw [Text.takeWhile_isDigit_append Text.isDigit_of_mem_padded (by simp; decide)]
    exact Text.length_padded (by decide) hyear

theorem endsSecond_of_spellsOffset {text : List Char} (hspells : SpellsOffset text offset) :
    EndsSecond text := by
  cases hspells with
  | upper | lower | ahead | behind => exact endsSecond_cons (by decide) (by decide)

theorem readParts_eq_ok_iff :
    readParts chars = .ok parts ↔ Spells chars parts ∧ parts.month ≠ 0 := by
  constructor
  · intro hread
    simp only [readParts] at hread
    obtain ⟨⟨year, afterYear⟩, hyear, hread⟩ := bind_eq_ok_iff.1 hread
    obtain ⟨afterFirstDash, hfirstDash, hread⟩ := bind_eq_ok_iff.1 hread
    obtain ⟨⟨month, afterMonth⟩, hmonth, hread⟩ := bind_eq_ok_iff.1 hread
    split at hread
    · cases hread
    · rename_i hsomeMonth
      obtain ⟨afterSecondDash, hsecondDash, hread⟩ := bind_eq_ok_iff.1 hread
      obtain ⟨⟨day, afterDay⟩, hday, hread⟩ := bind_eq_ok_iff.1 hread
      obtain ⟨afterSeparator, hseparator, hread⟩ := bind_eq_ok_iff.1 hread
      obtain ⟨⟨hour, afterHour⟩, hhour, hread⟩ := bind_eq_ok_iff.1 hread
      obtain ⟨afterFirstColon, hfirstColon, hread⟩ := bind_eq_ok_iff.1 hread
      obtain ⟨⟨minute, afterMinute⟩, hminute, hread⟩ := bind_eq_ok_iff.1 hread
      obtain ⟨afterSecondColon, hsecondColon, hread⟩ := bind_eq_ok_iff.1 hread
      obtain ⟨⟨second, afterSecond⟩, hsecond, hread⟩ := bind_eq_ok_iff.1 hread
      obtain ⟨⟨nanosecond, afterSubsecond⟩, hsubsecond, hread⟩ := bind_eq_ok_iff.1 hread
      obtain ⟨⟨offset, afterOffset⟩, hoffset, hread⟩ := bind_eq_ok_iff.1 hread
      split at hread
      · rename_i hend
        obtain rfl := Except.ok.inj hread
        obtain ⟨hyearLt, rfl⟩ := (readDigits_eq_ok_iff _ (by decide)).1 hyear
        obtain rfl : afterYear = _ := readLiteral_eq_ok_iff.1 hfirstDash
        obtain ⟨hmonthLt, rfl⟩ := (readDigits_eq_ok_iff _ (by decide)).1 hmonth
        obtain rfl : afterMonth = _ := readLiteral_eq_ok_iff.1 hsecondDash
        obtain ⟨hdayLt, rfl⟩ := (readDigits_eq_ok_iff _ (by decide)).1 hday
        obtain ⟨separator, hascii, rfl : afterDay = _⟩ := readSeparator_eq_ok_iff.1 hseparator
        obtain ⟨hhourLt, rfl⟩ := (readDigits_eq_ok_iff _ (by decide)).1 hhour
        obtain rfl : afterHour = _ := readLiteral_eq_ok_iff.1 hfirstColon
        obtain ⟨hminuteLt, rfl⟩ := (readDigits_eq_ok_iff _ (by decide)).1 hminute
        obtain rfl : afterMinute = _ := readLiteral_eq_ok_iff.1 hsecondColon
        obtain ⟨hsecondLt, rfl⟩ := (readDigits_eq_ok_iff _ (by decide)).1 hsecond
        obtain ⟨subsecond, hfraction, rfl : afterSecond = _⟩ := exists_spellsSubsecond hsubsecond
        obtain ⟨text, hzone, rfl : afterSubsecond = _⟩ := readOffset_eq_ok_iff.1 hoffset
        obtain rfl : afterOffset = [] := by simpa using hend
        have hspells : Spells _ ⟨year, month, day, hour, minute, second, nanosecond, offset⟩ :=
          .parts hyearLt hmonthLt hdayLt hascii hhourLt hminuteLt hsecondLt hfraction hzone
        refine ⟨?_, hsomeMonth⟩
        simpa only [List.append_assoc, List.cons_append, List.append_nil] using hspells
      · cases hread
  · rintro ⟨hspells, hsomeMonth⟩
    cases hspells with
    | @parts _ separator subsecond offset hyear hmonth hday hascii hhour hminute hsecond hsubsecond
        hoffset =>
      have hend := readOffset_eq_ok_iff.2 ⟨offset, hoffset, (List.append_nil _).symm⟩
      have hseparator : ∀ rest, readSeparator (separator :: rest) = .ok rest :=
        fun rest => readSeparator_eq_ok_iff.2 ⟨separator, hascii, rfl⟩
      simp only [readParts, List.append_assoc, List.cons_append,
        readDigits_padded .year (by decide : 0 < 4) hyear, readLiteral_self, hseparator,
        readDigits_two .month hmonth, readDigits_two .day hday, readDigits_two .hour hhour,
        readDigits_two .minute hminute, readDigits_two .second hsecond,
        readSubsecond_append hsubsecond (endsSecond_of_spellsOffset hoffset), hend, bind,
        Except.bind]
      rw [if_neg hsomeMonth]
      rfl

/-! ### The calendar and the clock -/

/-- What the numbers stand for: a date and a time of day that show them, or the last nanosecond of
a month in UTC in place of the leap second after it. -/
structure Parts.Denotes (parts : Parts) (timestamp : Timestamp) : Prop where
  year : timestamp.wall.year = parts.year
  month : timestamp.wall.month.number = parts.month
  day : timestamp.wall.date.day = parts.day
  hour : timestamp.wall.time.hour = parts.hour
  minute : timestamp.wall.time.minute = parts.minute
  second : (timestamp.wall.time.second = parts.second ∧
      timestamp.wall.time.nanosecond = parts.nanosecond) ∨
    (parts.second = 60 ∧ timestamp.wall.time.second = 59 ∧
      timestamp.wall.time.nanosecond = 999999999 ∧ timestamp.IsLastMinute)
  offset : timestamp.offset = parts.offset

theorem Parts.date_eq_ok_iff (hmonth : parts.month ≠ 0) {date : Date} :
    parts.date = .ok date ↔
      date.year = parts.year ∧ date.month.number = parts.month ∧ date.day = parts.day := by
  have hbounds := date.month.number_bounds
  unfold Parts.date
  by_cases hlate : 12 < parts.month
  · rw [if_pos hlate]
    exact iff_of_false nofun fun hnumbers => by omega
  · have hmonthOf : date.month = Month.ofYear parts.year parts.month ↔
        date.year = parts.year ∧ date.month.number = parts.month :=
      Month.eq_ofYear_iff (by omega) (by omega)
    rw [if_neg hlate, ← and_assoc, ← hmonthOf, ← Date.ofMonthDay?_eq_some_iff]
    split
    · rename_i hfound
      rw [hfound, Except.ok.injEq, Option.some.injEq]
    · rename_i hmissing
      simp [hmissing]

theorem Parts.time_eq_ok_iff {time : TimeOfDay} :
    parts.time = .ok time ↔
      time.hour = parts.hour ∧ time.minute = parts.minute ∧ time.second = parts.second ∧
        time.nanosecond = parts.nanosecond := by
  rw [← TimeOfDay.ofClock?_eq_some_iff, Parts.time]
  cases TimeOfDay.ofClock? parts.hour parts.minute parts.second parts.nanosecond with
  | some found => simp only [Except.ok.injEq, Option.some.injEq]
  | none =>
    by_cases hhour : 24 ≤ parts.hour
    · simp [hhour]
    · by_cases hminute : 60 ≤ parts.minute
      · simp [hhour, hminute]
      · simp [hhour, hminute]

/-- Offsets are whole minutes, so the second of the clock is the same in UTC. -/
theorem isMonthEnd_eq_true_iff (hoffset : IsMinuteOffset timestamp.offset)
    (hsecond : timestamp.wall.time.second = 59)
    (hnanosecond : timestamp.wall.time.nanosecond = 999999999) :
    isMonthEnd timestamp = true ↔ timestamp.IsLastMinute := by
  unfold isMonthEnd Timestamp.IsLastMinute
  cases hutc : timestamp.toUtc? with
  | none => simp
  | some moment =>
    have hinstant := Moment.ofNanos?_eq_some_iff.1 hutc
    have hclock : moment.time.nanos = 86399999999999 ↔
        moment.time.hour = 23 ∧ moment.time.minute = 59 := by
      have hwallTime := timestamp.wall.time.nanos_lt
      have htime := moment.time.nanos_lt
      have hminutes := hoffset.1
      simp only [Timestamp.instant, Moment.nanos] at hinstant
      simp only [TimeOfDay.hour, TimeOfDay.minute, TimeOfDay.second, TimeOfDay.nanosecond]
        at hsecond hnanosecond ⊢
      omega
    simp [hclock, and_assoc]

theorem Parts.timestamp_eq_ok_iff_settled :
    parts.timestamp = .ok timestamp ↔
      parts.settled.date = .ok timestamp.wall.date ∧
        parts.settled.time = .ok timestamp.wall.time ∧ timestamp.offset = parts.offset ∧
        (parts.second = 60 → isMonthEnd timestamp = true) := by
  constructor
  · intro hread
    simp only [Parts.timestamp] at hread
    obtain ⟨date, hdate, hread⟩ := bind_eq_ok_iff.1 hread
    obtain ⟨time, htime, hread⟩ := bind_eq_ok_iff.1 hread
    split at hread
    · cases hread
    · rename_i hsettled
      obtain rfl := Except.ok.inj hread
      refine ⟨hdate, htime, rfl, ?_⟩
      intro hleap
      simpa [hleap] using hsettled
  · rintro ⟨hdate, htime, hoffset, hleap⟩
    have hsame : (⟨⟨timestamp.wall.date, timestamp.wall.time⟩, parts.offset⟩ : Timestamp) =
        timestamp := by rw [← hoffset]
    simp only [Parts.timestamp, hdate, htime, bind, Except.bind, hsame]
    rw [if_neg (by simpa using hleap)]
    rfl

theorem Parts.month_settled (parts : Parts) : parts.settled.month = parts.month := by
  unfold Parts.settled
  split
  · rfl
  · rfl

theorem Parts.timestamp_eq_ok_iff (hmonth : parts.month ≠ 0)
    (hoffset : IsMinuteOffset parts.offset) :
    parts.timestamp = .ok timestamp ↔ parts.Denotes timestamp := by
  have hclock := timestamp.wall.time.clock_bounds
  have hsettledMonth : parts.settled.month ≠ 0 := by rwa [parts.month_settled]
  rw [timestamp_eq_ok_iff_settled, Parts.date_eq_ok_iff hsettledMonth, Parts.time_eq_ok_iff]
  by_cases hleap : parts.second = 60
  · have hsettled : parts.settled = { parts with second := 59, nanosecond := 999999999 } :=
      if_pos hleap
    rw [hsettled]
    constructor
    · rintro ⟨⟨hyear, hnumber, hday⟩, ⟨hhour, hminute, hsecond, hnanosecond⟩, hsame, hend⟩
      have hlast := (isMonthEnd_eq_true_iff (by rwa [hsame]) hsecond hnanosecond).1 (hend hleap)
      exact ⟨hyear, hnumber, hday, hhour, hminute, .inr ⟨hleap, hsecond, hnanosecond, hlast⟩, hsame⟩
    · rintro ⟨hyear, hnumber, hday, hhour, hminute, hsecond, hsame⟩
      obtain ⟨hsecond, -⟩ | ⟨-, hsecond, hnanosecond, hlast⟩ := hsecond
      · omega
      · have hend := (isMonthEnd_eq_true_iff (by rwa [hsame]) hsecond hnanosecond).2 hlast
        exact ⟨⟨hyear, hnumber, hday⟩, ⟨hhour, hminute, hsecond, hnanosecond⟩, hsame, fun _ => hend⟩
  · have hsettled : parts.settled = parts := if_neg hleap
    rw [hsettled]
    constructor
    · rintro ⟨⟨hyear, hnumber, hday⟩, ⟨hhour, hminute, hsecond, hnanosecond⟩, hsame, -⟩
      exact ⟨hyear, hnumber, hday, hhour, hminute, .inl ⟨hsecond, hnanosecond⟩, hsame⟩
    · rintro ⟨hyear, hnumber, hday, hhour, hminute, hsecond, hsame⟩
      obtain ⟨hsecond, hnanosecond⟩ := hsecond.resolve_right fun hlast => hleap hlast.1
      exact ⟨⟨hyear, hnumber, hday⟩, ⟨hhour, hminute, hsecond, hnanosecond⟩, hsame,
        fun hsixty => absurd hsixty hleap⟩

def IsTimestamp (chars : List Char) (timestamp : Timestamp) : Prop :=
  ∃ parts, Spells chars parts ∧ parts.Denotes timestamp

theorem Parts.Denotes.month_ne_zero (hdenotes : parts.Denotes timestamp) : parts.month ≠ 0 := by
  have hnumber := hdenotes.month
  have hbounds := timestamp.wall.month.number_bounds
  omega

theorem Spells.year_lt (hspells : Spells chars parts) : parts.year < 10000 := by
  cases hspells with
  | parts hyear => exact hyear

theorem Spells.isMinuteOffset (hspells : Spells chars parts) : IsMinuteOffset parts.offset := by
  cases hspells with
  | parts _ _ _ _ _ _ _ _ hoffset => exact hoffset.isMinuteOffset

/-- **Reading timestamps.** A text is read as a timestamp exactly if it is a written form of it. -/
theorem read_eq_ok_iff {text : String} :
    read text = .ok timestamp ↔ IsTimestamp text.toList timestamp := by
  unfold read
  rw [bind_eq_ok_iff]
  constructor
  · rintro ⟨parts, hparts, htimestamp⟩
    obtain ⟨hspells, hmonth⟩ := readParts_eq_ok_iff.1 hparts
    have hdenotes :=
      (Parts.timestamp_eq_ok_iff hmonth hspells.isMinuteOffset).1 htimestamp
    exact ⟨parts, hspells, hdenotes⟩
  · rintro ⟨parts, hspells, hdenotes⟩
    have hmonth := hdenotes.month_ne_zero
    exact ⟨parts, readParts_eq_ok_iff.2 ⟨hspells, hmonth⟩,
      (Parts.timestamp_eq_ok_iff hmonth hspells.isMinuteOffset).2 hdenotes⟩

theorem isWritable_of_read {text : String} (hread : read text = .ok timestamp) :
    timestamp.IsWritable := by
  obtain ⟨parts, hspells, hdenotes⟩ := read_eq_ok_iff.1 hread
  have hfour := hspells.year_lt
  have hyear := hdenotes.year
  exact ⟨⟨by omega, by omega⟩, hdenotes.offset ▸ hspells.isMinuteOffset⟩

/-! ### Written timestamps -/

def partsOf (timestamp : Timestamp) : Parts where
  year := timestamp.wall.date.year.toNat
  month := timestamp.wall.date.month.number.toNat
  day := timestamp.wall.date.day.toNat
  hour := timestamp.wall.time.hour
  minute := timestamp.wall.time.minute
  second := timestamp.wall.time.second
  nanosecond := timestamp.wall.time.nanosecond
  offset := timestamp.offset

theorem denotes_partsOf (hyear : timestamp.HasFourDigitYear) :
    (partsOf timestamp).Denotes timestamp := by
  have hmonth := timestamp.wall.month.number_bounds
  have hday := timestamp.wall.date.day_bounds
  exact
    { year := (Int.toNat_of_nonneg hyear.1).symm
      month := (Int.toNat_of_nonneg (Int.le_trans (by decide) hmonth.1)).symm
      day := (Int.toNat_of_nonneg (Int.le_trans (by decide) hday.1)).symm
      hour := rfl
      minute := rfl
      second := .inl ⟨rfl, rfl⟩
      offset := rfl }

/-- A timestamp's own numbers, however its separator, its fraction and its offset are spelled. -/
theorem isTimestamp_of_spells {separator : Char} {subsecond text : List Char}
    (hyear : timestamp.HasFourDigitYear) (hascii : separator.toNat < 128)
    (hsubsecond : SpellsSubsecond subsecond timestamp.wall.time.nanosecond)
    (hoffset : SpellsOffset text timestamp.offset) :
    IsTimestamp
      (writeDate timestamp.wall.date ++ separator ::
        (Text.padded 2 timestamp.wall.time.hour ++ ':' ::
          Text.padded 2 timestamp.wall.time.minute ++ ':' ::
          Text.padded 2 timestamp.wall.time.second ++ subsecond ++ text))
      timestamp := by
  obtain ⟨hhour, hminute, hsecond, -⟩ := timestamp.wall.time.clock_bounds
  have hmonth := timestamp.wall.date.month.number_bounds
  have hday := timestamp.wall.date.day_bounds
  have hlength := timestamp.wall.date.month.length_bounds
  have hlast : timestamp.wall.date.year ≤ 9999 := hyear.2
  have hspells : Spells _ (partsOf timestamp) :=
    .parts (by simp only [partsOf]; omega) (by simp only [partsOf]; omega)
      (by simp only [partsOf]; omega) hascii (by simp only [partsOf]; omega)
      (by simp only [partsOf]; omega) (by simp only [partsOf]; omega) hsubsecond hoffset
  refine ⟨partsOf timestamp, ?_, denotes_partsOf hyear⟩
  simpa [writeDate, partsOf] using hspells

end Rfc3339

end ChoreRota
