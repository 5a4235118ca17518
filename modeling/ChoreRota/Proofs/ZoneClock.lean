import Mathlib.Data.List.Chain
import ChoreRota.Calendar.Zone

/-!
# The clock of a zone

Between two instants with at most one transition a zone has one offset up to some instant and
another one from it on (`exists_changesAt`). So it is known which readings its clock leaps over, and
where a schedule goes that counts days on it (`reading_daysLater`).
-/

namespace ChoreRota

def weekdayOf (reading : Int) : Weekday :=
  weekdayOfDay (reading / 86400000000000)

theorem weekdayOf_nanos (moment : Moment) : weekdayOf moment.nanos = moment.weekday := by
  have htime := moment.time.nanos_lt
  rw [weekdayOf, Moment.weekday, Date.weekday, Moment.nanos]
  congr 1
  omega

namespace Zone

def reading (zone : Zone) (instant : Int) : Int :=
  instant + seconds (zone.offsetAt instant)

/-- The clock jumps forward over a reading: one nanosecond it shows less, and the next one more. -/
def LeapsOver (zone : Zone) (reading jump : Int) : Prop :=
  ∃ instant, zone.reading (instant - 1) < reading ∧ reading < zone.reading instant ∧
    jump = zone.reading instant - zone.reading (instant - 1) - 1

theorem clockAt?_eq_some_iff {zone : Zone} {timestamp clock : Timestamp} :
    zone.clockAt? timestamp = some clock ↔
      clock.wall.nanos = zone.reading timestamp.instant ∧
        clock.offset = zone.offsetAt timestamp.instant := by
  rw [clockAt?, Timestamp.withOffset?, Option.map_eq_some_iff, reading, seconds]
  constructor
  · rintro ⟨wall, hwall, rfl⟩
    exact ⟨Moment.ofNanos?_eq_some_iff.1 hwall, rfl⟩
  · rintro ⟨hwall, hoffset⟩
    refine ⟨clock.wall, Moment.ofNanos?_eq_some_iff.2 hwall, ?_⟩
    cases clock
    rw [← hoffset]

theorem offsetAfter_mem (second offset : Int) (transitions : List Transition) :
    offsetAfter second offset transitions ∈ offset :: transitions.map Transition.offset := by
  induction transitions generalizing offset with
  | nil => exact List.mem_cons_self
  | cons transition rest ih =>
    rw [offsetAfter]
    split
    · exact List.mem_cons_of_mem _ (ih transition.offset)
    · exact List.mem_cons_self

theorem offsetAfter_of_start_le {second offset : Int} {transition : Transition}
    {rest : List Transition} (hpast : transition.start ≤ second) :
    offsetAfter second offset (transition :: rest) =
      offsetAfter second transition.offset rest := by
  rw [offsetAfter, if_pos hpast]

theorem offsetAfter_of_lt_start {second offset : Int} {transitions : List Transition}
    (hahead : ∀ transition ∈ transitions.head?, second < transition.start) :
    offsetAfter second offset transitions = offset := by
  cases transitions with
  | nil => rfl
  | cons transition rest =>
    have hstart := hahead transition rfl
    rw [offsetAfter, if_neg (by omega)]

/-- A transition that is the only one past a second, up to the last that is asked about. -/
theorem offsetAfter_of_only {second last offset : Int} {transition : Transition}
    {rest : List Transition} (hbehind : ∀ following ∈ rest, last < following.start)
    (hlast : second ≤ last) :
    offsetAfter second offset (transition :: rest) =
      if second < transition.start then offset else transition.offset := by
  split
  · exact offsetAfter_of_lt_start (by simpa using ‹second < transition.start›)
  · rw [offsetAfter_of_start_le (by omega)]
    refine offsetAfter_of_lt_start fun following hfollowing => ?_
    have hstart := hbehind following (List.mem_of_mem_head? hfollowing)
    omega

theorem lt_start_of_filter_length_le_one {first last : Int} {transition : Transition}
    {rest : List Transition} (hnext : ∀ following ∈ rest, transition.start ≤ following.start)
    (hfirst : first < transition.start) (hlast : transition.start ≤ last)
    (hone : ((transition :: rest).filter fun transition =>
      first < transition.start ∧ transition.start ≤ last).length ≤ 1) :
    ∀ following ∈ rest, last < following.start := by
  intro following hfollowing
  rw [List.filter_cons_of_pos (by simp; omega), List.length_cons] at hone
  have hstart := hnext following hfollowing
  have hnone := List.length_eq_zero_iff.1 (Nat.le_zero.1 (Nat.le_of_succ_le_succ hone))
  have hout := List.filter_eq_nil_iff.1 hnone following hfollowing
  simp only [decide_eq_true_eq] at hout
  omega

theorem exists_offsetAfter_eq {first last offset : Int} {transitions : List Transition}
    (hle : first ≤ last)
    (hsorted : transitions.Pairwise fun earlier later => earlier.start ≤ later.start)
    (hone : (transitions.filter fun transition =>
      first < transition.start ∧ transition.start ≤ last).length ≤ 1) :
    ∃ change, ∀ second, first ≤ second → second ≤ last →
      offsetAfter second offset transitions =
        if second < change then offsetAfter first offset transitions
        else offsetAfter last offset transitions := by
  induction transitions generalizing offset with
  | nil =>
    simp only [offsetAfter, ite_self]
    exact ⟨first, fun _ _ _ => trivial⟩
  | cons transition rest ih =>
    obtain ⟨hnext, hrest⟩ := List.pairwise_cons.1 hsorted
    by_cases hpast : transition.start ≤ first
    · rw [List.filter_cons_of_neg (by simp; omega)] at hone
      obtain ⟨change, hchange⟩ := ih hrest hone
      rw [offsetAfter_of_start_le hpast, offsetAfter_of_start_le (Int.le_trans hpast hle)]
      refine ⟨change, fun second hlow hhigh => ?_⟩
      rw [offsetAfter_of_start_le (Int.le_trans hpast hlow)]
      exact hchange second hlow hhigh
    · by_cases hahead : last < transition.start
      · have hoffset : ∀ second, second ≤ last →
            offsetAfter second offset (transition :: rest) = offset := by
          intro second hhigh
          exact offsetAfter_of_lt_start (by simpa using Int.lt_of_le_of_lt hhigh hahead)
        refine ⟨first, fun second _ hhigh => ?_⟩
        rw [hoffset first hle, hoffset last (Int.le_refl last), hoffset second hhigh, ite_self]
      · have hbehind := lt_start_of_filter_length_le_one hnext (by omega) (by omega) hone
        refine ⟨transition.start, fun second _ hhigh => ?_⟩
        rw [offsetAfter_of_only hbehind hle, if_pos (Int.not_le.1 hpast),
          offsetAfter_of_only hbehind (Int.le_refl last), if_neg hahead]
        exact offsetAfter_of_only hbehind hhigh

variable {zone : Zone}

theorem offsetAt_bounds (zone : Zone) (instant : Int) :
    -93600 < zone.offsetAt instant ∧ zone.offsetAt instant < 93600 :=
  zone.bounded _ (offsetAfter_mem _ _ _)

def ChangesAtMostOnce (zone : Zone) (first last : Int) : Prop :=
  (zone.transitions.filter fun transition =>
    first < seconds transition.start ∧ seconds transition.start ≤ last).length ≤ 1

instance (zone : Zone) (first last : Int) : Decidable (zone.ChangesAtMostOnce first last) :=
  inferInstanceAs (Decidable (_ ≤ 1))

/-- Between two instants the clock has one offset before `change` and another one from it on. -/
def ChangesAt (zone : Zone) (first last change : Int) : Prop :=
  ∀ instant, first ≤ instant → instant ≤ last →
    zone.offsetAt instant = if instant < change then zone.offsetAt first else zone.offsetAt last

theorem exists_changesAt {first last : Int} (hle : first ≤ last)
    (hone : zone.ChangesAtMostOnce first last) : ∃ change, zone.ChangesAt first last change := by
  have hsame : ∀ transition ∈ zone.transitions,
      decide (first / 1000000000 < transition.start ∧ transition.start ≤ last / 1000000000) =
        decide (first < seconds transition.start ∧ seconds transition.start ≤ last) := by
    intro transition _
    unfold seconds
    exact decide_eq_decide.2 (by omega)
  rw [ChangesAtMostOnce, ← List.filter_congr hsame] at hone
  obtain ⟨change, hchange⟩ := exists_offsetAfter_eq (by omega) zone.sorted hone
  refine ⟨seconds change, fun instant hlow hhigh => ?_⟩
  have hbefore : instant / 1000000000 < change ↔ instant < seconds change := by
    unfold seconds
    omega
  unfold offsetAt
  rw [hchange (instant / 1000000000) (by omega) (by omega)]
  simp only [hbefore]

/-- An instant at which the clock shows a reading is less than 26 hours from it. -/
theorem ChangesAt.leapsOver_iff {first last change reading jump : Int}
    (hchange : zone.ChangesAt first last change) (hlow : first + seconds 93600 ≤ reading)
    (hhigh : reading + seconds 93600 ≤ last) :
    zone.LeapsOver reading jump ↔
      change + seconds (zone.offsetAt first) ≤ reading ∧
        reading < change + seconds (zone.offsetAt last) ∧
        jump = seconds (zone.offsetAt last) - seconds (zone.offsetAt first) := by
  unfold LeapsOver Zone.reading
  unfold seconds at *
  constructor
  · rintro ⟨instant, hbefore, hafter, rfl⟩
    have hboundsBefore := zone.offsetAt_bounds (instant - 1)
    have hbounds := zone.offsetAt_bounds instant
    have hoffsetBefore := hchange (instant - 1) (by omega) (by omega)
    have hoffset := hchange instant (by omega) (by omega)
    split at hoffsetBefore <;> split at hoffset <;> omega
  · rintro ⟨hstart, hend, rfl⟩
    have hboundsFirst := zone.offsetAt_bounds first
    have hboundsLast := zone.offsetAt_bounds last
    have hoffsetBefore := hchange (change - 1) (by omega) (by omega)
    have hoffset := hchange change (by omega) (by omega)
    rw [if_pos (by omega)] at hoffsetBefore
    rw [if_neg (by omega)] at hoffset
    exact ⟨change, by omega, by omega, by omega⟩

/-- Where a schedule puts the reading some days later: by the offset in force so many days later. -/
def daysLater (zone : Zone) (base count : Int) : Int :=
  base + days count - seconds (zone.offsetAt (base + days count) - zone.offsetAt base)

theorem instant_guess {wall : Moment} {base count : Int}
    (hwall : wall.nanos = zone.reading base + days count) :
    Timestamp.instant ⟨wall, zone.offsetAt base⟩ = base + days count := by
  simp only [Timestamp.instant, hwall, reading, seconds]
  omega

theorem instant_settled {wall : Moment} {base count : Int}
    (hwall : wall.nanos = zone.reading base + days count) :
    Timestamp.instant ⟨wall, zone.offsetAt (base + days count)⟩ = zone.daysLater base count := by
  simp only [Timestamp.instant, hwall, reading, daysLater, seconds]
  omega

theorem reading_daysLater_eq (zone : Zone) (base count : Int) :
    zone.reading (zone.daysLater base count) = zone.reading base + days count -
      (seconds (zone.offsetAt (base + days count)) -
        seconds (zone.offsetAt (zone.daysLater base count))) := by
  unfold reading seconds
  generalize hlater : zone.offsetAt (zone.daysLater base count) = later
  unfold daysLater seconds
  omega

/-- Around a single change the clock leaps over the reading asked for exactly when it goes forward
between the result and the guess, and leaps by what the offsets there differ in. -/
theorem ChangesAt.leapsOver_daysLater_iff {change base count jump : Int}
    (hchange : zone.ChangesAt (base - days 2) (base + days 10) change) (hone : 1 ≤ count)
    (hseven : count ≤ 7) :
    zone.LeapsOver (zone.reading base + days count) jump ↔
      zone.offsetAt (zone.daysLater base count) ≠ zone.offsetAt (base + days count) ∧
        jump = seconds (zone.offsetAt (base + days count)) -
          seconds (zone.offsetAt (zone.daysLater base count)) := by
  unfold days at *
  generalize hguessAt : base + count * 86400000000000 = guess
  have hbaseBounds := zone.offsetAt_bounds base
  have hguessBounds := zone.offsetAt_bounds guess
  have hreading : zone.reading base = base + zone.offsetAt base * 1000000000 := rfl
  have hvalue : zone.daysLater base count =
      guess - (zone.offsetAt guess - zone.offsetAt base) * 1000000000 := by
    rw [← hguessAt]
    rfl
  have hbase := hchange base (by omega) (by omega)
  have hguess := hchange guess (by omega) (by omega)
  have hlater := hchange (zone.daysLater base count) (by omega) (by omega)
  rw [hchange.leapsOver_iff (by unfold seconds; omega) (by unfold seconds; omega), hreading]
  unfold seconds
  by_cases hbefore : guess < change
  · rw [if_pos hbefore] at hguess
    rw [if_pos (by omega)] at hbase hlater
    omega
  · rw [if_neg hbefore] at hguess
    split at hbase <;> split at hlater <;> omega

/-- Around a single change the clock shows the reading asked for, up to seven days later, unless it
leaps over that reading; then it shows one that is earlier by the leap. -/
theorem reading_daysLater {base count : Int}
    (honce : zone.ChangesAtMostOnce (base - days 2) (base + days 10)) (hone : 1 ≤ count)
    (hseven : count ≤ 7) :
    (∀ jump, ¬zone.LeapsOver (zone.reading base + days count) jump) ∧
        zone.reading (zone.daysLater base count) = zone.reading base + days count ∨
      ∃ jump, (∀ other, zone.LeapsOver (zone.reading base + days count) other ↔ other = jump) ∧
        zone.reading (zone.daysLater base count) = zone.reading base + days count - jump := by
  obtain ⟨change, hchange⟩ := exists_changesAt (by unfold days; omega) honce
  have hleaps : ∀ jump, zone.LeapsOver (zone.reading base + days count) jump ↔ _ := fun jump =>
    hchange.leapsOver_daysLater_iff hone hseven
  rw [reading_daysLater_eq]
  by_cases hsame : zone.offsetAt (zone.daysLater base count) = zone.offsetAt (base + days count)
  · refine .inl ⟨fun jump hjump => ((hleaps jump).1 hjump).1 hsame, ?_⟩
    rw [hsame]
    omega
  · refine .inr ⟨_, fun jump => (hleaps jump).trans ?_, rfl⟩
    exact and_iff_right hsame

theorem lt_daysLater_iff {base count : Int} :
    base < zone.daysLater base count ↔
      zone.reading (base + days count) < zone.reading base + days (2 * count) := by
  unfold daysLater reading seconds days
  omega

/-- A clock that gains a day at most never takes a schedule back, and makes it stand still only
where it leaps over the whole of the next day. -/
theorem le_daysLater {base count : Int}
    (hgain : zone.reading (base + days count) ≤ zone.reading base + days (count + 1))
    (hone : 1 ≤ count) :
    base ≤ zone.daysLater base count ∧
      (base = zone.daysLater base count ↔
        count = 1 ∧ zone.reading (base + days 1) = zone.reading base + days 2) := by
  unfold daysLater Zone.reading at *
  refine ⟨by unfold seconds days at *; omega, ?_⟩
  constructor
  · intro hstill
    obtain rfl : count = 1 := by unfold seconds days at *; omega
    exact ⟨rfl, by unfold seconds days at *; omega⟩
  · rintro ⟨rfl, hleap⟩
    unfold seconds days at *
    omega

end Zone

end ChoreRota
