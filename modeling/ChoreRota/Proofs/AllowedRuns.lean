import ChoreRota.Proofs.Runs

/-!
# Runs of allowed events

What a statement asks of the events of a run is asked of each of them at the state that it meets.
`Along.induction` is the induction over such runs.
-/

namespace ChoreRota

namespace State

variable {window : Nat} {state next : State} {event : Event} {decision : Decision}

theorem after_cons [ZoneTable] (event : Event) (rest : List Event) :
    state.after window (event :: rest) = (state.step window event).2.after window rest := rfl

theorem run_cons [ZoneTable] (event : Event) (rest : List Event) :
    state.run window (event :: rest) =
      state.step window event :: (state.step window event).2.run window rest := rfl

def trace [ZoneTable] (window : Nat) (state : State) (events : List Event) :
    List (Event × Except Fault Report × State) :=
  events.zip (state.run window events)

@[simp]
theorem trace_cons [ZoneTable] (event : Event) (rest : List Event) :
    state.trace window (event :: rest) =
      (event, state.step window event) :: (state.step window event).2.trace window rest := rfl

/-- Every event of the run is allowed at the state that it meets. -/
def Along [ZoneTable] (window : Nat) (allowed : State → Event → Prop) (state : State) :
    List Event → Prop
  | [] => True
  | event :: rest => allowed state event ∧ Along window allowed (state.step window event).2 rest

section Along

variable {allowed : State → Event → Prop} {events past : List Event}

instance decidableAlong [ZoneTable] [∀ state event, Decidable (allowed state event)] (window : Nat)
    (state : State) : (events : List Event) → Decidable (state.Along window allowed events)
  | [] => .isTrue trivial
  | event :: rest =>
    have := decidableAlong window (state.step window event).2 rest
    inferInstanceAs (Decidable (allowed state event ∧ _))

theorem along_append [ZoneTable] {front back : List Event} :
    state.Along window allowed (front ++ back) ↔
      state.Along window allowed front ∧
        (state.after window front).Along window allowed back := by
  induction front generalizing state with
  | nil => simp [Along]
  | cons event front ih =>
    simp only [List.cons_append, Along, ih, and_assoc]
    rfl

theorem Along.of_prefix [ZoneTable] (hrun : state.Along window allowed events)
    (hpast : past <+: events) :
    state.Along window allowed past := by
  obtain ⟨rest, rfl⟩ := hpast
  exact (along_append.1 hrun).1

theorem Along.at_event [ZoneTable] (hrun : state.Along window allowed events)
    (hpast : past ++ [event] <+: events) : allowed (state.after window past) event :=
  (along_append.1 (hrun.of_prefix hpast)).2.1

theorem Along.induction [ZoneTable] {motive : List Event → State → Prop}
    (hrun : state.Along window allowed events) (hstart : motive [] state)
    (hkept : ∀ past current event, motive past current → allowed current event →
      motive (past ++ [event]) (current.step window event).2) :
    motive events (state.after window events) := by
  induction events using List.reverseRecOn with
  | nil => exact hstart
  | append_singleton events event ih =>
    obtain ⟨hpast, hlast, -⟩ := along_append.1 hrun
    rw [after_concat]
    exact hkept _ _ _ (ih hpast) hlast

end Along

/-- The event succeeds and finds a further occurrence. -/
def Schedules [ZoneTable] (window : Nat) (state : State) (event : Event) : Prop :=
  ∃ decision ∈ decisionOf (state.step window event).1, decision.becomesDormant = false

instance [ZoneTable] (window : Nat) (state : State) (event : Event) :
    Decidable (state.Schedules window event) :=
  inferInstanceAs (Decidable (∃ decision ∈ decisionOf (state.step window event).1, _))

theorem schedules_iff [ZoneTable] :
    state.Schedules window event ↔ ∃ decision next,
      state.step window event = (.ok (.decided decision), next) ∧
        decision.becomesDormant = false := by
  simp only [Schedules, Option.mem_def, decisionOf_eq_some_iff]
  constructor
  · rintro ⟨decision, hreport, hdormant⟩
    exact ⟨decision, _, Prod.ext hreport rfl, hdormant⟩
  · rintro ⟨decision, next, hstep, hdormant⟩
    exact ⟨decision, congrArg Prod.fst hstep, hdormant⟩

end State

end ChoreRota
