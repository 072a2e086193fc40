import BoundaryEventSdk.Java.Outcome

/-!
# The load generator

An `EventPump` creates `myRepeats` events, one after another.  It counts an
event before it sends it, and takes the count back when the attempt failed: in
the loop of `doWork` after a bad response, and in the loop of `run` after an
exception.

The two loops are a machine that stands before one of the two loop conditions
(`Location`).  A step tests the condition and carries out the loop body as far
as the next test, and the stop request may come between any two steps.  The
machine also writes down what no field of the program keeps: the numbers of the
accepted events and the count downs of the latch.

`inRange_run` bounds the counter over every run.  `CountsAccepted` says besides
that it counts the accepted events.  `countsAccepted_step_iff` finds the steps
that keep this and `countsAccepted_iff` the runs: the only exception that the
handler of `run` gets wrong is one that comes after the event was accepted.
-/

namespace BoundaryEventSdk.Event

open BoundaryEventSdk.Java

/-- The fields that the two loops use.  `interruptStatus` belongs to the thread
`t` of the pump. -/
structure EventPump where
  myRepeats : Int
  myMinimumResponse : Int
  myCount : Int := 0
  myStop : Bool := false
  myDummy : Bool := false
  interruptStatus : Bool := false
  deriving DecidableEq, Repr

/-- Where an attempt may throw: in the request, which ends when the response
code is read, in the `println` that reports the response, and in the sleep after
it. -/
inductive Point where
  | request
  | report
  | sleep
  deriving DecidableEq, Repr

/-- What the outside world does to one attempt: the response code, the
milliseconds until it was read, whether the sleep is interrupted, and where an
exception is thrown.  An exception at a point that is not reached has no
effect. -/
structure Attempt where
  response : Int
  elapsed : Int := 0
  interrupted : Bool := false
  thrownAt : Option Point := none
  deriving DecidableEq, Repr

/-- What an attempt leaves behind: the pump, the number of the event if the
response code was 201, and whether an exception left `doWork`. -/
structure Attempted where
  pump : EventPump
  accepted : Option Int
  threw : Bool
  deriving DecidableEq, Repr

namespace EventPump

def new (repeats minimumResponse : Int) (dummy : Bool) : EventPump where
  myRepeats := repeats
  myMinimumResponse := minimumResponse
  myDummy := dummy

/-- The loop condition, which is the same in `run` and in `doWork`. -/
def working (pump : EventPump) : Bool :=
  decide (pump.myCount < pump.myRepeats) && pump.myStop == false

/-- The body of the loop of `doWork`.  A dummy attempt sends no request and
keeps the initial response code. -/
def attempt (pump : EventPump) (outcome : Attempt) : Attempted :=
  let counted := { pump with myCount := pump.myCount + 1 }
  if pump.myDummy = false ∧ outcome.thrownAt = some .request then
    { pump := counted, accepted := none, threw := true }
  else
    let responseCode := if pump.myDummy then 201 else outcome.response
    if responseCode = 201 then
      if outcome.thrownAt = some .report then
        { pump := counted, accepted := some counted.myCount, threw := true }
      else if outcome.elapsed < pump.myMinimumResponse then
        if outcome.thrownAt = some .sleep then
          { pump := counted, accepted := some counted.myCount, threw := true }
        else
          -- An interrupted sleep is caught, and the status is set again.
          { pump :=
              { counted with interruptStatus := pump.interruptStatus || outcome.interrupted }
            accepted := some counted.myCount
            threw := false }
      else
        { pump := counted, accepted := some counted.myCount, threw := false }
    else
      let uncounted := { counted with myCount := counted.myCount - 1 }
      if outcome.thrownAt = some .report then
        { pump := counted, accepted := none, threw := true }
      else if responseCode = 429 then
        if outcome.thrownAt = some .sleep then
          { pump := counted, accepted := none, threw := true }
        else if pump.interruptStatus || outcome.interrupted then
          -- This sleep is not inside a `try`.
          { pump := { counted with interruptStatus := false }, accepted := none, threw := true }
        else
          { pump := uncounted, accepted := none, threw := false }
      else
        { pump := uncounted, accepted := none, threw := false }

/-- The handler of `run`: the last count was unsuccessful. -/
def uncount (pump : EventPump) : EventPump :=
  { pump with myCount := pump.myCount - 1 }

/-- The pump at the first test after an attempt. -/
def afterAttempt (pump : EventPump) (outcome : Attempt) : EventPump :=
  if (pump.attempt outcome).threw then (pump.attempt outcome).pump.uncount
  else (pump.attempt outcome).pump

/-! ## What an attempt does to the counter -/

/-- The response code of the attempt is 201. -/
def Accepts (pump : EventPump) (outcome : Attempt) : Prop :=
  pump.myDummy = true ∨ outcome.thrownAt ≠ some .request ∧ outcome.response = 201

/-- The attempt throws at a point that it reaches after the response code 201. -/
def ThrowsAccepted (pump : EventPump) (outcome : Attempt) : Prop :=
  pump.Accepts outcome ∧ (outcome.thrownAt = some .report ∨
    outcome.thrownAt = some .sleep ∧ outcome.elapsed < pump.myMinimumResponse)

variable {pump : EventPump} {outcome : Attempt}

theorem afterAttempt_myRepeats :
    (pump.afterAttempt outcome).myRepeats = pump.myRepeats := by
  have hattempt : (pump.attempt outcome).pump.myRepeats = pump.myRepeats := by
    unfold attempt
    dsimp only
    split_ifs <;> rfl
  unfold afterAttempt
  split_ifs
  · exact hattempt
  · exact hattempt

/-- An attempt that is answered 201 keeps its count, unless it throws. -/
theorem attempt_of_accepts (h : pump.Accepts outcome) :
    (pump.attempt outcome).accepted = some (pump.myCount + 1) ∧
      (pump.attempt outcome).pump.myCount = pump.myCount + 1 ∧
      ((pump.attempt outcome).threw = true ↔ pump.ThrowsAccepted outcome) := by
  have hrequest : ¬(pump.myDummy = false ∧ outcome.thrownAt = some .request) := by
    intro hthrows
    rcases h with hdummy | ⟨hreached, _⟩
    · exact absurd (hdummy.symm.trans hthrows.1) (by decide)
    · exact hreached hthrows.2
  have hcode : (if pump.myDummy = true then 201 else outcome.response) = 201 := by
    rcases h with hdummy | ⟨_, hresponse⟩
    · rw [if_pos hdummy]
    · rw [hresponse, ite_self]
  unfold attempt
  dsimp only
  rw [if_neg hrequest, if_pos hcode]
  split_ifs with hreport hslow hsleep
  · exact ⟨rfl, rfl, iff_of_true rfl ⟨h, Or.inl hreport⟩⟩
  · exact ⟨rfl, rfl, iff_of_true rfl ⟨h, Or.inr ⟨hsleep, hslow⟩⟩⟩
  · refine ⟨rfl, rfl, iff_of_false (fun hthrew => nomatch hthrew) fun hthrows => ?_⟩
    rcases hthrows.2 with hthrown | ⟨hthrown, _⟩
    · exact hreport hthrown
    · exact hsleep hthrown
  · refine ⟨rfl, rfl, iff_of_false (fun hthrew => nomatch hthrew) fun hthrows => ?_⟩
    rcases hthrows.2 with hthrown | ⟨_, helapsed⟩
    · exact hreport hthrown
    · exact hslow helapsed

/-- Any other attempt takes its count back, unless it throws. -/
theorem attempt_of_not_accepts (h : ¬pump.Accepts outcome) :
    (pump.attempt outcome).accepted = none ∧
      ((pump.attempt outcome).threw = true ∧
          (pump.attempt outcome).pump.myCount = pump.myCount + 1 ∨
        (pump.attempt outcome).threw = false ∧
          (pump.attempt outcome).pump.myCount = pump.myCount) := by
  have hdummy : pump.myDummy = false := by
    cases hdummy : pump.myDummy with
    | false => rfl
    | true => exact absurd (Or.inl hdummy) h
  have huncounted : pump.myCount + 1 - 1 = pump.myCount := Int.add_sub_cancel _ _
  have hcode : (if pump.myDummy = true then 201 else outcome.response) = outcome.response := by
    rw [hdummy, if_neg Bool.false_ne_true]
  unfold attempt
  dsimp only
  by_cases hrequest : outcome.thrownAt = some .request
  · rw [if_pos ⟨hdummy, hrequest⟩]
    exact ⟨rfl, Or.inl ⟨rfl, rfl⟩⟩
  · have hresponse : ¬outcome.response = 201 := fun hresponse => h (Or.inr ⟨hrequest, hresponse⟩)
    rw [if_neg fun hthrows => hrequest hthrows.2, hcode, if_neg hresponse]
    split_ifs with hreport hbusy hsleep hinterrupted
    · exact ⟨rfl, Or.inl ⟨rfl, rfl⟩⟩
    · exact ⟨rfl, Or.inl ⟨rfl, rfl⟩⟩
    · exact ⟨rfl, Or.inl ⟨rfl, rfl⟩⟩
    · exact ⟨rfl, Or.inr ⟨rfl, huncounted⟩⟩
    · exact ⟨rfl, Or.inr ⟨rfl, huncounted⟩⟩

/-- At the next test the attempt is counted if it was answered 201 and did not
throw after that.  Each way to fail takes the count back once. -/
theorem afterAttempt_myCount :
    (pump.Accepts outcome → ¬pump.ThrowsAccepted outcome →
        (pump.afterAttempt outcome).myCount = pump.myCount + 1) ∧
      (pump.ThrowsAccepted outcome → (pump.afterAttempt outcome).myCount = pump.myCount) ∧
      (¬pump.Accepts outcome → (pump.afterAttempt outcome).myCount = pump.myCount) := by
  unfold afterAttempt
  refine ⟨fun haccepts hreturns => ?_, fun hthrows => ?_, fun hrejects => ?_⟩
  · obtain ⟨_, hcount, hthrew⟩ := attempt_of_accepts haccepts
    rw [if_neg (hreturns ∘ hthrew.mp), hcount]
  · obtain ⟨_, hcount, hthrew⟩ := attempt_of_accepts hthrows.1
    rw [if_pos (hthrew.mpr hthrows), uncount, hcount, Int.add_sub_cancel]
  · obtain ⟨_, ⟨hthrew, hcount⟩ | ⟨hthrew, hcount⟩⟩ := attempt_of_not_accepts hrejects
    · rw [if_pos hthrew, uncount, hcount, Int.add_sub_cancel]
    · rw [if_neg (by rw [hthrew]; decide), hcount]

end EventPump

/-- The loop condition that is tested next, unless `run` has returned. -/
inductive Location where
  | run
  | doWork
  | returned
  deriving DecidableEq, Repr

/-- A pump in its two loops.  `accepted` has the value of `myCount` in each
accepted attempt, and `countDowns` the number of calls of `countDown`. -/
structure Execution where
  pump : EventPump
  location : Location := .run
  accepted : List Int := []
  countDowns : Nat := 0
  deriving DecidableEq, Repr

/-- A step of the surroundings: the stop request, or the next test with the
attempt that it may lead to. -/
inductive Action where
  | stop
  | test (outcome : Attempt)
  deriving DecidableEq, Repr

namespace Execution

/-- The pump when its thread starts. -/
def start (repeats minimumResponse : Int) (dummy : Bool) : Execution where
  pump := EventPump.new repeats minimumResponse dummy

def step (e : Execution) : Action → Execution
  | .stop => { e with pump := { e.pump with myStop := true } }
  | .test outcome =>
    match e.location with
    | .run =>
      if e.pump.working then { e with location := .doWork }
      else { e with location := .returned, countDowns := e.countDowns + 1 }
    | .doWork =>
      if e.pump.working then
        { e with
          pump := e.pump.afterAttempt outcome
          location := if (e.pump.attempt outcome).threw then .run else .doWork
          accepted := e.accepted ++ (e.pump.attempt outcome).accepted.toList }
      else
        -- The message that ends `doWork` belongs to no attempt, and it is printed.
        { e with location := .run }
    | .returned => e

variable {e : Execution} {outcome : Attempt}

theorem working_iff :
    e.pump.working = true ↔ e.pump.myCount < e.pump.myRepeats ∧ e.pump.myStop = false := by
  simp [EventPump.working]

theorem step_attempt (hlocation : e.location = .doWork) (hworking : e.pump.working = true) :
    e.step (.test outcome) = { e with
      pump := e.pump.afterAttempt outcome
      location := if (e.pump.attempt outcome).threw then .run else .doWork
      accepted := e.accepted ++ (e.pump.attempt outcome).accepted.toList } := by
  simp only [step, hlocation, hworking, if_true]

/-- Any other test leaves the counter alone. -/
theorem step_test_pump (h : ¬(e.location = .doWork ∧ e.pump.working = true)) :
    (e.step (.test outcome)).pump = e.pump := by
  cases hlocation : e.location with
  | run =>
    simp only [step, hlocation]
    split_ifs <;> rfl
  | doWork =>
    have hworking : ¬e.pump.working = true := fun hworking => h ⟨hlocation, hworking⟩
    simp only [step, hlocation, if_neg hworking]
  | returned => simp only [step, hlocation]

/-! ## The counter in its range -/

/-- The counter is where no `++` and no `--` of the two loops overflows. -/
def InRange (repeats : Int) (e : Execution) : Prop :=
  e.pump.myRepeats = repeats ∧ 0 ≤ e.pump.myCount ∧ e.pump.myCount ≤ max 0 repeats

theorem inRange_step {repeats : Int} (action : Action) (h : InRange repeats e) :
    InRange repeats (e.step action) := by
  cases action with
  | stop => exact h
  | test outcome =>
    by_cases hwork : e.location = .doWork ∧ e.pump.working = true
    · obtain ⟨hrepeats, hbounds⟩ := h
      have hroom := (working_iff.mp hwork.2).1
      have hcount : (e.pump.afterAttempt outcome).myCount = e.pump.myCount + 1 ∨
          (e.pump.afterAttempt outcome).myCount = e.pump.myCount := by
        obtain ⟨hcounted, hthrows, hrejects⟩ := @EventPump.afterAttempt_myCount e.pump outcome
        by_cases haccepts : e.pump.Accepts outcome
        · by_cases hthrown : e.pump.ThrowsAccepted outcome
          · exact Or.inr (hthrows hthrown)
          · exact Or.inl (hcounted haccepts hthrown)
        · exact Or.inr (hrejects haccepts)
      rw [step_attempt hwork.1 hwork.2]
      refine ⟨EventPump.afterAttempt_myRepeats.trans hrepeats, ?_⟩
      show 0 ≤ (e.pump.afterAttempt outcome).myCount ∧
        (e.pump.afterAttempt outcome).myCount ≤ max 0 repeats
      omega
    · rw [InRange, step_test_pump hwork]
      exact h

/-- Whatever the attempts throw, the counter stays in its range. -/
theorem inRange_run (repeats minimumResponse : Int) (dummy : Bool) (actions : List Action) :
    InRange repeats (run step (start repeats minimumResponse dummy) actions) :=
  run_invariant (InRange repeats) (fun _ => True) (fun _ action h _ => inRange_step action h)
    ⟨rfl, Int.le_refl 0, Int.le_max_left 0 repeats⟩ fun _ _ => trivial

/-! ## The accepted events are counted -/

/-- What the counter is for, at the tests of the two loop conditions and after
the return of `run`. -/
structure CountsAccepted (e : Execution) : Prop where
  count : e.pump.myCount = e.accepted.length
  bounds : 0 ≤ e.pump.myCount ∧ e.pump.myCount ≤ e.pump.myRepeats
  numbers : e.accepted = (List.range e.accepted.length).map fun i : Nat => (i : Int) + 1
  finished : e.location = .returned → e.pump.myStop = false →
    (e.accepted.length : Int) = e.pump.myRepeats
  countDowns : e.countDowns = if e.location = .returned then 1 else 0

/-- The step is an attempt that throws after its event was accepted. -/
def LosesAccepted (e : Execution) : Action → Prop
  | .stop => False
  | .test outcome =>
    e.location = .doWork ∧ e.pump.working = true ∧ e.pump.ThrowsAccepted outcome

theorem location_ne_returned (threw : Bool) :
    (if threw = true then Location.run else .doWork) ≠ .returned := by
  cases threw <;> decide

theorem CountsAccepted.countDowns_eq_zero (h : CountsAccepted e)
    (hlocation : e.location ≠ .returned) : e.countDowns = 0 := by
  rw [h.countDowns, if_neg hlocation]

theorem countsAccepted_start (repeats minimumResponse : Int) (dummy : Bool) :
    CountsAccepted (start repeats minimumResponse dummy) ↔ 0 ≤ repeats := by
  constructor
  · intro h
    exact h.bounds.2
  · intro hrepeats
    exact ⟨rfl, ⟨Int.le_refl 0, hrepeats⟩, rfl, nofun, rfl⟩

theorem countsAccepted_stop (h : CountsAccepted e) : CountsAccepted (e.step .stop) :=
  ⟨h.count, h.bounds, h.numbers, nofun, h.countDowns⟩

/-- A pump without a stop request leaves the loop of `run` when all its events
are counted. -/
theorem countsAccepted_testRun (h : CountsAccepted e) (hlocation : e.location = .run) :
    CountsAccepted (e.step (.test outcome)) := by
  have hcountDowns := h.countDowns_eq_zero (by rw [hlocation]; decide)
  by_cases hworking : e.pump.working = true
  · have hstep : e.step (.test outcome) = { e with location := .doWork } := by
      simp only [step, hlocation, hworking, if_true]
    rw [hstep]
    exact ⟨h.count, h.bounds, h.numbers, nofun, hcountDowns⟩
  · have hstep : e.step (.test outcome) =
        { e with location := .returned, countDowns := e.countDowns + 1 } := by
      simp only [step, hlocation, hworking, Bool.false_eq_true, if_false]
    rw [hstep]
    refine ⟨h.count, h.bounds, h.numbers, fun _ hstop => ?_, congrArg (· + 1) hcountDowns⟩
    have hreached : ¬e.pump.myCount < e.pump.myRepeats := by
      intro hbelow
      exact hworking (working_iff.mpr ⟨hbelow, hstop⟩)
    show (e.accepted.length : Int) = e.pump.myRepeats
    have hcount := h.count
    have hbounds := h.bounds
    omega

theorem countsAccepted_leaveWork (h : CountsAccepted e) (hlocation : e.location = .doWork)
    (hworking : ¬e.pump.working = true) : CountsAccepted (e.step (.test outcome)) := by
  have hstep : e.step (.test outcome) = { e with location := .run } := by
    simp only [step, hlocation, hworking, Bool.false_eq_true, if_false]
  have hcountDowns := h.countDowns_eq_zero (by rw [hlocation]; decide)
  rw [hstep]
  exact ⟨h.count, h.bounds, h.numbers, nofun, hcountDowns⟩

/-- The next event has the next number. -/
theorem countsAccepted_attempt_of_accepts (h : CountsAccepted e) (hlocation : e.location = .doWork)
    (hworking : e.pump.working = true) (haccepts : e.pump.Accepts outcome)
    (hkept : ¬e.pump.ThrowsAccepted outcome) : CountsAccepted (e.step (.test outcome)) := by
  have haccepted := (EventPump.attempt_of_accepts haccepts).1
  have hcount := EventPump.afterAttempt_myCount.1 haccepts hkept
  have hroom := (working_iff.mp hworking).1
  rw [step_attempt hlocation hworking, haccepted, Option.toList_some]
  refine ⟨?_, ?_, ?_, fun hreturned => absurd hreturned (location_ne_returned _), ?_⟩
  · show (e.pump.afterAttempt outcome).myCount = (e.accepted ++ [e.pump.myCount + 1]).length
    rw [hcount, h.count, List.length_append, List.length_singleton, Int.natCast_add]
    rfl
  · show 0 ≤ (e.pump.afterAttempt outcome).myCount ∧
      (e.pump.afterAttempt outcome).myCount ≤ (e.pump.afterAttempt outcome).myRepeats
    rw [hcount, EventPump.afterAttempt_myRepeats]
    have hbounds := h.bounds
    omega
  · show e.accepted ++ [e.pump.myCount + 1] =
      (List.range (e.accepted ++ [e.pump.myCount + 1]).length).map fun i : Nat => (i : Int) + 1
    rw [List.length_append, List.length_singleton, List.range_succ, List.map_append,
      ← h.numbers, h.count]
    rfl
  · rw [if_neg (location_ne_returned _)]
    exact h.countDowns_eq_zero (by rw [hlocation]; decide)

/-- A failed attempt leaves the counter and the accepted events alone. -/
theorem countsAccepted_attempt_of_not_accepts (h : CountsAccepted e)
    (hlocation : e.location = .doWork) (hworking : e.pump.working = true)
    (hrejects : ¬e.pump.Accepts outcome) : CountsAccepted (e.step (.test outcome)) := by
  have haccepted := (EventPump.attempt_of_not_accepts hrejects).1
  have hcount := EventPump.afterAttempt_myCount.2.2 hrejects
  rw [step_attempt hlocation hworking, haccepted, Option.toList_none, List.append_nil]
  refine ⟨hcount.trans h.count, ?_, h.numbers,
    fun hreturned => absurd hreturned (location_ne_returned _), ?_⟩
  · show 0 ≤ (e.pump.afterAttempt outcome).myCount ∧
      (e.pump.afterAttempt outcome).myCount ≤ (e.pump.afterAttempt outcome).myRepeats
    rw [hcount, EventPump.afterAttempt_myRepeats]
    exact h.bounds
  · rw [if_neg (location_ne_returned _)]
    exact h.countDowns_eq_zero (by rw [hlocation]; decide)

/-- The count of an accepted event is taken back, and the next event has the
same number. -/
theorem not_countsAccepted_of_throwsAccepted (h : CountsAccepted e)
    (hlocation : e.location = .doWork) (hworking : e.pump.working = true)
    (hthrows : e.pump.ThrowsAccepted outcome) : ¬CountsAccepted (e.step (.test outcome)) := by
  intro hafter
  have haccepted := (EventPump.attempt_of_accepts hthrows.1).1
  have hcount := hafter.count
  rw [step_attempt hlocation hworking, EventPump.afterAttempt_myCount.2.1 hthrows, haccepted,
    Option.toList_some, List.length_append, h.count, List.length_singleton] at hcount
  omega

theorem countsAccepted_step_iff (action : Action) (h : CountsAccepted e) :
    CountsAccepted (e.step action) ↔ ¬e.LosesAccepted action := by
  cases action with
  | stop => exact iff_of_true (countsAccepted_stop h) id
  | test outcome =>
    rw [LosesAccepted]
    by_cases hwork : e.location = .doWork ∧ e.pump.working = true
    · obtain ⟨hlocation, hworking⟩ := hwork
      constructor
      · intro hafter hloses
        exact not_countsAccepted_of_throwsAccepted h hlocation hworking hloses.2.2 hafter
      · intro hkept
        by_cases haccepts : e.pump.Accepts outcome
        · exact countsAccepted_attempt_of_accepts h hlocation hworking haccepts
            fun hthrows => hkept ⟨hlocation, hworking, hthrows⟩
        · exact countsAccepted_attempt_of_not_accepts h hlocation hworking haccepts
    · refine iff_of_true ?_ fun hloses => hwork ⟨hloses.1, hloses.2.1⟩
      cases hlocation : e.location with
      | run => exact countsAccepted_testRun h hlocation
      | doWork =>
        exact countsAccepted_leaveWork h hlocation fun hworking => hwork ⟨hlocation, hworking⟩
      | returned =>
        have hstep : e.step (.test outcome) = e := by
          simp only [step, hlocation]
        rw [hstep]
        exact h

/-- The load generator counts the accepted events all along a run exactly when
the number of repeats is not negative and no attempt throws after its event was
accepted. -/
theorem countsAccepted_iff (repeats minimumResponse : Int) (dummy : Bool) (actions : List Action) :
    (∀ front, front <+: actions →
        CountsAccepted (run step (start repeats minimumResponse dummy) front)) ↔
      0 ≤ repeats ∧ ∀ front action, front ++ [action] <+: actions →
        ¬(run step (start repeats minimumResponse dummy) front).LosesAccepted action := by
  rw [run_invariant_iff CountsAccepted (fun e action => ¬e.LosesAccepted action)
    fun e action h => countsAccepted_step_iff action h, countsAccepted_start]

/-- The report of the first event throws, so the second event has its number. -/
theorem not_countsAccepted_reportThrows :
    ¬CountsAccepted (run step (start 1 500 false)
        [.test { response := 201 }, .test { response := 201, thrownAt := some .report }]) ∧
      (run step (start 1 500 false)
        [.test { response := 201 }, .test { response := 201, thrownAt := some .report },
          .test { response := 201 }, .test { response := 201 }, .test { response := 201 },
          .test { response := 201 }]).accepted = [1, 1] := by
  constructor
  · intro h
    exact absurd h.count (by decide)
  · decide

end Execution

end BoundaryEventSdk.Event
