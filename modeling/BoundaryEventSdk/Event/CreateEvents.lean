import Mathlib.Data.List.Nodup
import BoundaryEventSdk.Event.EventPump
import BoundaryEventSdk.Java.Text

/-!
# The main thread of the load generator

`CreateEvents.main` starts its event pumps, each in a thread of its own, and
waits for a latch that every pump counts down when its `run` returns.  If the
latch takes too long, it asks the threads that are still alive to stop, and
joins all of them.

A state holds the execution of every pump, the latch, and the place where the
main thread is.  A turn belongs to one of the threads, so a list of turns is one
interleaving.  What the scheduler, the clock and the server decide comes with
the turn: the attempt of a pump, whether the time of the main thread is up, and
whether a thread whose `run` has returned is still alive.

The main thread may be interrupted.  The wait for the latch catches the
exception and goes on as if the latch had been released; the countdown before the
pumps are started and a `join` do not catch it, and `main` ends with it.

* `Coordinated` ties the latch to the pumps: it holds the number of pumps that
  have not returned, and the main thread returns before they have only if it was
  interrupted in its wait.
* `Complete` is about a run in which no accepted event is lost: unless the main
  thread was interrupted or the time was up, every pump has created all its events
  when the main thread returns.  The title of an event is its fingerprint, and all
  titles are different.
-/

namespace BoundaryEventSdk.Event

open BoundaryEventSdk.Java

/-- `define.THREADMAX`. -/
def THREADMAX : Nat := 30

/-- `define.COUNTDOWN`. -/
def COUNTDOWN : Nat := 3

/-- `define.UNIQUEMULTIPLIER`. -/
def UNIQUEMULTIPLIER : Int := 100000000

/-- The title of an event, in the request of `doWork`. -/
def eventTitle (myUniqueKey : Int) (myId : Nat) (myCount : Int) : JString :=
  utf16 "Rivington Test Event " ++ decimal myUniqueKey ++ utf16 "/" ++ decimal myId ++ utf16 "/" ++
    decimal (myCount.tmod UNIQUEMULTIPLIER)

/-- The statement that the main thread is at.  The number is the index of a loop, before its
test. -/
inductive MainLocation where
  | countdown (i : Nat)
  | start (i : Nat)
  | await
  | closeDown (i : Nat)
  | join (i : Nat)
  | returned
  /-- `main` has ended with the `InterruptedException` of the countdown. -/
  | threwEarly
  /-- `main` has ended with that of a `join`. -/
  | threw
  deriving DecidableEq, Repr

/-- The main thread with its event pumps. -/
structure CreateEvents where
  threadList : List Execution
  uniqueKey : Int
  latch : Nat
  latchState : Bool := true
  main : MainLocation := .countdown COUNTDOWN
  /-- The interrupt status of the main thread. -/
  interrupted : Bool := false

/-- One thread is given its turn. -/
inductive Turn where
  /-- The next test of a pump. -/
  | thread (i : Nat) (outcome : Attempt)
  /-- The next statement of the main thread. -/
  | main (timeout alive : Bool)
  /-- The main thread is interrupted. -/
  | interrupt
  deriving DecidableEq, Repr

/-- Where the attempt of a turn throws. -/
def Turn.thrownAt : Turn → Option Point
  | .thread _ outcome => outcome.thrownAt
  | .main _ _ => none
  | .interrupt => none

namespace CreateEvents

/-- `main`, up to the countdown. -/
def new (threads : Nat) (repeats minimumResponse uniqueKey : Int) (dummy : Bool) : CreateEvents :=
  let threads := if threads > THREADMAX then THREADMAX else threads
  { threadList := List.replicate threads (Execution.start repeats minimumResponse dummy)
    uniqueKey := uniqueKey
    latch := threads }

/-- `run` of the thread has returned. -/
def Finished (e : Execution) : Prop :=
  e.location = .returned

instance : DecidablePred Finished :=
  fun e => inferInstanceAs (Decidable (e.location = .returned))

/-- The thread was started. -/
def started (s : CreateEvents) (i : Nat) : Bool :=
  match s.main with
  | .countdown _ | .threwEarly => false
  | .start k => decide (i < k)
  | _ => true

/-- A turn of a pump.  `CountDownLatch.countDown` does nothing at zero. -/
def threadStep (s : CreateEvents) (i : Nat) (outcome : Attempt) : CreateEvents :=
  match s.threadList[i]? with
  | none => s
  | some e =>
    if s.started i then
      { s with
        threadList := s.threadList.set i (e.step (.test outcome))
        latch := s.latch - ((e.step (.test outcome)).countDowns - e.countDowns) }
    else s

/-- The test of `latchState`. -/
def afterAwait (s : CreateEvents) : CreateEvents :=
  if s.latchState then { s with main := .returned } else { s with main := .closeDown 0 }

/-- A turn of the main thread.  It stays where it is while it waits. -/
def mainStep (s : CreateEvents) (timeout alive : Bool) : CreateEvents :=
  match s.main with
  | .countdown i =>
    if i = 0 then { s with main := .start 0 }
    else if s.interrupted then { s with interrupted := false, main := .threwEarly }
    else { s with main := .countdown (i - 1) }
  | .start i =>
    if i < s.threadList.length then { s with main := .start (i + 1) } else { s with main := .await }
  | .await =>
    -- The exception is caught, and `latchState` is not set.
    if s.interrupted then { s with interrupted := false }.afterAwait
    else if s.latch = 0 then { s with latchState := true }.afterAwait
    else if timeout then { s with latchState := false }.afterAwait
    else s
  | .closeDown i =>
    match s.threadList[i]? with
    | none => { s with main := .join 0 }
    | some e =>
      if ¬Finished e ∨ alive then
        { s with threadList := s.threadList.set i (e.step .stop), main := .closeDown (i + 1) }
      else { s with main := .closeDown (i + 1) }
  | .join i =>
    match s.threadList[i]? with
    | none => { s with main := .returned }
    | some e =>
      -- A thread that is not alive is joined whether `main` is interrupted or not.
      if ¬Finished e ∨ alive then
        if s.interrupted then { s with interrupted := false, main := .threw } else s
      else { s with main := .join (i + 1) }
  | .returned | .threwEarly | .threw => s

def step (s : CreateEvents) : Turn → CreateEvents
  | .thread i outcome => s.threadStep i outcome
  | .main timeout alive => s.mainStep timeout alive
  | .interrupt => { s with interrupted := true }

/-- The titles of the accepted events. -/
def titles (s : CreateEvents) : List JString :=
  (s.threadList.mapIdx fun id e => e.accepted.map (eventTitle s.uniqueKey id)).flatten

/-! ## A turn of one pump -/

/-- A pump that has returned stays where it is.  Any other pump goes on, or it
returns and counts the latch down. -/
theorem execution_step_cases (e : Execution) (outcome : Attempt) :
    (e.step (.test outcome)).countDowns = e.countDowns ∧
        (Finished (e.step (.test outcome)) ↔ Finished e) ∨
      (e.step (.test outcome)).countDowns = e.countDowns + 1 ∧
        Finished (e.step (.test outcome)) ∧ ¬Finished e := by
  unfold Finished
  cases hlocation : e.location with
  | returned => simp [Execution.step, hlocation]
  | run =>
    by_cases hworking : e.pump.working = true
    · simp [Execution.step, hlocation, hworking]
    · simp [Execution.step, hlocation, hworking]
  | doWork =>
    by_cases hworking : e.pump.working = true
    · have hreturned := Execution.location_ne_returned (e.pump.attempt outcome).threw
      simp [Execution.step, hlocation, hworking, hreturned]
    · simp [Execution.step, hlocation, hworking]

/-- The number of pumps that have not returned. -/
def running (threadList : List Execution) : Nat :=
  threadList.countP fun e => ¬Finished e

/-- A pump that does not return leaves the number of the running pumps alone. -/
theorem running_set_of_iff {threadList : List Execution} {i : Nat} {e e' : Execution}
    (hi : threadList[i]? = some e) (h : Finished e' ↔ Finished e) :
    running (threadList.set i e') = running threadList := by
  obtain ⟨hlength, he⟩ := List.getElem?_eq_some_iff.mp hi
  unfold running
  rw [List.countP_set hlength, he]
  have hpos : Finished e ∨ 0 < threadList.countP fun e => decide ¬Finished e := by
    by_cases hfinished : Finished e
    · exact Or.inl hfinished
    · refine Or.inr (List.countP_pos_iff.mpr ⟨e, List.mem_of_getElem? hi, ?_⟩)
      simpa using hfinished
  by_cases hfinished : Finished e
  · simp [hfinished, h]
  · simp only [h, hfinished, not_false_eq_true, decide_true, if_true]
    rcases hpos with hpos | hpos
    · exact absurd hpos hfinished
    · omega

/-- A pump that returns is one running pump less. -/
theorem running_set_of_finished {threadList : List Execution} {i : Nat} {e e' : Execution}
    (hi : threadList[i]? = some e) (he : ¬Finished e) (he' : Finished e') :
    running (threadList.set i e') = running threadList - 1 := by
  obtain ⟨hlength, hget⟩ := List.getElem?_eq_some_iff.mp hi
  unfold running
  rw [List.countP_set hlength, hget]
  simp [he, he']

theorem running_eq_zero_iff {threadList : List Execution} :
    running threadList = 0 ↔ ∀ e ∈ threadList, Finished e := by
  unfold running
  rw [List.countP_eq_zero]
  simp

/-! ## The latch -/

/-- What holds between the main thread and the pumps, in a run in which the main thread is
not interrupted if `Quiet` says so. -/
structure Coordinated (Quiet : Prop) (s : CreateEvents) : Prop where
  latch : s.latch = running s.threadList
  quiet : Quiet → s.interrupted = false
  stops : s.latchState = true → ∀ e ∈ s.threadList, e.pump.myStop = false
  timedOut : ∀ i, s.main = .closeDown i ∨ s.main = .join i → s.latchState = false
  waiting : ∀ i, s.main = .countdown i ∨ s.main = .start i ∨ s.main = .await →
    s.latchState = true
  early : ∀ i, s.main = .countdown i ∨ s.main = .threwEarly → ∀ e ∈ s.threadList, e.accepted = []
  join : ∀ k, s.main = .join k → ∀ i e, i < k → s.threadList[i]? = some e → Finished e
  returned : s.main = .returned →
    (∀ e ∈ s.threadList, Finished e) ∨ (¬Quiet ∧ s.latchState = true)
  threwEarly : s.main = .threwEarly → ¬Quiet
  threw : s.main = .threw → ¬Quiet ∧ s.latchState = false

variable {Quiet : Prop}

theorem coordinated_new (threads : Nat) (repeats minimumResponse uniqueKey : Int) (dummy : Bool) :
    Coordinated Quiet (new threads repeats minimumResponse uniqueKey dummy) where
  latch := by
    show _ = running (List.replicate _ _)
    unfold running
    rw [List.countP_replicate]
    rfl
  quiet _ := rfl
  stops := by
    intro _ e he
    rw [List.eq_of_mem_replicate he]
    rfl
  timedOut := nofun
  waiting _ _ := rfl
  early := by
    intro _ _ e he
    rw [List.eq_of_mem_replicate he]
    rfl
  join := nofun
  returned := nofun
  threwEarly := nofun
  threw := nofun

/-- What every pump has, and the new one, every pump has after one is
replaced. -/
theorem forall_mem_set {threadList : List Execution} {i : Nat} {e' : Execution}
    {P : Execution → Prop} (h : ∀ e ∈ threadList, P e) (he' : P e') :
    ∀ e ∈ threadList.set i e', P e := by
  intro e he
  rcases List.mem_or_eq_of_mem_set he with hmem | rfl
  · exact h e hmem
  · exact he'

theorem step_test_myStop (e : Execution) (outcome : Attempt) :
    (e.step (.test outcome)).pump.myStop = e.pump.myStop := by
  by_cases hwork : e.location = .doWork ∧ e.pump.working = true
  · rw [Execution.step_attempt hwork.1 hwork.2]
    have hattempt : (e.pump.attempt outcome).pump.myStop = e.pump.myStop := by
      unfold EventPump.attempt
      dsimp only
      split_ifs <;> rfl
    show (e.pump.afterAttempt outcome).myStop = e.pump.myStop
    unfold EventPump.afterAttempt
    split_ifs
    · exact hattempt
    · exact hattempt
  · rw [Execution.step_test_pump hwork]

/-- A pump that is replaced by one that has returned if it had leaves the main
thread right. -/
theorem finished_set {threadList : List Execution} {i : Nat} {e e' : Execution}
    (hi : threadList[i]? = some e) (h : Finished e → Finished e') {j : Nat} {e'' : Execution}
    (hj : (threadList.set i e')[j]? = some e'')
    (hfinished : ∀ e, threadList[j]? = some e → Finished e) : Finished e'' := by
  by_cases hij : i = j
  · subst hij
    rw [List.getElem?_set_self (List.getElem?_eq_some_iff.mp hi).1] at hj
    cases hj
    exact h (hfinished e hi)
  · rw [List.getElem?_set_ne hij] at hj
    exact hfinished e'' hj

theorem Coordinated.threadStep {s : CreateEvents} (h : Coordinated Quiet s) (i : Nat)
    (outcome : Attempt) : Coordinated Quiet (s.threadStep i outcome) := by
  unfold CreateEvents.threadStep
  cases hi : s.threadList[i]? with
  | none => exact h
  | some e =>
    dsimp only
    split
    · next hstarted =>
      have hcases := execution_step_cases e outcome
      have hkept : Finished e → Finished (e.step (.test outcome)) := by
        intro hfinished
        rcases hcases with ⟨_, hiff⟩ | ⟨_, hreturned, _⟩
        · exact hiff.mpr hfinished
        · exact hreturned
      refine ⟨?_, h.quiet, fun hstate => ?_, h.timedOut, h.waiting, fun k hk => ?_, ?_,
        fun hreturned => ?_, h.threwEarly, h.threw⟩
      · show s.latch - _ = running (s.threadList.set i (e.step (.test outcome)))
        rcases hcases with ⟨hcount, hiff⟩ | ⟨hcount, hreturned, hbefore⟩
        · rw [running_set_of_iff hi hiff, hcount, Nat.sub_self, Nat.sub_zero]
          exact h.latch
        · rw [running_set_of_finished hi hbefore hreturned, hcount, Nat.add_sub_cancel_left,
            h.latch]
      · have hbefore := h.stops hstate e (List.mem_of_getElem? hi)
        exact forall_mem_set (h.stops hstate) ((step_test_myStop e outcome).trans hbefore)
      · have hnot : s.started i = false := by
          have hmain : s.main = .countdown k ∨ s.main = .threwEarly := hk
          unfold started
          rcases hmain with hmain | hmain
          · rw [hmain]
          · rw [hmain]
        exact absurd (hstarted.symm.trans hnot) (by decide)
      · intro k hk j e'' hj hget
        exact finished_set hi hkept hget fun e' he' => h.join k hk j e' hj he'
      · rcases h.returned hreturned with hall | hinterrupted
        · refine .inl fun e'' hmem => ?_
          obtain ⟨j, hj⟩ := List.getElem?_of_mem hmem
          exact finished_set hi hkept hj fun e' he' => hall e' (List.mem_of_getElem? he')
        · exact .inr hinterrupted
    · exact h

/-- The request to stop does not move a pump. -/
theorem finished_stop (e : Execution) : Finished (e.step .stop) ↔ Finished e :=
  Iff.rfl

/-- The wait for the latch ends: with the latch at zero, by an interrupt, or after the time. -/
theorem Coordinated.afterAwait {s : CreateEvents} (hlatch : s.latch = running s.threadList)
    (hquiet : Quiet → s.interrupted = false)
    (hstops : ∀ e ∈ s.threadList, e.pump.myStop = false)
    (hreturned : s.latchState = true → s.latch = 0 ∨ ¬Quiet) :
    Coordinated Quiet s.afterAwait := by
  unfold CreateEvents.afterAwait
  split
  · next hstate =>
    refine ⟨hlatch, hquiet, fun _ => hstops, nofun, nofun, nofun, nofun, fun _ => ?_, nofun, nofun⟩
    rcases hreturned hstate with hzero | hinterrupted
    · exact .inl (running_eq_zero_iff.mp (hlatch.symm.trans hzero))
    · exact .inr ⟨hinterrupted, hstate⟩
  · next hstate =>
    exact ⟨hlatch, hquiet, fun _ => hstops, fun _ _ => Bool.eq_false_iff.mpr hstate, nofun, nofun,
      nofun, nofun, nofun, nofun⟩

theorem Coordinated.mainStep {s : CreateEvents} (h : Coordinated Quiet s) (timeout alive : Bool) :
    Coordinated Quiet (s.mainStep timeout alive) := by
  unfold CreateEvents.mainStep
  cases hmain : s.main with
  | countdown i =>
    have hstate := h.waiting i (.inl hmain)
    have hearly := h.early i (.inl hmain)
    dsimp only
    split
    · exact ⟨h.latch, h.quiet, h.stops, nofun, fun _ _ => hstate, nofun, nofun, nofun, nofun, nofun⟩
    · split
      · next hinterrupted =>
        refine ⟨h.latch, fun _ => rfl, h.stops, nofun, nofun, fun _ _ => hearly, nofun, nofun,
          fun _ hquiet => ?_, nofun⟩
        exact absurd (hinterrupted.symm.trans (h.quiet hquiet)) (by decide)
      · exact ⟨h.latch, h.quiet, h.stops, nofun, fun _ _ => hstate, fun _ _ => hearly, nofun, nofun,
          nofun, nofun⟩
  | start i =>
    have hstate := h.waiting i (.inr (.inl hmain))
    dsimp only
    split
    · exact ⟨h.latch, h.quiet, h.stops, nofun, fun _ _ => hstate, nofun, nofun, nofun, nofun, nofun⟩
    · exact ⟨h.latch, h.quiet, h.stops, nofun, fun _ _ => hstate, nofun, nofun, nofun, nofun, nofun⟩
  | await =>
    have hstops := h.stops (h.waiting 0 (.inr (.inr hmain)))
    dsimp only
    split
    · next hinterrupted =>
      refine .afterAwait h.latch (fun _ => rfl) hstops fun _ => .inr fun hquiet => ?_
      exact absurd (hinterrupted.symm.trans (h.quiet hquiet)) (by decide)
    · split
      · next hlatch => exact .afterAwait h.latch h.quiet hstops fun _ => .inl hlatch
      · split
        · exact .afterAwait h.latch h.quiet hstops nofun
        · exact h
  | closeDown i =>
    have hstate := h.timedOut i (.inl hmain)
    dsimp only
    cases hi : s.threadList[i]? with
    | none =>
      refine ⟨h.latch, h.quiet, h.stops, fun _ _ => hstate, nofun, nofun, fun k hk j _ hj _ => ?_,
        nofun, nofun, nofun⟩
      cases hk
      omega
    | some e =>
      dsimp only
      split
      · refine ⟨h.latch.trans (running_set_of_iff hi (finished_stop e)).symm, h.quiet,
          fun htrue => ?_, fun _ _ => hstate, nofun, nofun, nofun, nofun, nofun, nofun⟩
        exact absurd (hstate.symm.trans htrue) (by decide)
      · exact ⟨h.latch, h.quiet, h.stops, fun _ _ => hstate, nofun, nofun, nofun, nofun, nofun,
          nofun⟩
  | join i =>
    have hstate := h.timedOut i (.inr hmain)
    dsimp only
    cases hi : s.threadList[i]? with
    | none =>
      refine ⟨h.latch, h.quiet, h.stops, nofun, nofun, nofun, nofun, fun _ => .inl ?_, nofun, nofun⟩
      intro (e : Execution) (he : e ∈ s.threadList)
      obtain ⟨j, hj⟩ := List.getElem?_of_mem he
      have hlength := List.getElem?_eq_none_iff.mp hi
      have hbound := (List.getElem?_eq_some_iff.mp hj).1
      exact h.join i hmain j e (Nat.lt_of_lt_of_le hbound hlength) hj
    | some e =>
      dsimp only
      split
      · split
        · next hinterrupted =>
          refine ⟨h.latch, fun _ => rfl, h.stops, nofun, nofun, nofun, nofun, nofun, nofun,
            fun _ => ⟨fun hquiet => ?_, hstate⟩⟩
          exact absurd (hinterrupted.symm.trans (h.quiet hquiet)) (by decide)
        · exact h
      · next halive =>
        refine ⟨h.latch, h.quiet, h.stops, fun _ _ => hstate, nofun, nofun,
          fun k hk j e' hj he' => ?_, nofun, nofun, nofun⟩
        cases hk
        by_cases hji : j = i
        · rw [hji, hi] at he'
          cases he'
          exact Decidable.not_not.mp fun hrunning => halive (.inl hrunning)
        · exact h.join i hmain j e' (by omega) he'
  | returned => exact h
  | threwEarly => exact h
  | threw => exact h

theorem Coordinated.interrupt {s : CreateEvents} (h : Coordinated Quiet s) (hquiet : ¬Quiet) :
    Coordinated Quiet { s with interrupted := true } :=
  { h with quiet := fun hnot => absurd hnot hquiet }

/-- The state after the given turns. -/
def reached (threads : Nat) (repeats minimumResponse uniqueKey : Int) (dummy : Bool)
    (turns : List Turn) : CreateEvents :=
  run step (new threads repeats minimumResponse uniqueKey dummy) turns

theorem coordinated_reached (threads : Nat) (repeats minimumResponse uniqueKey : Int)
    (dummy : Bool) (turns : List Turn) :
    Coordinated (.interrupt ∉ turns)
      (reached threads repeats minimumResponse uniqueKey dummy turns) := by
  refine run_invariant _ (fun turn => turn ∈ turns) (fun s turn h hmem => ?_)
    (coordinated_new threads repeats minimumResponse uniqueKey dummy) fun _ hmem => hmem
  cases turn with
  | thread i outcome => exact h.threadStep i outcome
  | main timeout alive => exact h.mainStep timeout alive
  | interrupt => exact h.interrupt fun hquiet => hquiet hmem

/-- However the threads are scheduled and whatever the attempts throw, the latch
holds the number of the pumps that have not returned.  When the main thread
returns no pump is running any more, unless the main thread was interrupted in
its wait for the latch: then it has asked no pump to stop.  It ends with an
exception only if it was interrupted before it started the pumps, or after the
time was up. -/
theorem main_returns_last (threads : Nat) (repeats minimumResponse uniqueKey : Int) (dummy : Bool)
    (turns : List Turn) :
    (reached threads repeats minimumResponse uniqueKey dummy turns).latch =
        running (reached threads repeats minimumResponse uniqueKey dummy turns).threadList ∧
      ((reached threads repeats minimumResponse uniqueKey dummy turns).main = .returned →
        (∀ e ∈ (reached threads repeats minimumResponse uniqueKey dummy turns).threadList,
          Finished e) ∨
        (.interrupt ∈ turns ∧
          ∀ e ∈ (reached threads repeats minimumResponse uniqueKey dummy turns).threadList,
            e.pump.myStop = false)) ∧
      ((reached threads repeats minimumResponse uniqueKey dummy turns).main = .threwEarly →
        .interrupt ∈ turns ∧
          ∀ e ∈ (reached threads repeats minimumResponse uniqueKey dummy turns).threadList,
            e.accepted = []) ∧
      ((reached threads repeats minimumResponse uniqueKey dummy turns).main = .threw →
        .interrupt ∈ turns ∧
          (reached threads repeats minimumResponse uniqueKey dummy turns).latchState = false) := by
  have h := coordinated_reached threads repeats minimumResponse uniqueKey dummy turns
  refine ⟨h.latch, fun hreturned => ?_, fun hthrew => ?_, fun hthrew => ?_⟩
  · rcases h.returned hreturned with hall | ⟨hinterrupted, hstate⟩
    · exact .inl hall
    · exact .inr ⟨Decidable.not_not.mp hinterrupted, h.stops hstate⟩
  · exact ⟨Decidable.not_not.mp (h.threwEarly hthrew), h.early 0 (.inr hthrew)⟩
  · obtain ⟨hinterrupted, hstate⟩ := h.threw hthrew
    exact ⟨Decidable.not_not.mp hinterrupted, hstate⟩

/-- The countdown of the main thread. -/
def counted : List Turn :=
  List.replicate 4 (.main false false)

/-- An interrupt in the wait: the main thread returns while the pump runs. -/
example :
    (reached 1 1 500 7 false (counted ++
      [.main false false, .main false false, .interrupt, .main false false])).main = .returned ∧
    running (reached 1 1 500 7 false (counted ++
      [.main false false, .main false false, .interrupt, .main false false])).threadList = 1 := by
  decide

/-! ## Titles -/

theorem decimal_natCast (n : Nat) : decimal (n : Int) = digits n := by
  rw [decimal, if_neg (by omega), Int.natAbs_natCast]

/-- A title tells the pump and the number of the event, up to the multiplier. -/
theorem eventTitle_inj {myUniqueKey : Int} {i j m n : Nat}
    (h : eventTitle myUniqueKey i m = eventTitle myUniqueKey j n) :
    i = j ∧ m % 100000000 = n % 100000000 := by
  have hmod : ∀ n : Nat, (n : Int).tmod UNIQUEMULTIPLIER = ((n % 100000000 : Nat) : Int) := by
    intro n
    rw [Int.tmod_eq_emod_of_nonneg (Int.natCast_nonneg n), UNIQUEMULTIPLIER, Int.natCast_emod]
    rfl
  have hslash : ∀ n, (47 : UInt16) ∉ digits n := by
    intro n hmem
    exact absurd (mem_digits hmem).1 (by decide)
  simp only [eventTitle, hmod, decimal_natCast, List.append_assoc, List.append_cancel_left_eq]
    at h
  obtain ⟨hid, _, hcount⟩ := (List.append_cons_inj_of_notMem (hslash j) (hslash (n % 100000000))).mp
    h.symm
  exact ⟨digits_injective hid.symm, digits_injective hcount.symm⟩

/-! ## All events, each with a title of its own -/

theorem step_test_myRepeats (e : Execution) (outcome : Attempt) :
    (e.step (.test outcome)).pump.myRepeats = e.pump.myRepeats := by
  by_cases hwork : e.location = .doWork ∧ e.pump.working = true
  · rw [Execution.step_attempt hwork.1 hwork.2]
    exact EventPump.afterAttempt_myRepeats
  · rw [Execution.step_test_pump hwork]

/-- What holds as long as no accepted event is lost. -/
structure Complete (repeats : Int) (s : CreateEvents) : Prop where
  counts : ∀ e ∈ s.threadList, Execution.CountsAccepted e ∧ e.pump.myRepeats = repeats

/-- The turn is an attempt that throws after its event was accepted. -/
def LosesAccepted (s : CreateEvents) : Turn → Prop
  | .thread i outcome =>
    s.started i = true ∧ ∃ e, s.threadList[i]? = some e ∧ e.LosesAccepted (.test outcome)
  | .main _ _ => False
  | .interrupt => False

theorem not_losesAccepted {s : CreateEvents} {i : Nat} {outcome : Attempt}
    (h : outcome.thrownAt = none) : ¬s.LosesAccepted (.thread i outcome) := by
  intro hloses
  obtain ⟨_, e, _, _, _, _, hthrown⟩ := hloses
  rw [h] at hthrown
  rcases hthrown with hreport | ⟨hsleep, _⟩
  · cases hreport
  · cases hsleep

theorem complete_new (threads : Nat) {repeats : Int} (minimumResponse uniqueKey : Int)
    (dummy : Bool) (hrepeats : 0 ≤ repeats) :
    Complete repeats (new threads repeats minimumResponse uniqueKey dummy) where
  counts := by
    intro e he
    rw [List.eq_of_mem_replicate he]
    exact ⟨(Execution.countsAccepted_start repeats minimumResponse dummy).mpr hrepeats, rfl⟩

theorem Complete.threadStep {repeats : Int} {s : CreateEvents} (h : Complete repeats s) {i : Nat}
    {outcome : Attempt} (hkept : ¬s.LosesAccepted (.thread i outcome)) :
    Complete repeats (s.threadStep i outcome) := by
  unfold CreateEvents.threadStep
  cases hi : s.threadList[i]? with
  | none => exact h
  | some e =>
    dsimp only
    split
    · next hstarted =>
      obtain ⟨hcounts, hrepeats⟩ := h.counts e (List.mem_of_getElem? hi)
      have hafter : Execution.CountsAccepted (e.step (.test outcome)) := by
        refine (Execution.countsAccepted_step_iff _ hcounts).mpr fun hloses => ?_
        exact hkept ⟨hstarted, e, hi, hloses⟩
      exact ⟨forall_mem_set h.counts ⟨hafter, (step_test_myRepeats e outcome).trans hrepeats⟩⟩
    · exact h

theorem Complete.mainStep {repeats : Int} {s : CreateEvents} (h : Complete repeats s)
    (timeout alive : Bool) : Complete repeats (s.mainStep timeout alive) := by
  have hafter : ∀ s' : CreateEvents, s'.threadList = s.threadList →
      Complete repeats s'.afterAwait := by
    intro s' hsame
    refine ⟨?_⟩
    have hlist : s'.afterAwait.threadList = s.threadList := by
      unfold CreateEvents.afterAwait
      split <;> exact hsame
    rw [hlist]
    exact h.counts
  unfold CreateEvents.mainStep
  cases s.main with
  | countdown i =>
    dsimp only
    split
    · exact ⟨h.counts⟩
    · split <;> exact ⟨h.counts⟩
  | start i =>
    dsimp only
    split <;> exact ⟨h.counts⟩
  | await =>
    dsimp only
    split
    · exact hafter _ rfl
    · split
      · exact hafter _ rfl
      · split
        · exact hafter _ rfl
        · exact h
  | closeDown i =>
    dsimp only
    cases hi : s.threadList[i]? with
    | none => exact ⟨h.counts⟩
    | some e =>
      dsimp only
      split
      · obtain ⟨hcounts, hrepeats⟩ := h.counts e (List.mem_of_getElem? hi)
        exact ⟨forall_mem_set h.counts ⟨Execution.countsAccepted_stop hcounts, hrepeats⟩⟩
      · exact ⟨h.counts⟩
  | join i =>
    dsimp only
    cases s.threadList[i]? with
    | none => exact ⟨h.counts⟩
    | some e =>
      dsimp only
      split
      · split
        · exact ⟨h.counts⟩
        · exact h
      · exact ⟨h.counts⟩
  | returned => exact h
  | threwEarly => exact h
  | threw => exact h

theorem complete_reached {threads : Nat} {repeats minimumResponse uniqueKey : Int} {dummy : Bool}
    {turns : List Turn} (hrepeats : 0 ≤ repeats)
    (hkept : ∀ front turn, front ++ [turn] <+: turns →
      ¬(reached threads repeats minimumResponse uniqueKey dummy front).LosesAccepted turn) :
    Complete repeats (reached threads repeats minimumResponse uniqueKey dummy turns) := by
  induction turns using List.reverseRecOn with
  | nil => exact complete_new threads minimumResponse uniqueKey dummy hrepeats
  | append_singleton turns turn ih =>
    have hbefore := ih fun front turn' hfront =>
      hkept front turn' (hfront.trans (List.prefix_append turns [turn]))
    rw [reached, run_concat, ← reached]
    cases turn with
    | thread i outcome => exact hbefore.threadStep (hkept turns _ (List.prefix_refl _))
    | main timeout alive => exact hbefore.mainStep timeout alive
    | interrupt => exact ⟨hbefore.counts⟩

/-- The titles of one pump are different, if it creates no more events than the
multiplier. -/
theorem nodup_map_eventTitle {e : Execution} (myUniqueKey : Int) (id : Nat)
    (hcounts : Execution.CountsAccepted e) (hbound : e.pump.myRepeats ≤ UNIQUEMULTIPLIER) :
    (e.accepted.map (eventTitle myUniqueKey id)).Nodup := by
  have hlength : e.accepted.length ≤ 100000000 := by
    have hcount := hcounts.count
    have hrepeats := hcounts.bounds.2
    unfold UNIQUEMULTIPLIER at hbound
    omega
  rw [hcounts.numbers, List.map_map]
  refine List.Nodup.map_on (fun m hm n hn heq => ?_) List.nodup_range
  have htitle := (@eventTitle_inj myUniqueKey id id (m + 1) (n + 1) heq).2
  rw [List.mem_range] at hm hn
  omega

/-- The titles are different as long as no accepted event is lost. -/
theorem Complete.nodup_titles {repeats : Int} {s : CreateEvents} (h : Complete repeats s)
    (hbound : repeats ≤ UNIQUEMULTIPLIER) : s.titles.Nodup := by
  unfold titles
  refine List.nodup_flatten.mpr ⟨fun l hl => ?_, List.pairwise_iff_getElem.mpr ?_⟩
  · obtain ⟨i, hi, rfl⟩ := List.mem_mapIdx.mp hl
    obtain ⟨hcounts, hrepeats⟩ := h.counts _ (List.getElem_mem hi)
    exact nodup_map_eventTitle s.uniqueKey i hcounts (hrepeats ▸ hbound)
  · intro i j hi hj hij title hleft hright
    simp only [List.getElem_mapIdx, List.mem_map] at hleft hright
    obtain ⟨m, hm, hleft⟩ := hleft
    obtain ⟨n, hn, hright⟩ := hright
    have hnumber : ∀ e ∈ s.threadList, ∀ m ∈ e.accepted, ∃ k : Nat, m = (k : Int) := by
      intro e he m hm
      rw [(h.counts e he).1.numbers] at hm
      obtain ⟨k, _, rfl⟩ := List.mem_map.mp hm
      exact ⟨k + 1, rfl⟩
    obtain ⟨m, rfl⟩ := hnumber _ (List.getElem_mem _) m hm
    obtain ⟨n, rfl⟩ := hnumber _ (List.getElem_mem _) n hn
    have hid := (eventTitle_inj (hleft.trans hright.symm)).1
    omega

/-- If no attempt throws after its event was accepted, however the threads are
scheduled, the accepted events have different titles, up to the multiplier.  If
the main thread is not interrupted and returns in time, every pump has then
created all its events. -/
theorem events_complete (threads : Nat) (repeats minimumResponse uniqueKey : Int) (dummy : Bool)
    (turns : List Turn) (hrepeats : 0 ≤ repeats)
    (hkept : ∀ front turn, front ++ [turn] <+: turns →
      ¬(reached threads repeats minimumResponse uniqueKey dummy front).LosesAccepted turn) :
    (repeats ≤ UNIQUEMULTIPLIER →
        (reached threads repeats minimumResponse uniqueKey dummy turns).titles.Nodup) ∧
      (.interrupt ∉ turns →
        (reached threads repeats minimumResponse uniqueKey dummy turns).main = .returned →
        (reached threads repeats minimumResponse uniqueKey dummy turns).latchState = true →
          ∀ e ∈ (reached threads repeats minimumResponse uniqueKey dummy turns).threadList,
            (e.accepted.length : Int) = repeats) := by
  have h := complete_reached hrepeats hkept
  have hcoordinated :=
    coordinated_reached threads repeats minimumResponse uniqueKey dummy turns
  refine ⟨h.nodup_titles, fun hquiet hreturned hstate e he => ?_⟩
  have hfinished : e.location = .returned := by
    rcases hcoordinated.returned hreturned with hall | ⟨hinterrupted, _⟩
    · exact hall e he
    · exact absurd hquiet hinterrupted
  obtain ⟨hcounts, hmine⟩ := h.counts e he
  exact (hcounts.finished hfinished (hcoordinated.stops hstate e he)).trans hmine

/-- Two pumps with two events each, their turns mixed: one attempt of the first is
refused. -/
def twoPumps : List Turn :=
  counted ++ [.main false false, .thread 0 { response := 201 }, .thread 0 { response := 201 },
    .main false false, .main false false, .thread 1 { response := 201 },
    .thread 0 { response := 429 }, .thread 1 { response := 201 }, .main false false,
    .thread 1 { response := 201 }, .thread 0 { response := 201 }, .thread 1 { response := 201 },
    .thread 1 { response := 201 }, .thread 0 { response := 201 }, .thread 0 { response := 201 },
    .main false false]

theorem twoPumps_quiet : .interrupt ∉ twoPumps := by
  decide

theorem thrownAt_twoPumps : ∀ turn ∈ twoPumps, turn.thrownAt = none := by
  decide

theorem twoPumps_reached :
    (reached 2 2 500 7 false twoPumps).main = .returned ∧
      (reached 2 2 500 7 false twoPumps).latchState = true := by
  decide

/-- All four events are created, and their titles are different. -/
theorem events_complete_twoPumps :
    (reached 2 2 500 7 false twoPumps).titles.Nodup ∧
      (∀ e ∈ (reached 2 2 500 7 false twoPumps).threadList, (e.accepted.length : Int) = 2) ∧
      (reached 2 2 500 7 false twoPumps).titles.length = 4 := by
  have h := events_complete 2 2 500 7 false twoPumps (by decide) fun front turn hfront => by
    have hmem : turn ∈ twoPumps :=
      hfront.subset (List.mem_append_right front (List.mem_singleton_self turn))
    cases turn with
    | main timeout alive => exact id
    | interrupt => exact id
    | thread i outcome => exact not_losesAccepted (thrownAt_twoPumps _ hmem)
  exact ⟨h.1 (by decide), h.2 twoPumps_quiet twoPumps_reached.1 twoPumps_reached.2, by decide⟩

end CreateEvents

end BoundaryEventSdk.Event
