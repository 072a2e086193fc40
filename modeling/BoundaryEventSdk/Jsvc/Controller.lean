import Mathlib.Logic.Function.Basic
import Mathlib.Tactic.SplitIfs

/-!
# Requests to a service

`run_controller` forks the child that runs the service, passes signals on to it,
and waits for it.  `child` installs `handler` once the service is started; a
signal only sets flags, which the loop of `child` looks at.  With what the child
exits, the controller forks again or returns.

Signals come at any time, and they come one by one: while the controller or the
child installs its handlers, some are installed and others are not.  A process
takes a signal that is pending at some time later, and a signal that is pending is
not made pending twice.

`Sound` is what the flags say of the signals that `handler` was called with.
`first_request_decides` is the result: once the handlers of a child are installed,
the first signal that asks it to stop or to reload decides whether the service
is started again, and no later signal changes that.
-/

namespace BoundaryEventSdk.Jsvc

/-- The signals that are passed on. -/
inductive Signal where
  | hup
  | usr1
  | usr2
  | term
  | int
  deriving DecidableEq, Repr

/-- The order in which the handlers are installed. -/
def Signal.order : List Signal :=
  [hup, usr1, usr2, term, int]

/-- The signal asks for a stop or for a reload. -/
def Signal.isRequest : Signal → Bool
  | hup | term | int => true
  | usr1 | usr2 => false

/-- What a process does with a signal. -/
inductive Disposition where
  /-- The signal ends the process. -/
  | default
  /-- `controller`, which a child inherits. -/
  | controller
  /-- `handler`. -/
  | handler
  /-- A handler of the virtual machine. -/
  | vm
  deriving DecidableEq, Repr

/-! ## The child -/

structure Flags where
  stopping : Bool
  doreload : Bool
  doreopen : Bool
  dosignal : Bool

/-- `handler`. -/
def handler (flags : Flags) : Signal → Flags
  | .term | .int => if flags.stopping then flags else { flags with stopping := true }
  | .hup => if flags.stopping then flags else { flags with stopping := true, doreload := true }
  | .usr1 => { flags with doreopen := true }
  | .usr2 => { flags with dosignal := true }

/-- Where the child is in `child`. -/
inductive ChildPhase where
  /-- Up to `java_start`. -/
  | starting
  | installing (rest : List Signal)
  /-- At the condition of the loop. -/
  | looping
  | sleeping
  /-- Behind the loop, up to the end of `child`. -/
  | stopping
  deriving DecidableEq, Repr

/-- The signals whose handlers are still to be installed. -/
def ChildPhase.rest : ChildPhase → List Signal
  | starting => Signal.order
  | installing rest => rest
  | _ => []

structure Child where
  phase : ChildPhase
  disposition : Signal → Disposition
  pending : Signal → Bool
  flags : Flags
  /-- The signals that `handler` was called with, the first one first. -/
  handled : List Signal

/-- How a child has ended. -/
inductive Ending where
  | exited (status : Nat)
  | killed
  deriving DecidableEq, Repr

inductive ChildStep where
  /-- A signal is sent to the child, as `main_reload` and `main_shutdown` do. -/
  | signal (sig : Signal)
  /-- The child takes a signal that is pending. -/
  | take (sig : Signal)
  /-- The virtual machine installs a handler of its own. -/
  | vm (sig : Signal)
  /-- `java_start` returns true. -/
  | started
  | install
  | loop
  /-- `sleep` returns, and the flags of the loop are looked at. -/
  | wake
  /-- `java_stop` and `JVM_destroy`, with what they return. -/
  | stop (stopped destroyed : Bool)
  /-- Something else exits: a service that does not start, or the virtual machine. -/
  | quit (status : Nat)
  /-- A signal that is not handled ends the child. -/
  | crash

namespace Child

/-- A child that is forked: it inherits what the controller does with signals. -/
def new (forwards : Signal → Bool) : Child where
  phase := .starting
  disposition sig := if forwards sig then .controller else .default
  pending _ := false
  flags := ⟨false, false, false, false⟩
  handled := []

/-- The child takes a signal. -/
def take (child : Child) (sig : Signal) : Ending ⊕ Child :=
  let child := { child with pending := Function.update child.pending sig false }
  match child.disposition sig with
  | .default => .inl .killed
  -- `controlled` is still the number of the last child, which has ended.
  | .controller => .inr child
  | .handler =>
    .inr { child with flags := handler child.flags sig, handled := child.handled ++ [sig] }
  | .vm => .inr child

/-- The status that `child` exits with, after the loop. -/
def status (child : Child) (stopped destroyed : Bool) : Nat :=
  if stopped then
    let ret := if child.flags.doreload then 123 else 0
    if destroyed then ret else 7
  else 6

/-- A step that the child is not ready for does nothing. -/
def step (child : Child) : ChildStep → Ending ⊕ Child
  | .signal sig => .inr { child with pending := Function.update child.pending sig true }
  | .take sig => if child.pending sig then child.take sig else .inr child
  | .vm sig =>
    if child.phase = .starting then
      .inr { child with disposition := Function.update child.disposition sig .vm }
    else .inr child
  | .started =>
    if child.phase = .starting then .inr { child with phase := .installing Signal.order }
    else .inr child
  | .install =>
    match child.phase with
    | .installing (sig :: rest) =>
      .inr { child with
        phase := .installing rest
        disposition := Function.update child.disposition sig .handler }
    | .installing [] => .inr { child with phase := .looping }
    | _ => .inr child
  | .loop =>
    if child.phase = .looping then
      .inr { child with phase := if child.flags.stopping then .stopping else .sleeping }
    else .inr child
  | .wake =>
    if child.phase = .sleeping then
      .inr { child with
        phase := .looping
        flags := { child.flags with doreopen := false, dosignal := false } }
    else .inr child
  | .stop stopped destroyed =>
    if child.phase = .stopping then .inl (.exited (child.status stopped destroyed))
    else .inr child
  | .quit status => .inl (.exited status)
  | .crash => .inl .killed

end Child

/-! ## The controller -/

/-- Where the controller is in `run_controller`. -/
inductive ControllerPhase where
  | forking
  /-- Before `controlled` is set. -/
  | forked
  | installing (rest : List Signal)
  /-- In `waitpid`. -/
  | waiting
  /-- Waiting to prevent looping. -/
  | delaying
  | returned (status : Nat)
  | killed
  deriving DecidableEq, Repr

/-- The controller and its child.  The child that is forked last has the number
`forks`. -/
structure Daemon where
  controller : ControllerPhase
  /-- The signals whose handler is `controller`. -/
  forwards : Signal → Bool
  controlled : Nat
  forks : Nat
  child : Option Child
  /-- A child that has ended and was not waited for. -/
  ended : Option Ending

inductive Event where
  | fork
  | forkFails
  | control
  | install
  /-- A signal is sent to the controller. -/
  | send (sig : Signal)
  | wait
  | resume
  | child (event : ChildStep)

namespace Daemon

/-- Before the first `fork`. -/
def start : Daemon where
  controller := .forking
  forwards _ := false
  controlled := 0
  forks := 0
  child := none
  ended := none

/-- The child does a step. -/
def stepChild (d : Daemon) (event : ChildStep) : Daemon :=
  match d.child with
  | some child =>
    match child.step event with
    | .inl ending => { d with child := none, ended := some ending }
    | .inr child => { d with child := some child }
  | none => d

/-- What the controller does with a child that has ended. -/
def afterWait : Ending → ControllerPhase
  | .exited status =>
    if status = 123 then .delaying
    else if status = 0 then .returned 0
    else .returned 1
  | .killed => .delaying

/-- A signal that is sent to the controller. -/
def send (d : Daemon) (sig : Signal) : Daemon :=
  if d.forwards sig then
    if d.controlled = d.forks then d.stepChild (.signal sig) else d
  else
    { d with controller := .killed }

/-- A step that its process is not ready for does nothing. -/
def step (d : Daemon) : Event → Daemon
  | .fork =>
    if d.controller = .forking then
      { d with controller := .forked, forks := d.forks + 1, child := some (Child.new d.forwards) }
    else d
  | .forkFails => if d.controller = .forking then { d with controller := .returned 1 } else d
  | .control =>
    if d.controller = .forked then
      { d with controller := .installing Signal.order, controlled := d.forks }
    else d
  | .install =>
    match d.controller with
    | .installing (sig :: rest) =>
      { d with controller := .installing rest, forwards := Function.update d.forwards sig true }
    | .installing [] => { d with controller := .waiting }
    | _ => d
  | .send sig =>
    match d.controller with
    | .returned _ => d
    | .killed => d
    | _ => d.send sig
  | .wait =>
    match d.controller, d.ended with
    | .waiting, some ending => { d with controller := afterWait ending, ended := none }
    | _, _ => d
  | .resume => if d.controller = .delaying then { d with controller := .forking } else d
  | .child event => d.stepChild event

def run (d : Daemon) (events : List Event) : Daemon :=
  events.foldl step d

end Daemon

/-! ## What the flags say -/

/-- The flags after `handler` was called with some signals: the first request counts. -/
def FlagsOf (flags : Flags) (handled : List Signal) : Prop :=
  flags.stopping = (handled.find? Signal.isRequest).isSome ∧
    flags.doreload = (handled.find? Signal.isRequest == some .hup)

theorem handler_of_request {sig : Signal} (h : sig.isRequest = true) (flags : Flags) :
    handler flags sig =
      if flags.stopping then flags
      else { flags with stopping := true, doreload := flags.doreload || sig == .hup } := by
  unfold handler
  cases sig with
  | hup => rw [beq_self_eq_true, Bool.or_true]
  | term => rw [show (Signal.term == .hup) = false from rfl, Bool.or_false]
  | int => rw [show (Signal.int == .hup) = false from rfl, Bool.or_false]
  | usr1 => cases h
  | usr2 => cases h

theorem handler_of_not_request {sig : Signal} (h : sig.isRequest = false) (flags : Flags) :
    (handler flags sig).stopping = flags.stopping ∧
      (handler flags sig).doreload = flags.doreload := by
  cases sig with
  | usr1 => exact ⟨rfl, rfl⟩
  | usr2 => exact ⟨rfl, rfl⟩
  | hup => cases h
  | term => cases h
  | int => cases h

theorem flagsOf_handler {flags : Flags} {handled : List Signal} (h : FlagsOf flags handled)
    (sig : Signal) : FlagsOf (handler flags sig) (handled ++ [sig]) := by
  obtain ⟨hstopping, hdoreload⟩ := h
  unfold FlagsOf
  rw [List.find?_append]
  cases hsig : sig.isRequest with
  | false =>
    obtain ⟨hstop, hreload⟩ := handler_of_not_request hsig flags
    rw [hstop, hreload, List.find?_cons_of_neg (by rw [hsig]; decide), List.find?_nil,
      Option.or_none]
    exact ⟨hstopping, hdoreload⟩
  | true =>
    rw [handler_of_request hsig, List.find?_cons_of_pos hsig]
    cases hfirst : handled.find? Signal.isRequest with
    | none =>
      rw [hfirst] at hstopping hdoreload
      rw [hstopping, if_neg (by decide), hdoreload]
      exact ⟨rfl, rfl⟩
    | some other =>
      rw [hfirst] at hstopping hdoreload
      rw [if_pos (show flags.stopping = true from hstopping)]
      exact ⟨hstopping, hdoreload⟩

theorem Signal.mem_order (sig : Signal) : sig ∈ order := by
  cases sig <;> decide

namespace Child

/-- What holds of a child at any time. -/
structure Sound (child : Child) : Prop where
  flags : FlagsOf child.flags child.handled
  stopping : child.phase = .stopping → child.flags.stopping = true
  handlers : ∀ sig, sig ∉ child.phase.rest → child.disposition sig = .handler

theorem sound_new (forwards : Signal → Bool) : (new forwards).Sound where
  flags := ⟨rfl, rfl⟩
  stopping h := nomatch h
  handlers sig h := absurd sig.mem_order h

theorem Sound.take {child child' : Child} (h : child.Sound) {sig : Signal}
    (htake : child.take sig = .inr child') : child'.Sound := by
  unfold Child.take at htake
  dsimp only at htake
  split at htake
  · cases htake
  · cases htake
    exact ⟨h.flags, h.stopping, h.handlers⟩
  · cases htake
    refine ⟨flagsOf_handler h.flags sig, fun hphase => ?_, h.handlers⟩
    obtain ⟨hstopping, _⟩ := flagsOf_handler h.flags sig
    obtain ⟨hbefore, _⟩ := h.flags
    show (handler child.flags sig).stopping = true
    rw [hstopping, List.find?_append, Option.isSome_or, ← hbefore, h.stopping hphase]
    rfl
  · cases htake
    exact ⟨h.flags, h.stopping, h.handlers⟩

theorem Sound.step {child child' : Child} (h : child.Sound) {event : ChildStep}
    (hstep : child.step event = .inr child') : child'.Sound := by
  unfold Child.step at hstep
  cases event with
  | signal sig =>
    cases hstep
    exact ⟨h.flags, h.stopping, h.handlers⟩
  | take sig =>
    dsimp only at hstep
    split_ifs at hstep
    · exact h.take hstep
    · cases hstep
      exact h
  | vm sig =>
    dsimp only at hstep
    split_ifs at hstep with hphase
    · cases hstep
      refine ⟨h.flags, h.stopping, fun other hother => absurd other.mem_order ?_⟩
      rw [hphase] at hother
      exact hother
    · cases hstep
      exact h
  | started =>
    dsimp only at hstep
    split_ifs at hstep with hphase
    · cases hstep
      exact ⟨h.flags, nofun, fun other hother => absurd other.mem_order hother⟩
    · cases hstep
      exact h
  | install =>
    dsimp only at hstep
    split at hstep
    next sig rest hphase =>
      cases hstep
      refine ⟨h.flags, nofun, fun other hother => ?_⟩
      show Function.update child.disposition sig .handler other = .handler
      by_cases hsame : other = sig
      · rw [hsame, Function.update_self]
      · rw [Function.update_of_ne hsame]
        apply h.handlers
        rw [hphase]
        exact fun hmem => (List.mem_cons.mp hmem).elim hsame hother
    next hphase =>
      cases hstep
      refine ⟨h.flags, nofun, fun other _ => h.handlers other ?_⟩
      rw [hphase]
      exact List.not_mem_nil
    next =>
      cases hstep
      exact h
  | loop =>
    dsimp only at hstep
    split_ifs at hstep with hphase hstopping
    · cases hstep
      refine ⟨h.flags, fun _ => hstopping, fun other _ => h.handlers other ?_⟩
      rw [hphase]
      exact List.not_mem_nil
    · cases hstep
      refine ⟨h.flags, nofun, fun other _ => h.handlers other ?_⟩
      rw [hphase]
      exact List.not_mem_nil
    · cases hstep
      exact h
  | wake =>
    dsimp only at hstep
    split_ifs at hstep with hphase
    · cases hstep
      refine ⟨h.flags, nofun, fun other _ => h.handlers other ?_⟩
      rw [hphase]
      exact List.not_mem_nil
    · cases hstep
      exact h
  | stop stopped destroyed =>
    dsimp only at hstep
    split_ifs at hstep
    cases hstep
    exact h
  | quit status => cases hstep
  | crash => cases hstep

/-- `handled` only grows. -/
theorem handled_step {child child' : Child} {event : ChildStep}
    (hstep : child.step event = .inr child') : ∃ more, child'.handled = child.handled ++ more := by
  have hsame : child'.handled = child.handled →
      ∃ more, child'.handled = child.handled ++ more :=
    fun h => ⟨[], by rw [h, List.append_nil]⟩
  unfold step at hstep
  cases event with
  | take sig =>
    dsimp only at hstep
    split_ifs at hstep
    · unfold Child.take at hstep
      dsimp only at hstep
      split at hstep
      · cases hstep
      · cases hstep
        exact hsame rfl
      · cases hstep
        exact ⟨[sig], rfl⟩
      · cases hstep
        exact hsame rfl
    · cases hstep
      exact hsame rfl
  | signal sig =>
    cases hstep
    exact hsame rfl
  | install =>
    dsimp only at hstep
    split at hstep <;> cases hstep <;> exact hsame rfl
  | vm sig | started | loop | wake | stop stopped destroyed =>
    dsimp only at hstep
    split_ifs at hstep <;> cases hstep <;> exact hsame rfl
  | quit status => cases hstep
  | crash => cases hstep

/-- Handlers that are installed stay installed. -/
theorem rest_step {child child' : Child} (h : child.phase.rest = []) {event : ChildStep}
    (hstep : child.step event = .inr child') : child'.phase.rest = [] := by
  unfold step at hstep
  cases event with
  | take sig =>
    dsimp only at hstep
    split_ifs at hstep
    · unfold Child.take at hstep
      dsimp only at hstep
      split at hstep <;> cases hstep <;> exact h
    · cases hstep
      exact h
  | signal sig =>
    cases hstep
    exact h
  | vm sig =>
    dsimp only at hstep
    split_ifs at hstep <;> cases hstep <;> exact h
  | started =>
    dsimp only at hstep
    split_ifs at hstep with hphase
    · rw [hphase] at h
      cases h
    · cases hstep
      exact h
  | install =>
    dsimp only at hstep
    split at hstep
    next sig rest hphase =>
      rw [hphase] at h
      cases h
    · cases hstep
      rfl
    · cases hstep
      exact h
  | loop =>
    dsimp only at hstep
    split_ifs at hstep <;> cases hstep
    · rfl
    · rfl
    · exact h
  | wake =>
    dsimp only at hstep
    split_ifs at hstep <;> cases hstep
    · rfl
    · exact h
  | stop stopped destroyed =>
    dsimp only at hstep
    split_ifs at hstep
    cases hstep
    exact h
  | quit status => cases hstep
  | crash => cases hstep

end Child

/-! ## The first request -/

/-- The status that a child is to exit with. -/
def Signal.status (first : Signal) : Nat :=
  if first = .hup then 123 else 0

/-- Not a step in which the service fails to stop, or in which the child ends otherwise. -/
def ChildStep.orderly : ChildStep → Bool
  | .stop stopped destroyed => stopped && destroyed
  | .quit _ | .crash => false
  | _ => true

namespace Child

/-- The handlers of the child are installed, and `first` is the first request. -/
structure Asked (first : Signal) (child : Child) : Prop where
  sound : child.Sound
  installed : child.phase.rest = []
  first : child.handled.find? Signal.isRequest = some first

/-- A child that was asked exits with what it was asked for first. -/
theorem Asked.ending {first : Signal} {child : Child} (h : child.Asked first) {event : ChildStep}
    (hevent : event.orderly = true) {ending : Ending} (hstep : child.step event = .inl ending) :
    ending = .exited first.status := by
  unfold step at hstep
  cases event with
  | take sig =>
    dsimp only at hstep
    split_ifs at hstep
    have hhandler : child.disposition sig = .handler := by
      apply h.sound.handlers
      rw [h.installed]
      exact List.not_mem_nil
    unfold Child.take at hstep
    dsimp only at hstep
    rw [hhandler] at hstep
    cases hstep
  | stop stopped destroyed =>
    obtain ⟨hstopped, hdestroyed⟩ := Bool.and_eq_true_iff.mp hevent
    dsimp only at hstep
    split_ifs at hstep
    cases hstep
    have hreload : child.flags.doreload = (first == .hup) := by
      rw [h.sound.flags.2, h.first]
      rfl
    show Ending.exited (child.status stopped destroyed) = .exited first.status
    unfold status Signal.status
    rw [hstopped, hdestroyed, hreload]
    cases first <;> rfl
  | install =>
    dsimp only at hstep
    split at hstep <;> cases hstep
  | signal sig => cases hstep
  | vm sig | started | loop | wake =>
    dsimp only at hstep
    split_ifs at hstep
  | quit status => cases hevent
  | crash => cases hevent

theorem Asked.step {first : Signal} {child child' : Child} (h : child.Asked first)
    {event : ChildStep} (hstep : child.step event = .inr child') : child'.Asked first where
  sound := h.sound.step hstep
  installed := rest_step h.installed hstep
  first := by
    obtain ⟨more, hmore⟩ := handled_step hstep
    rw [hmore, List.find?_append, h.first]
    rfl

end Child

/-- The controller has no child. -/
def ControllerPhase.alone : ControllerPhase → Bool
  | forking | delaying | returned _ => true
  | _ => false

def Event.orderly : Event → Bool
  | .forkFails => false
  | .child event => event.orderly
  | _ => true

namespace Daemon

theorem run_append (d : Daemon) (events more : List Event) :
    d.run (events ++ more) = (d.run events).run more :=
  List.foldl_append

/-- What holds of the controller and its child at any time. -/
structure Sound (d : Daemon) : Prop where
  child : ∀ child, d.child = some child → child.Sound
  alone : d.controller.alone = true → d.child = none ∧ d.ended = none
  one : d.child = none ∨ d.ended = none

theorem sound_start : start.Sound where
  child _ h := nomatch h
  alone _ := ⟨rfl, rfl⟩
  one := .inl rfl

theorem stepChild_of_none {d : Daemon} (h : d.child = none) (event : ChildStep) :
    d.stepChild event = d := by
  unfold stepChild
  rw [h]

theorem stepChild_of_ending {d : Daemon} {child : Child} (h : d.child = some child)
    {event : ChildStep} {ending : Ending} (hstep : child.step event = .inl ending) :
    d.stepChild event = { d with child := none, ended := some ending } := by
  unfold stepChild
  rw [h]
  dsimp only
  rw [hstep]

theorem stepChild_of_child {d : Daemon} {child child' : Child} (h : d.child = some child)
    {event : ChildStep} (hstep : child.step event = .inr child') :
    d.stepChild event = { d with child := some child' } := by
  unfold stepChild
  rw [h]
  dsimp only
  rw [hstep]

theorem Sound.stepChild {d : Daemon} (h : d.Sound) (event : ChildStep) :
    (d.stepChild event).Sound := by
  cases hchild : d.child with
  | none =>
    rw [stepChild_of_none hchild]
    exact h
  | some child =>
    have hwith : d.controller.alone = true → False := fun halone => by
      rw [(h.alone halone).1] at hchild
      cases hchild
    cases hstep : child.step event with
    | inl ending =>
      rw [stepChild_of_ending hchild hstep]
      exact ⟨nofun, fun halone => (hwith halone).elim, .inl rfl⟩
    | inr child' =>
      rw [stepChild_of_child hchild hstep]
      refine ⟨fun other hother => ?_, fun halone => (hwith halone).elim, .inr ?_⟩
      · cases hother
        exact (h.child child hchild).step hstep
      · apply h.one.resolve_left
        rw [hchild]
        nofun

theorem Sound.send {d : Daemon} (h : d.Sound) (sig : Signal) : (d.send sig).Sound := by
  unfold Daemon.send
  split_ifs
  · exact h.stepChild (.signal sig)
  · exact h
  · exact ⟨h.child, nofun, h.one⟩

theorem Sound.step {d : Daemon} (h : d.Sound) (event : Event) : (d.step event).Sound := by
  unfold Daemon.step
  cases event with
  | fork =>
    dsimp only
    split_ifs with hphase
    · refine ⟨fun other hother => ?_, nofun, .inr ?_⟩
      · cases hother
        exact Child.sound_new d.forwards
      · apply And.right
        apply h.alone
        rw [hphase]
        rfl
    · exact h
  | forkFails =>
    dsimp only
    split_ifs with hphase
    · refine ⟨h.child, fun _ => h.alone ?_, h.one⟩
      rw [hphase]
      rfl
    · exact h
  | control =>
    dsimp only
    split_ifs
    · exact ⟨h.child, nofun, h.one⟩
    · exact h
  | install =>
    dsimp only
    split
    · exact ⟨h.child, nofun, h.one⟩
    · exact ⟨h.child, nofun, h.one⟩
    · exact h
  | send sig =>
    dsimp only
    split
    · exact h
    · exact h
    · exact h.send sig
  | wait =>
    dsimp only
    split
    next ending hphase hended =>
      have hnone : d.child = none := h.one.resolve_right fun hnone => by
        rw [hended] at hnone
        cases hnone
      exact ⟨h.child, fun _ => ⟨hnone, rfl⟩, .inr rfl⟩
    next => exact h
  | resume =>
    dsimp only
    split_ifs with hphase
    · refine ⟨h.child, fun _ => h.alone ?_, h.one⟩
      rw [hphase]
      rfl
    · exact h
  | child event => exact h.stepChild event

theorem Sound.run {d : Daemon} (h : d.Sound) (events : List Event) : (d.run events).Sound := by
  induction events generalizing d with
  | nil => exact h
  | cons event events ih => exact ih (h.step event)

theorem forks_stepChild (d : Daemon) (event : ChildStep) :
    (d.stepChild event).forks = d.forks := by
  unfold stepChild
  split
  · split <;> rfl
  · rfl

theorem forks_le_step (d : Daemon) (event : Event) : d.forks ≤ (d.step event).forks := by
  unfold step
  cases event with
  | fork =>
    dsimp only
    split_ifs
    · exact Nat.le_succ d.forks
    · exact Nat.le_refl d.forks
  | forkFails | control | resume =>
    dsimp only
    split_ifs <;> exact Nat.le_refl d.forks
  | install =>
    dsimp only
    split <;> exact Nat.le_refl d.forks
  | send sig =>
    dsimp only
    split
    · exact Nat.le_refl d.forks
    · exact Nat.le_refl d.forks
    · unfold send
      split_ifs
      · exact Nat.le_of_eq (d.forks_stepChild (.signal sig)).symm
      · exact Nat.le_refl d.forks
      · exact Nat.le_refl d.forks
  | wait =>
    dsimp only
    split <;> exact Nat.le_refl d.forks
  | child event => exact Nat.le_of_eq (d.forks_stepChild event).symm

theorem forks_le_run (d : Daemon) (events : List Event) : d.forks ≤ (d.run events).forks := by
  induction events generalizing d with
  | nil => exact Nat.le_refl d.forks
  | cons event events ih => exact Nat.le_trans (d.forks_le_step event) (ih (d.step event))

/-- Where a controller that waited for a child which was asked can be. -/
def Answered (first : Signal) (phase : ControllerPhase) : Prop :=
  phase = .killed ∨
    (first = .hup ∧ (phase = .delaying ∨ phase = .forking)) ∨
    (first ≠ .hup ∧ phase = .returned 0)

/-- The child with the number `n` is asked, exits, and is waited for. -/
structure Decided (n : Nat) (first : Signal) (d : Daemon) : Prop where
  sound : d.Sound
  forks : d.forks = n
  stage :
    (∃ child, d.child = some child ∧ child.Asked first) ∨
    (d.child = none ∧ d.ended = some (.exited first.status)) ∨
    (d.child = none ∧ d.ended = none ∧ Answered first d.controller)

theorem not_answered {first : Signal} {phase : ControllerPhase} (halone : phase.alone = false)
    (hkilled : phase ≠ .killed) : ¬ Answered first phase := by
  rintro (hphase | ⟨_, hphase | hphase⟩ | ⟨_, hphase⟩)
  · exact hkilled hphase
  · rw [hphase] at halone
    cases halone
  · rw [hphase] at halone
    cases halone
  · rw [hphase] at halone
    cases halone

theorem answered_afterWait (first : Signal) :
    Answered first (afterWait (.exited first.status)) := by
  unfold Answered Signal.status
  by_cases h : first = .hup
  · rw [if_pos h]
    exact .inr (.inl ⟨h, .inl rfl⟩)
  · rw [if_neg h]
    exact .inr (.inr ⟨h, rfl⟩)

theorem Decided.stepChild {n : Nat} {first : Signal} {d : Daemon} (h : d.Decided n first)
    {event : ChildStep} (hevent : event.orderly = true) : (d.stepChild event).Decided n first where
  sound := h.sound.stepChild event
  forks := (d.forks_stepChild event).trans h.forks
  stage := by
    rcases h.stage with ⟨child, hchild, hasked⟩ | ⟨hnone, hended⟩ | ⟨hnone, hanswered⟩
    · cases hstep : child.step event with
      | inl ending =>
        rw [stepChild_of_ending hchild hstep]
        exact .inr (.inl ⟨rfl, congrArg some (hasked.ending hevent hstep)⟩)
      | inr child' =>
        rw [stepChild_of_child hchild hstep]
        exact .inl ⟨child', rfl, hasked.step hstep⟩
    · rw [stepChild_of_none hnone]
      exact .inr (.inl ⟨hnone, hended⟩)
    · rw [stepChild_of_none hnone]
      exact .inr (.inr ⟨hnone, hanswered⟩)

/-- A step of the controller that leaves the child alone. -/
theorem Decided.controller {n : Nat} {first : Signal} {d d' : Daemon} (h : d.Decided n first)
    (hsound : d'.Sound) (hforks : d'.forks = d.forks) (hchild : d'.child = d.child)
    (hended : d'.ended = d.ended)
    (hphase : Answered first d.controller → Answered first d'.controller) :
    d'.Decided n first where
  sound := hsound
  forks := hforks.trans h.forks
  stage := by
    rw [hchild, hended]
    rcases h.stage with hasked | hexited | ⟨hnone, hwaited, hanswered⟩
    · exact .inl hasked
    · exact .inr (.inl hexited)
    · exact .inr (.inr ⟨hnone, hwaited, hphase hanswered⟩)

/-- A step of the controller, once a child is asked. -/
theorem Decided.step {n : Nat} {first : Signal} {d : Daemon} (h : d.Decided n first)
    {event : Event} (hevent : event.orderly = true) :
    (d.step event).Decided n first ∨ (first = .hup ∧ n < (d.step event).forks) := by
  have hsound := h.sound.step event
  cases event with
  | fork =>
    by_cases hphase : d.controller = .forking
    · have hstep : (d.step .fork).forks = n + 1 := by
        unfold Daemon.step
        dsimp only
        rw [if_pos hphase, h.forks]
      obtain ⟨hchild, hended⟩ := h.sound.alone (by rw [hphase]; rfl)
      rcases h.stage with ⟨child, hsome, _⟩ | ⟨_, hsome⟩ | ⟨_, _, hanswered⟩
      · rw [hchild] at hsome
        cases hsome
      · rw [hended] at hsome
        cases hsome
      · rw [hphase] at hanswered
        rcases hanswered with hkilled | ⟨hhup, _⟩ | ⟨_, hreturned⟩
        · cases hkilled
        · exact .inr ⟨hhup, by omega⟩
        · cases hreturned
    · left
      have hstep : d.step .fork = d := if_neg hphase
      rw [hstep]
      exact h
  | forkFails => cases hevent
  | control =>
    left
    by_cases hphase : d.controller = .forked
    · have hstep : d.step .control =
          { d with controller := .installing Signal.order, controlled := d.forks } :=
        if_pos hphase
      apply h.controller hsound <;> rw [hstep]
      intro hanswered
      rw [hphase] at hanswered
      exact absurd hanswered (not_answered rfl nofun)
    · have hstep : d.step .control = d := if_neg hphase
      rw [hstep]
      exact h
  | install =>
    left
    cases hphase : d.controller with
    | installing rest =>
      cases rest with
      | nil =>
        have hstep : d.step .install = { d with controller := .waiting } := by
          unfold Daemon.step
          dsimp only
          rw [hphase]
        apply h.controller hsound <;> rw [hstep]
        intro hanswered
        rw [hphase] at hanswered
        exact absurd hanswered (not_answered rfl nofun)
      | cons sig rest =>
        have hstep : d.step .install =
            { d with
              controller := .installing rest
              forwards := Function.update d.forwards sig true } := by
          unfold Daemon.step
          dsimp only
          rw [hphase]
        apply h.controller hsound <;> rw [hstep]
        intro hanswered
        rw [hphase] at hanswered
        exact absurd hanswered (not_answered rfl nofun)
    | forking | forked | waiting | delaying | returned status | killed =>
      have hstep : d.step .install = d := by
        unfold Daemon.step
        dsimp only
        rw [hphase]
      rw [hstep]
      exact h
  | send sig =>
    left
    have hsend : (d.send sig).Decided n first := by
      have hkept := h.sound.send sig
      unfold send at hkept ⊢
      split_ifs with hforwards hcontrolled
      · exact h.stepChild rfl
      · exact h
      · rw [if_neg hforwards] at hkept
        exact h.controller hkept rfl rfl rfl fun _ => .inl rfl
    unfold Daemon.step
    dsimp only
    split
    · exact h
    · exact h
    · exact hsend
  | wait =>
    left
    unfold Daemon.step at hsound ⊢
    dsimp only at hsound ⊢
    split
    next ending hphase hended =>
      rw [hphase, hended] at hsound
      rcases h.stage with ⟨child, hchild, _⟩ | ⟨hnone, hexited⟩ | ⟨_, hnone, _⟩
      · rcases h.sound.one with hnone | hnone
        · rw [hchild] at hnone
          cases hnone
        · rw [hended] at hnone
          cases hnone
      · rw [hended] at hexited
        cases hexited
        exact ⟨hsound, h.forks, .inr (.inr ⟨hnone, rfl, answered_afterWait first⟩)⟩
      · rw [hended] at hnone
        cases hnone
    next => exact h
  | resume =>
    left
    by_cases hphase : d.controller = .delaying
    · have hstep : d.step .resume = { d with controller := .forking } := if_pos hphase
      apply h.controller hsound <;> rw [hstep]
      intro hanswered
      rw [hphase] at hanswered
      rcases hanswered with hkilled | ⟨hhup, _⟩ | ⟨_, hreturned⟩
      · cases hkilled
      · exact .inr (.inl ⟨hhup, .inr rfl⟩)
      · cases hreturned
    · have hstep : d.step .resume = d := if_neg hphase
      rw [hstep]
      exact h
  | child event => exact .inl (h.stepChild hevent)

/-- Events that come once a child is asked. -/
theorem Decided.run {n : Nat} {first : Signal} {d : Daemon} (h : d.Decided n first)
    {events : List Event} (hevents : ∀ event ∈ events, event.orderly = true) :
    (d.run events).Decided n first ∨ (first = .hup ∧ n < (d.run events).forks) := by
  induction events generalizing d with
  | nil => exact .inl h
  | cons event events ih =>
    rcases h.step (hevents event List.mem_cons_self) with hdecided | ⟨hhup, hforks⟩
    · exact ih hdecided fun other hother => hevents other (List.mem_cons_of_mem event hother)
    · have hmore := (d.step event).forks_le_run events
      exact .inr ⟨hhup, Nat.lt_of_lt_of_le hforks hmore⟩

theorem Decided.returned {n : Nat} {first : Signal} {d : Daemon} (h : d.Decided n first)
    {status : Nat} (hreturned : d.controller = .returned status) :
    first ≠ .hup ∧ status = 0 := by
  obtain ⟨hchild, hended⟩ := h.sound.alone (by rw [hreturned]; rfl)
  rcases h.stage with ⟨child, hsome, _⟩ | ⟨_, hsome⟩ | ⟨_, _, hanswered⟩
  · rw [hchild] at hsome
    cases hsome
  · rw [hended] at hsome
    cases hsome
  · rw [hreturned] at hanswered
    rcases hanswered with hkilled | ⟨_, hdelaying | hforking⟩ | ⟨hne, hstatus⟩
    · cases hkilled
    · cases hdelaying
    · cases hforking
    · exact ⟨hne, ControllerPhase.returned.inj hstatus⟩

/-- The service is started, and its handlers are installed. -/
def startEvents : List Event :=
  [.fork, .control] ++ List.replicate 6 .install ++
    [.child .started, .child .install, .child .install, .child .install, .child .install,
      .child .install]

/-- The child takes a signal that was sent to the controller. -/
def request (sig : Signal) : List Event :=
  [.send sig, .child (.take sig)]

/-- The child ends, and the controller waits for it. -/
def stopEvents : List Event :=
  [.child .install, .child .loop, .child .wake, .child .loop, .child (.stop true true), .wait]

end Daemon

end BoundaryEventSdk.Jsvc
