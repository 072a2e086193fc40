import Mathlib.Logic.Function.Basic
import BoundaryEventSdk.Java.Outcome

/-!
# One service for each pid file

`check_pid` is what keeps two services of one name from running at a time.  A
child opens the pid file, or creates it, and locks it.  If `kill(pid, 0)`
succeeds for the number in the file, the child exits; otherwise it writes its
own number, unlocks the file and closes it.  `run_controller` unlinks the file
after its child has exited.

A path is not a file: a child may have opened a file that is unlinked before the
child locks it, and the next child creates another one.  So a `System` tells the
file that the path leads to, if there is one, from the files that exist.
Numbers of processes are used again once a process was waited for, and a process
that has exited exists until then.

`kill` also fails for a process that exists, when the caller may not signal it:
it belongs to another user, and the caller is not root.

`Exclusive` is the invariant.  As long as every child that reads the file may
signal the service of the file, a service that runs with a file is the one
whose number is in that file, so no two services run with one file.  With one
path they do when the file was unlinked in between, and only then.
-/

namespace BoundaryEventSdk.Jsvc

open BoundaryEventSdk.Java

/-- The number of a process. -/
abbrev Pid := Nat

/-- A file that exists, whether a path leads to it or not. -/
abbrev File := Nat

/-- The number of a user. -/
abbrev User := Nat

/-- The user that may signal every process. -/
def superuser : User := 0

/-- Where a child is in `check_pid`, and what comes of it. -/
inductive Phase where
  /-- Before `open`. -/
  | opening
  /-- Before `lockf(fd, F_LOCK, 0)` returns. -/
  | locking (file : File)
  /-- Before `read` and `kill(pid, 0)`. -/
  | reading (file : File)
  /-- Before the number is written. -/
  | writing (file : File)
  /-- After `check_pid` returned zero. -/
  | running (file : File)
  /-- With `-version` or `-check`, after `check_pid` returned. -/
  | checking
  /-- The process has exited and was not waited for. -/
  | exited
  deriving DecidableEq, Repr

/-- The file that the process has open, or, once it runs as a service and has closed it,
the file that it has written its number to. -/
def Phase.file : Phase → Option File
  | opening => none
  | locking file => some file
  | reading file => some file
  | writing file => some file
  | running file => some file
  | checking => none
  | exited => none

/-- The processes and the files.  A process that is no child of `jsvc` is one that
never opens the file. -/
structure System where
  process : Pid → Option Phase
  user : Pid → User
  /-- The file that the path leads to. -/
  entry : Option File
  /-- The number that `atoi` reads from a file, if the file is not empty.  A new number is
  written over the old text and ends its line, so nothing of the old text is read. -/
  contents : File → Option Int
  /-- The process that has locked a file. -/
  lock : File → Option Pid
  /-- The first file that does not exist yet. -/
  next : File

/-- One process does its next step, or `unlink` is called. -/
inductive Syscall where
  | fork (p : Pid) (user : User)
  | open (p : Pid)
  | lock (p : Pid)
  /-- `read` and `kill`.  A number below zero stands for a group of processes, or for all:
  `group` says whether there is one that may be signalled. -/
  | read (p : Pid) (group : Bool)
  /-- The `read` of a child with `-version` or `-check`. -/
  | check (p : Pid)
  | write (p : Pid)
  | setuid (p : Pid) (user : User)
  | exit (p : Pid)
  | wait (p : Pid)
  | unlink
  deriving DecidableEq, Repr

namespace System

/-- No process, and no file, an empty file or a file with some number. -/
def start (stale : Option (Option Int)) : System where
  process _ := none
  user _ := superuser
  entry := stale.map fun _ => 0
  contents file := if file = 0 then stale.join else none
  lock _ := none
  next := 1

/-- The process goes to its next phase. -/
def goto (s : System) (p : Pid) (phase : Option Phase) : System :=
  { s with process := Function.update s.process p phase }

/-- `open` with `O_CREAT`. -/
def openFile (s : System) (p : Pid) : System :=
  match s.entry with
  | some file => s.goto p (some (.locking file))
  | none => { s.goto p (some (.locking s.next)) with entry := some s.next, next := s.next + 1 }

/-- Whatever ends a process, its locks are released. -/
def exitProcess (s : System) (p : Pid) : System :=
  { s.goto p (some .exited) with
    lock := fun file => if s.lock file = some p then none else s.lock file }

/-- The process may signal another one. -/
def MaySignal (s : System) (p q : Pid) : Prop :=
  s.user p = superuser ∨ s.user p = s.user q

instance (s : System) (p q : Pid) : Decidable (s.MaySignal p q) :=
  inferInstanceAs (Decidable (_ ∨ _))

/-- Whether `kill(pid, 0)` of the process `p` returns zero. -/
def kill (s : System) (p : Pid) (pid : Int) (group : Bool) : Bool :=
  if pid < 0 then group
  -- The group of the caller.
  else if pid = 0 then true
  else (s.process pid.toNat).isSome && decide (s.MaySignal p pid.toNat)

/-- The process finds a number in the file, and `kill` succeeds. -/
def stillRunning (s : System) (p : Pid) (file : File) (group : Bool) : Bool :=
  (s.contents file).any fun pid => s.kill p pid group

/-- A step that its process is not ready for does nothing. -/
def step (s : System) : Syscall → System
  | .fork p user =>
    if s.process p = none then
      { s.goto p (some .opening) with user := Function.update s.user p user }
    else s
  | .open p => if s.process p = some .opening then s.openFile p else s
  | .lock p =>
    match s.process p with
    | some (.locking file) =>
      if s.lock file = none then
        { s.goto p (some (.reading file)) with lock := Function.update s.lock file (some p) }
      else s
    | _ => s
  | .read p group =>
    match s.process p with
    | some (.reading file) =>
      if s.stillRunning p file group then s.exitProcess p else s.goto p (some (.writing file))
    | _ => s
  | .check p =>
    match s.process p with
    | some (.reading file) =>
      -- It goes on with either result, and leaves the number as it is.
      { s.goto p (some .checking) with lock := Function.update s.lock file none }
    | _ => s
  | .write p =>
    match s.process p with
    | some (.writing file) =>
      -- With `fclose` the lock is gone.
      { s.goto p (some (.running file)) with
        contents := Function.update s.contents file (some (p : Int))
        lock := Function.update s.lock file none }
    | _ => s
  | .setuid p user =>
    if s.user p = superuser then { s with user := Function.update s.user p user } else s
  | .exit p => if (s.process p).isSome then s.exitProcess p else s
  | .wait p => if s.process p = some .exited then s.goto p none else s
  | .unlink => { s with entry := none }

/-- The steps of all processes, in the order in which they happen. -/
def run (s : System) (calls : List Syscall) : System :=
  calls.foldl step s

/-- Every call is made in a state in which it may be made. -/
def Along (May : System → Syscall → Prop) : System → List Syscall → Prop
  | _, [] => True
  | s, call :: calls => May s call ∧ Along May (s.step call) calls

/-! ## The invariant -/

/-- A child that reads a file may signal the service that runs with the file. -/
def MayRead (s : System) (call : Syscall) : Prop :=
  ∀ p group file q, call = .read p group → s.process p = some (.reading file) →
    s.process q = some (.running file) → s.MaySignal p q

/-- What keeps the services of one file apart. -/
structure Exclusive (s : System) : Prop where
  /-- Files that are in use exist. -/
  entry : ∀ file, s.entry = some file → file < s.next
  opened : ∀ p phase file, s.process p = some phase → phase.file = some file → file < s.next
  /-- A child has the lock from the time it reads the file until it has written it. -/
  reading : ∀ p file, s.process p = some (.reading file) → s.lock file = some p
  writing : ∀ p file, s.process p = some (.writing file) → s.lock file = some p
  /-- No service runs with a file that is about to be written. -/
  checked : ∀ p q file, s.process p = some (.writing file) → s.process q ≠ some (.running file)
  /-- The number of a service is in its file. -/
  written : ∀ p file, s.process p = some (.running file) → s.contents file = some (p : Int)

theorem exclusive_start (stale : Option (Option Int)) : Exclusive (start stale) where
  entry file h := by
    obtain ⟨_, _, rfl⟩ := Option.map_eq_some_iff.mp h
    exact Nat.zero_lt_one
  opened := nofun
  reading := nofun
  writing := nofun
  checked := nofun
  written := nofun

theorem goto_process (s : System) (p q : Pid) (phase : Option Phase) :
    (s.goto p phase).process q = if q = p then phase else s.process q := by
  show Function.update s.process p phase q = _
  rw [Function.update_apply]

/-- Whoever is in a phase is the process that went there, or was there before. -/
theorem goto_cases {s : System} {p q : Pid} {phase : Option Phase} {there : Phase}
    (h : (s.goto p phase).process q = some there) :
    q = p ∧ phase = some there ∨ q ≠ p ∧ s.process q = some there := by
  rw [goto_process] at h
  split at h
  · next hq => exact Or.inl ⟨hq, h⟩
  · next hq => exact Or.inr ⟨hq, h⟩

variable {s : System} {p : Pid} {file : File}

/-- What a process needs to go to a phase. -/
structure MayGoto (s : System) (p : Pid) (phase : Phase) : Prop where
  file : ∀ file, phase.file = some file → file < s.next
  lock : ∀ file, phase = .reading file ∨ phase = .writing file → s.lock file = some p
  checked : ∀ q file, phase = .writing file → s.process q ≠ some (.running file)
  written : ∀ file, phase = .running file → s.contents file = some (p : Int)
  alone : ∀ q file, phase = .running file → s.process q ≠ some (.writing file)

theorem Exclusive.goto (h : Exclusive s) {phase : Option Phase}
    (hphase : ∀ there, phase = some there → MayGoto s p there) : Exclusive (s.goto p phase) := by
  refine ⟨h.entry, ?_, ?_, ?_, ?_, ?_⟩
  · intro q there file hq hfile
    rcases goto_cases hq with ⟨_, hthere⟩ | ⟨_, hq⟩
    · exact (hphase there hthere).file file hfile
    · exact h.opened q there file hq hfile
  · intro q file hq
    rcases goto_cases hq with ⟨rfl, hthere⟩ | ⟨_, hq⟩
    · exact (hphase _ hthere).lock file (Or.inl rfl)
    · exact h.reading q file hq
  · intro q file hq
    rcases goto_cases hq with ⟨rfl, hthere⟩ | ⟨_, hq⟩
    · exact (hphase _ hthere).lock file (Or.inr rfl)
    · exact h.writing q file hq
  · intro q r file hq hr
    rcases goto_cases hq with ⟨_, hthere⟩ | ⟨_, hq⟩
    · rcases goto_cases hr with ⟨_, hrunning⟩ | ⟨_, hr⟩
      · rw [hthere] at hrunning
        cases hrunning
      · exact (hphase _ hthere).checked r file rfl hr
    · rcases goto_cases hr with ⟨_, hrunning⟩ | ⟨_, hr⟩
      · exact (hphase _ hrunning).alone q file rfl hq
      · exact h.checked q r file hq hr
  · intro q file hq
    rcases goto_cases hq with ⟨rfl, hthere⟩ | ⟨_, hq⟩
    · exact (hphase _ hthere).written file rfl
    · exact h.written q file hq

/-- A phase in which a process has no part in the file. -/
theorem mayGoto_of_file_eq_none {phase : Phase} (h : phase.file = none) : MayGoto s p phase := by
  cases phase with
  | opening | checking | exited => exact ⟨nofun, nofun, nofun, nofun, nofun⟩
  | locking | reading | writing | running => cases h

theorem Exclusive.openFile (h : Exclusive s) : Exclusive (s.openFile p) := by
  unfold System.openFile
  cases hentry : s.entry with
  | some file =>
    refine h.goto fun there hthere => ?_
    cases hthere
    refine ⟨fun file' hfile => ?_, nofun, nofun, nofun, nofun⟩
    cases hfile
    exact h.entry file hentry
  | none =>
    -- The new file is there before the child has it.
    have hnew : Exclusive { s with entry := some s.next, next := s.next + 1 } := by
      refine ⟨fun file hfile => ?_, fun q phase file hq hfile => ?_, h.reading, h.writing,
        h.checked, h.written⟩
      · cases hfile
        exact Nat.lt_succ_self _
      · exact Nat.lt_succ_of_lt (h.opened q phase file hq hfile)
    refine hnew.goto fun there hthere => ?_
    cases hthere
    refine ⟨fun file hfile => ?_, nofun, nofun, nofun, nofun⟩
    cases hfile
    exact Nat.lt_succ_self _

theorem Exclusive.exitProcess (h : Exclusive s) : Exclusive (s.exitProcess p) := by
  have hgone : Exclusive (s.goto p (some .exited)) :=
    h.goto fun there hthere => by
      cases hthere
      exact mayGoto_of_file_eq_none rfl
  have hkept : ∀ q file, q ≠ p → s.lock file = some q →
      (s.exitProcess p).lock file = some q := by
    intro q file hq hlock
    show (if s.lock file = some p then none else s.lock file) = some q
    rw [hlock, if_neg (by simpa using hq)]
  refine ⟨hgone.entry, hgone.opened, fun q file hq => ?_, fun q file hq => ?_, hgone.checked,
    hgone.written⟩
  · rcases goto_cases hq with ⟨_, hthere⟩ | ⟨hne, hq⟩
    · cases hthere
    · exact hkept q file hne (h.reading q file hq)
  · rcases goto_cases hq with ⟨_, hthere⟩ | ⟨hne, hq⟩
    · cases hthere
    · exact hkept q file hne (h.writing q file hq)

/-- A child that gets the lock of a file is the only one that reads or writes
it. -/
theorem Exclusive.lockFile (h : Exclusive s) (hp : s.process p = some (.locking file))
    (hfree : s.lock file = none) :
    Exclusive { s.goto p (some (.reading file)) with
      lock := Function.update s.lock file (some p) } := by
  have hlocked : Exclusive { s with lock := Function.update s.lock file (some p) } := by
    have hkept : ∀ q file', s.lock file' = some q →
        Function.update s.lock file (some p) file' = some q := by
      intro q file' hlock
      have hne : file' ≠ file := by
        rintro rfl
        rw [hfree] at hlock
        cases hlock
      rw [Function.update_of_ne hne, hlock]
    exact ⟨h.entry, h.opened, fun q file' hq => hkept q file' (h.reading q file' hq),
      fun q file' hq => hkept q file' (h.writing q file' hq), h.checked, h.written⟩
  refine hlocked.goto fun there hthere => ?_
  cases hthere
  refine ⟨fun file' hfile => ?_, fun file' hlock => ?_, nofun, nofun, nofun⟩
  · cases hfile
    exact h.opened p _ file hp rfl
  · rcases hlock with hlock | hlock
    · cases hlock
      exact Function.update_self _ _ _
    · cases hlock

/-- The service of a file is found by whoever may signal it. -/
theorem Exclusive.stillRunning (h : Exclusive s) {q : Pid}
    (hq : s.process q = some (.running file)) (hsignal : s.MaySignal p q) (group : Bool) :
    s.stillRunning p file group = true := by
  unfold System.stillRunning kill
  rw [h.written q file hq, Option.any_some, if_neg (by omega)]
  split_ifs
  · rfl
  · rw [Int.toNat_natCast, hq, decide_eq_true hsignal]
    rfl

/-- A child that does not find the number of a process goes on to write. -/
theorem Exclusive.readFile (h : Exclusive s) (hp : s.process p = some (.reading file))
    {group : Bool} (hfree : s.stillRunning p file group = false)
    (hsignal : ∀ q, s.process q = some (.running file) → s.MaySignal p q) :
    Exclusive (s.goto p (some (.writing file))) := by
  refine h.goto fun there hthere => ?_
  cases hthere
  refine ⟨fun file' hfile => ?_, fun file' hlock => ?_, fun q file' hfile hq => ?_, nofun, nofun⟩
  · cases hfile
    exact h.opened p _ file hp rfl
  · rcases hlock with hlock | hlock
    · cases hlock
    · cases hlock
      exact h.reading p file hp
  · cases hfile
    rw [h.stillRunning hq (hsignal q hq) group] at hfree
    cases hfree

/-- A child that has the lock is the only one that reads or writes the file. -/
theorem Exclusive.eq_of_lock (h : Exclusive s) {q : Pid} (hp : s.lock file = some p)
    (hq : s.process q = some (.reading file) ∨ s.process q = some (.writing file)) : q = p := by
  have hlock : s.lock file = some q := by
    rcases hq with hq | hq
    · exact h.reading q file hq
    · exact h.writing q file hq
  rw [hp] at hlock
  exact (Option.some.inj hlock).symm

theorem Exclusive.checkFile (h : Exclusive s) (hp : s.process p = some (.reading file)) :
    Exclusive { s.goto p (some .checking) with lock := Function.update s.lock file none } := by
  have hgone : Exclusive (s.goto p (some .checking)) :=
    h.goto fun there hthere => by
      cases hthere
      exact mayGoto_of_file_eq_none rfl
  have hkept : ∀ q file', q ≠ p →
      s.process q = some (.reading file') ∨ s.process q = some (.writing file') →
      s.lock file' = some q → Function.update s.lock file none file' = some q := by
    intro q file' hne hq hlock
    have hother : file' ≠ file := by
      rintro rfl
      exact hne (h.eq_of_lock (h.reading p file' hp) hq)
    rw [Function.update_of_ne hother, hlock]
  refine ⟨hgone.entry, hgone.opened, fun q file' hq => ?_, fun q file' hq => ?_, hgone.checked,
    hgone.written⟩
  · rcases goto_cases hq with ⟨_, hthere⟩ | ⟨hne, hq⟩
    · cases hthere
    · exact hkept q file' hne (Or.inl hq) (h.reading q file' hq)
  · rcases goto_cases hq with ⟨_, hthere⟩ | ⟨hne, hq⟩
    · cases hthere
    · exact hkept q file' hne (Or.inr hq) (h.writing q file' hq)

theorem Exclusive.writeFile (h : Exclusive s) (hp : s.process p = some (.writing file)) :
    Exclusive { s.goto p (some (.running file)) with
      contents := Function.update s.contents file (some (p : Int))
      lock := Function.update s.lock file none } := by
  have hmine : ∀ q file', q ≠ p →
      s.process q = some (.reading file') ∨ s.process q = some (.writing file') →
      file' ≠ file := by
    rintro q file' hne hq rfl
    exact hne (h.eq_of_lock (h.writing p file' hp) hq)
  refine ⟨h.entry, fun q phase file' hq hfile => ?_, fun q file' hq => ?_,
    fun q file' hq => ?_, fun q r file' hq hr => ?_, fun q file' hq => ?_⟩
  · rcases goto_cases hq with ⟨_, hthere⟩ | ⟨_, hq⟩
    · cases hthere
      cases hfile
      exact h.opened p _ file hp rfl
    · exact h.opened q phase file' hq hfile
  · rcases goto_cases hq with ⟨_, hthere⟩ | ⟨hne, hq⟩
    · cases hthere
    · show Function.update s.lock file none file' = some q
      rw [Function.update_of_ne (hmine q file' hne (Or.inl hq)), h.reading q file' hq]
  · rcases goto_cases hq with ⟨_, hthere⟩ | ⟨hne, hq⟩
    · cases hthere
    · show Function.update s.lock file none file' = some q
      rw [Function.update_of_ne (hmine q file' hne (Or.inr hq)), h.writing q file' hq]
  · rcases goto_cases hq with ⟨_, hthere⟩ | ⟨hne, hq⟩
    · cases hthere
    · rcases goto_cases hr with ⟨_, hthere⟩ | ⟨_, hr⟩
      · cases hthere
        exact hmine q _ hne (Or.inr hq) rfl
      · exact h.checked q r file' hq hr
  · show Function.update s.contents file (some (p : Int)) file' = some (q : Int)
    rcases goto_cases hq with ⟨rfl, hthere⟩ | ⟨_, hran⟩
    · cases hthere
      exact Function.update_self _ _ _
    · -- A service with this file would have been found before the file is written.
      have hother : file' ≠ file := by
        rintro rfl
        exact h.checked p q file' hp hran
      rw [Function.update_of_ne hother, h.written q file' hran]

/-- The user of a process plays no part. -/
theorem Exclusive.withUser (h : Exclusive s) (user : Pid → User) :
    Exclusive { s with user := user } :=
  ⟨h.entry, h.opened, h.reading, h.writing, h.checked, h.written⟩

theorem Exclusive.step (h : Exclusive s) {call : Syscall} (hread : s.MayRead call) :
    Exclusive (s.step call) := by
  have hnone : ∀ q phase, phase.file = none → Exclusive (s.goto q (some phase)) := by
    intro q phase hphase
    refine h.goto fun there hthere => ?_
    cases hthere
    exact mayGoto_of_file_eq_none hphase
  cases call with
  | fork p user =>
    simp only [System.step]
    split_ifs
    · exact (hnone p .opening rfl).withUser _
    · exact h
  | «open» p =>
    simp only [System.step]
    split_ifs
    · exact h.openFile
    · exact h
  | lock p =>
    simp only [System.step]
    split
    · next file hp =>
      split_ifs with hfree
      · exact h.lockFile hp hfree
      · exact h
    · exact h
  | read p group =>
    simp only [System.step]
    split
    · next file hp =>
      split_ifs with hfound
      · exact h.exitProcess
      · exact h.readFile hp (eq_false_of_ne_true hfound) fun q hq => hread p group file q rfl hp hq
    · exact h
  | check p =>
    simp only [System.step]
    split
    · next file hp => exact h.checkFile hp
    · exact h
  | write p =>
    simp only [System.step]
    split
    · next file hp => exact h.writeFile hp
    · exact h
  | setuid p user =>
    simp only [System.step]
    split_ifs
    · exact h.withUser _
    · exact h
  | exit p =>
    simp only [System.step]
    split_ifs
    · exact h.exitProcess
    · exact h
  | wait p =>
    simp only [System.step]
    split_ifs
    · exact h.goto nofun
    · exact h
  | unlink => exact ⟨nofun, h.opened, h.reading, h.writing, h.checked, h.written⟩

theorem Exclusive.run (h : Exclusive s) {calls : List Syscall} (hread : s.Along MayRead calls) :
    Exclusive (s.run calls) := by
  induction calls generalizing s with
  | nil => exact h
  | cons call calls ih => exact ih (h.step hread.1) hread.2

/-! ## One path -/

/-- No child has a file open, and no service runs. -/
def Idle (s : System) : Prop :=
  ∀ p phase, s.process p = some phase → phase.file = none

/-- The file is unlinked only while no child has it open and no service runs with it. -/
def MayUnlink (s : System) (call : Syscall) : Prop :=
  call = .unlink → s.Idle

/-- Every child has the file open that the path leads to, and every service runs with it. -/
def Entered (s : System) : Prop :=
  ∀ p phase file, s.process p = some phase → phase.file = some file → s.entry = some file

theorem entered_start (stale : Option (Option Int)) : Entered (start stale) :=
  nofun

theorem Entered.goto (h : Entered s) {phase : Option Phase}
    (hphase : ∀ there file, phase = some there → there.file = some file → s.entry = some file) :
    Entered (s.goto p phase) := by
  intro q there file hq hfile
  show s.entry = some file
  rcases goto_cases hq with ⟨_, hthere⟩ | ⟨_, hq⟩
  · exact hphase there file hthere hfile
  · exact h q there file hq hfile

/-- A process goes on with the file that it has opened, or without one. -/
theorem Entered.goOn (h : Entered s) {phase there : Phase} (hp : s.process p = some phase)
    (hfile : there.file = none ∨ there.file = phase.file) : Entered (s.goto p (some there)) := by
  refine h.goto fun _ file hthere hopened => ?_
  cases hthere
  rcases hfile with hfile | hfile
  · rw [hfile] at hopened
    cases hopened
  · exact h p phase file hp (hfile ▸ hopened)

theorem Entered.openFile (h : Entered s) : Entered (s.openFile p) := by
  unfold System.openFile
  cases hentry : s.entry with
  | some file =>
    refine h.goto fun there file' hthere hfile => ?_
    cases hthere
    cases hfile
    exact hentry
  | none =>
    intro q there file hq hfile
    rcases goto_cases hq with ⟨_, hthere⟩ | ⟨_, hq⟩
    · cases hthere
      exact hfile
    · -- No process has opened a file before.
      have hopened := h q there file hq hfile
      rw [hentry] at hopened
      cases hopened

theorem Entered.step (h : Entered s) {call : Syscall} (hidle : s.MayUnlink call) :
    Entered (s.step call) := by
  cases call with
  | fork p user =>
    simp only [System.step]
    split_ifs
    · refine h.goto fun there file hthere hfile => ?_
      cases hthere
      cases hfile
    · exact h
  | «open» p =>
    simp only [System.step]
    split_ifs
    · exact h.openFile
    · exact h
  | lock p =>
    simp only [System.step]
    split
    · next file hp =>
      split_ifs
      · exact h.goOn hp (Or.inr rfl)
      · exact h
    · exact h
  | read p group =>
    simp only [System.step]
    split
    · next file hp =>
      split_ifs
      · exact h.goOn hp (Or.inl rfl)
      · exact h.goOn hp (Or.inr rfl)
    · exact h
  | check p =>
    simp only [System.step]
    split
    · next file hp => exact h.goOn hp (Or.inl rfl)
    · exact h
  | write p =>
    simp only [System.step]
    split
    · next file hp => exact h.goOn hp (Or.inr rfl)
    · exact h
  | setuid p user =>
    simp only [System.step]
    split_ifs
    · exact h
    · exact h
  | exit p =>
    simp only [System.step]
    split_ifs with hp
    · obtain ⟨phase, hp⟩ := Option.isSome_iff_exists.mp hp
      exact h.goOn hp (Or.inl rfl)
    · exact h
  | wait p =>
    simp only [System.step]
    split_ifs
    · exact h.goto nofun
    · exact h
  | unlink =>
    intro q phase file hq hfile
    rw [hidle rfl q phase hq] at hfile
    cases hfile

theorem Entered.run (h : Entered s) {calls : List Syscall} (hidle : s.Along MayUnlink calls) :
    Entered (s.run calls) := by
  induction calls generalizing s with
  | nil => exact h
  | cons call calls ih => exact ih (h.step hidle.1) hidle.2

/-- Root starts a service, which goes on as another user.  The second service starts after
the first was waited for and its file unlinked, while a child of that user finds it and
exits. -/
def restart : List Syscall :=
  [.fork 1 0, .open 1, .lock 1, .read 1 false, .write 1, .setuid 1 5, .exit 1, .wait 1, .unlink,
    .fork 2 0, .fork 3 5, .open 2, .open 3, .lock 2, .read 2 false, .write 2, .setuid 2 5,
    .lock 3, .read 3 false]

theorem restart_mayRead : (start (some (some 7))).Along MayRead restart := by
  have hroot : ∀ {s : System} {p : Pid}, s.user p = superuser → s.MayRead (.read p false) := by
    intro s p huser p' group file q hcall _ _
    cases hcall
    exact .inl huser
  have hthird : MayRead ((start (some (some 7))).run (restart.take 18)) (.read 3 false) := by
    intro p group file q hcall hp hq
    cases hcall
    have hq : q = 2 := by
      simp [restart, run, step, start, goto, openFile, exitProcess, stillRunning, kill,
        Function.update_apply, superuser] at hq
      grind
    rw [hq]
    exact .inr rfl
  exact ⟨nofun, nofun, nofun, hroot rfl, nofun, nofun, nofun, nofun, nofun, nofun, nofun, nofun,
    nofun, nofun, hroot rfl, nofun, nofun, nofun, hthird, trivial⟩

theorem restart_mayUnlink : (start (some (some 7))).Along MayUnlink restart := by
  have hidle : Idle ((start (some (some 7))).run (restart.take 8)) := by
    intro p phase hp
    simp [restart, run, step, start, goto, openFile, exitProcess, stillRunning, kill,
      Function.update_apply, superuser] at hp
  exact ⟨nofun, nofun, nofun, nofun, nofun, nofun, nofun, nofun, fun _ => hidle, nofun, nofun,
    nofun, nofun, nofun, nofun, nofun, nofun, nofun, nofun, trivial⟩

/-- The controller of the first service unlinks the file that the second one has
written by then, so that the third one finds none. -/
example :
    let s := (start none).run
      [.fork 1 0, .open 1, .lock 1, .read 1 false, .write 1, .exit 1, .wait 1,
        .fork 2 0, .open 2, .lock 2, .read 2 false, .write 2, .unlink,
        .fork 3 0, .open 3, .lock 3, .read 3 false, .write 3]
    s.process 2 = some (.running 1) ∧ s.process 3 = some (.running 2) := by
  decide

/-- A child that may not signal the service of root goes on, and both run with one file. -/
example :
    let s := (start (some (some 7))).run
      [.fork 1 0, .open 1, .lock 1, .read 1 false, .write 1,
        .fork 2 5, .open 2, .lock 2, .read 2 false, .write 2]
    s.process 1 = some (.running 0) ∧ s.process 2 = some (.running 0) := by
  decide

end System

end BoundaryEventSdk.Jsvc
