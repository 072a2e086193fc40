import Mathlib.Logic.Hydra

/-!
# Messages in flight

A network of queues with stateless consumers: a state is the multiset of the
messages in flight, and a step takes any one of them and puts in its place what
its consumer sends.  `consume m out` says that `out` is one of the things that
may come of `m`.  A message without a consumer stays where it is: it is
delivered.  Nothing is said about the order in which messages are taken, so
what holds of every run holds of every interleaving of the consumers.

A consumer sees one message only, which makes the messages independent of each
other: `run_add_iff` takes a run of two multisets apart into a run of each, and
`delivers_coe_iff` does so for a list of messages.  With `delivers_singleton_iff`
one can then compute what a network delivers, one consumer after the other.
`run_forall` carries a property of single messages along a run, `run_bind`
compares what a whole state carries with what the first one did, and
`wellFounded_step` says that a network whose messages go from a higher rank to a
lower one only comes to rest.

`Sends` makes the consumers of a network from a function.  What a consumer reads
besides the message, the clock or what a server answers, is an argument of the
function, and may be another each time.
-/

namespace BoundaryEventSdk.Messaging

variable {μ : Type}

section Definitions

variable (consume : μ → Multiset μ → Prop)

/-- One message is taken, and what comes of it is put in its place. -/
def Step (s s' : Multiset μ) : Prop :=
  ∃ m rest out, s = m ::ₘ rest ∧ consume m out ∧ s' = out + rest

/-- Any number of steps. -/
def Run : Multiset μ → Multiset μ → Prop :=
  Relation.ReflTransGen (Step consume)

/-- Nobody takes the message. -/
def Final (m : μ) : Prop :=
  ∀ out, ¬ consume m out

/-- No message in flight is taken any more. -/
def Quiet (s : Multiset μ) : Prop :=
  ∀ m ∈ s, Final consume m

/-- A run from `s` may end with `u`. -/
def Delivers (s u : Multiset μ) : Prop :=
  Run consume s u ∧ Quiet consume u

end Definitions

variable {consume : μ → Multiset μ → Prop}

/-! ## One step -/

theorem step_cons {m : μ} {out : Multiset μ} (h : consume m out) (rest : Multiset μ) :
    Step consume (m ::ₘ rest) (out + rest) :=
  ⟨m, rest, out, rfl, h, rfl⟩

theorem step_singleton_iff {m : μ} {s : Multiset μ} : Step consume {m} s ↔ consume m s := by
  constructor
  · intro hstep
    obtain ⟨m', rest, out, hm, hout, rfl⟩ := hstep
    obtain ⟨rfl, rfl⟩ : m = m' ∧ rest = 0 := by
      have hcard := congrArg Multiset.card hm
      have hrest : rest = 0 := by simpa using hcard
      subst hrest
      exact ⟨Multiset.singleton_inj.mp hm, rfl⟩
    simpa using hout
  · intro hconsume
    simpa using step_cons hconsume 0

theorem Step.add_right {s s' : Multiset μ} (h : Step consume s s') (t : Multiset μ) :
    Step consume (s + t) (s' + t) := by
  obtain ⟨m, rest, out, rfl, hout, rfl⟩ := h
  rw [Multiset.cons_add, add_assoc]
  exact step_cons hout (rest + t)

/-- A step of two multisets together is a step of one of them. -/
theorem step_add_iff {s t w : Multiset μ} :
    Step consume (s + t) w ↔
      (∃ s', Step consume s s' ∧ w = s' + t) ∨ ∃ t', Step consume t t' ∧ w = s + t' := by
  constructor
  · intro hstep
    obtain ⟨m, rest, out, hm, hout, rfl⟩ := hstep
    have hmem : m ∈ s + t := by
      rw [hm]
      exact Multiset.mem_cons_self m rest
    rcases Multiset.mem_add.mp hmem with hs | ht
    · obtain ⟨s₀, rfl⟩ := Multiset.exists_cons_of_mem hs
      rw [Multiset.cons_add, Multiset.cons_inj_right] at hm
      subst hm
      exact Or.inl ⟨out + s₀, step_cons hout s₀, (add_assoc _ _ _).symm⟩
    · obtain ⟨t₀, rfl⟩ := Multiset.exists_cons_of_mem ht
      rw [Multiset.add_cons, Multiset.cons_inj_right] at hm
      subst hm
      exact Or.inr ⟨out + t₀, step_cons hout t₀, add_left_comm _ _ _⟩
  · intro hstep
    rcases hstep with ⟨s', hs, rfl⟩ | ⟨t', ht, rfl⟩
    · exact hs.add_right t
    · rw [add_comm s, add_comm s]
      exact ht.add_right s

/-! ## Runs -/

theorem Run.add_right {s s' : Multiset μ} (h : Run consume s s') (t : Multiset μ) :
    Run consume (s + t) (s' + t) := by
  induction h with
  | refl => exact .refl
  | tail _ hstep ih => exact ih.tail (hstep.add_right t)

theorem Run.add {s s' t t' : Multiset μ} (hs : Run consume s s') (ht : Run consume t t') :
    Run consume (s + t) (s' + t') := by
  have hright := ht.add_right s'
  rw [add_comm t, add_comm t'] at hright
  exact (hs.add_right t).trans hright

/-- A run of two multisets together is a run of each of them: how they are
interleaved makes no difference to where they can get. -/
theorem run_add_iff {s t u : Multiset μ} :
    Run consume (s + t) u ↔ ∃ s' t', Run consume s s' ∧ Run consume t t' ∧ u = s' + t' := by
  constructor
  · intro hrun
    -- The pair is carried along the run, and each step is a step of one side.
    induction hrun with
    | refl => exact ⟨s, t, .refl, .refl, rfl⟩
    | tail _ hstep ih =>
      obtain ⟨s', t', hs, ht, rfl⟩ := ih
      rcases step_add_iff.mp hstep with ⟨s'', hstep', rfl⟩ | ⟨t'', hstep', rfl⟩
      · exact ⟨s'', t', hs.tail hstep', ht, rfl⟩
      · exact ⟨s', t'', hs, ht.tail hstep', rfl⟩
  · intro hrun
    obtain ⟨s', t', hs, ht, rfl⟩ := hrun
    exact hs.add ht

/-- What every message of the first state has, and every consumer hands on, every
message of every later state has. -/
theorem run_forall {P : μ → Prop} {s u : Multiset μ} (hs : ∀ m ∈ s, P m)
    (hconsume : ∀ m out, P m → consume m out → ∀ m' ∈ out, P m') (hrun : Run consume s u) :
    ∀ m ∈ u, P m := by
  induction hrun with
  | refl => exact hs
  | tail _ hstep ih =>
    obtain ⟨m, rest, out, rfl, hout, rfl⟩ := hstep
    intro m' hm'
    rcases Multiset.mem_add.mp hm' with hm' | hm'
    · exact hconsume m out (ih m (Multiset.mem_cons_self m rest)) hout m' hm'
    · exact ih m' (Multiset.mem_cons_of_mem hm')

/-! ## What messages carry -/

/-- If what a consumer sends carries no more than the message it took, and no
less, or as much, then the same is true of a state and the first one.  The
messages may be known to have a property that consumers hand on. -/
theorem run_bind {α : Type} {r : Multiset α → Multiset α → Prop} [Std.Refl r] [IsTrans _ r]
    (hadd : ∀ a b c, r a b → r (a + c) (b + c)) {load : μ → Multiset α} {P : μ → Prop}
    {s u : Multiset μ} (hs : ∀ m ∈ s, P m)
    (hP : ∀ m out, P m → consume m out → ∀ m' ∈ out, P m')
    (hconsume : ∀ m out, P m → consume m out → r (out.bind load) (load m))
    (hrun : Run consume s u) : r (u.bind load) (s.bind load) := by
  induction hrun with
  | refl => exact refl _
  | tail hrun hstep ih =>
    obtain ⟨m, rest, out, rfl, hout, rfl⟩ := hstep
    have hm : P m := run_forall hs hP hrun m (Multiset.mem_cons_self m rest)
    refine IsTrans.trans _ _ _ ?_ ih
    rw [Multiset.add_bind, Multiset.cons_bind]
    exact hadd _ _ _ (hconsume m out hm hout)

/-! ## Coming to rest -/

/-- A network whose consumers send messages of a lower rank only cannot run
forever. -/
theorem wellFounded_step (rank : μ → Nat)
    (hrank : ∀ m out, consume m out → ∀ m' ∈ out, rank m' < rank m) :
    WellFounded fun s' s => Step consume s s' := by
  have hcut : WellFounded (Relation.CutExpand fun m' m => rank m' < rank m) :=
    (InvImage.wf rank Nat.lt_wfRel.wf).cutExpand
  refine Subrelation.wf (fun {s' s} hstep => ?_) hcut
  obtain ⟨m, rest, out, rfl, hout, rfl⟩ := hstep
  refine ⟨out, m, hrank m out hout, ?_⟩
  rw [Multiset.cons_add, ← Multiset.singleton_add, add_comm rest out]
  exact add_comm (out + rest) {m}

/-! ## What is delivered -/

theorem quiet_zero : Quiet consume 0 :=
  fun _ hm => absurd hm (Multiset.notMem_zero _)

theorem quiet_add {s t : Multiset μ} :
    Quiet consume (s + t) ↔ Quiet consume s ∧ Quiet consume t := by
  simp only [Quiet, Multiset.mem_add]
  constructor
  · intro h
    exact ⟨fun m hm => h m (Or.inl hm), fun m hm => h m (Or.inr hm)⟩
  · intro hquiet m hm
    obtain ⟨hs, ht⟩ := hquiet
    rcases hm with hm | hm
    · exact hs m hm
    · exact ht m hm

theorem not_step_of_quiet {s s' : Multiset μ} (h : Quiet consume s) : ¬ Step consume s s' := by
  intro hstep
  obtain ⟨m, rest, out, rfl, hout, _⟩ := hstep
  exact h m (Multiset.mem_cons_self m rest) out hout

/-- A state at rest delivers itself. -/
theorem delivers_of_quiet {s u : Multiset μ} (h : Quiet consume s) :
    Delivers consume s u ↔ u = s := by
  constructor
  · intro hdelivers
    rcases hdelivers.1.cases_head with rfl | ⟨s', hstep, _⟩
    · rfl
    · exact absurd hstep (not_step_of_quiet h)
  · intro hu
    rw [hu]
    exact ⟨.refl, h⟩

theorem delivers_zero {u : Multiset μ} : Delivers consume 0 u ↔ u = 0 :=
  delivers_of_quiet quiet_zero

theorem delivers_add_iff {s t u : Multiset μ} :
    Delivers consume (s + t) u ↔
      ∃ s' t', Delivers consume s s' ∧ Delivers consume t t' ∧ u = s' + t' := by
  constructor
  · intro hdelivers
    obtain ⟨hrun, hquiet⟩ := hdelivers
    obtain ⟨s', t', hs, ht, rfl⟩ := run_add_iff.mp hrun
    obtain ⟨hs', ht'⟩ := quiet_add.mp hquiet
    exact ⟨s', t', ⟨hs, hs'⟩, ⟨ht, ht'⟩, rfl⟩
  · intro hdelivers
    obtain ⟨s', t', hs, ht, rfl⟩ := hdelivers
    exact ⟨hs.1.add ht.1, quiet_add.mpr ⟨hs.2, ht.2⟩⟩

/-- What a list of messages delivers is a sum of what each of them delivers. -/
theorem delivers_coe_iff {ms : List μ} {u : Multiset μ} :
    Delivers consume (ms : Multiset μ) u ↔
      ∃ us, List.Forall₂ (fun m u => Delivers consume {m} u) ms us ∧ u = us.sum := by
  induction ms generalizing u with
  | nil =>
    rw [Multiset.coe_nil, delivers_zero]
    simp
  | cons m ms ih =>
    rw [← Multiset.cons_coe, ← Multiset.singleton_add, delivers_add_iff]
    constructor
    · intro hdelivers
      obtain ⟨v, w, hv, hw, rfl⟩ := hdelivers
      obtain ⟨us, hus, rfl⟩ := ih.mp hw
      exact ⟨v :: us, .cons hv hus, List.sum_cons.symm⟩
    · intro hdelivers
      obtain ⟨us, hus, rfl⟩ := hdelivers
      cases hus with
      | cons hv hus => exact ⟨_, _, hv, ih.mpr ⟨_, hus, rfl⟩, List.sum_cons⟩

theorem delivers_final {m : μ} (h : Final consume m) {u : Multiset μ} :
    Delivers consume {m} u ↔ u = {m} := by
  refine delivers_of_quiet fun m' hm' => ?_
  rw [Multiset.mem_singleton.mp hm']
  exact h

/-- Messages of which each can deliver one thing only deliver all of it. -/
theorem delivers_coe_of_forall {f : μ → List μ} {ms : List μ}
    (h : ∀ m ∈ ms, ∀ u, Delivers consume {m} u ↔ u = (f m : Multiset μ)) {u : Multiset μ} :
    Delivers consume (ms : Multiset μ) u ↔ u = (ms.flatMap f : Multiset μ) := by
  induction ms generalizing u with
  | nil => exact delivers_zero
  | cons m ms ih =>
    have htail := fun m' hm' => h m' (List.mem_cons_of_mem m hm')
    rw [← Multiset.cons_coe, ← Multiset.singleton_add, delivers_add_iff, List.flatMap_cons,
      ← Multiset.coe_add]
    constructor
    · intro hdelivers
      obtain ⟨v, w, hv, hw, rfl⟩ := hdelivers
      rw [(h m List.mem_cons_self v).mp hv, (ih htail).mp hw]
    · intro hu
      exact ⟨_, _, (h m List.mem_cons_self _).mpr rfl, (ih htail).mpr rfl, hu⟩

/-- What one message delivers is itself, if nobody takes it, and else what comes
of it delivers. -/
theorem delivers_singleton_iff {m : μ} {u : Multiset μ} :
    Delivers consume {m} u ↔
      (Final consume m ∧ u = {m}) ∨ ∃ out, consume m out ∧ Delivers consume out u := by
  constructor
  · intro hdelivers
    obtain ⟨hrun, hquiet⟩ := hdelivers
    rcases hrun.cases_head with rfl | ⟨out, hstep, hrun⟩
    · exact Or.inl ⟨hquiet m (Multiset.mem_singleton_self m), rfl⟩
    · exact Or.inr ⟨out, step_singleton_iff.mp hstep, hrun, hquiet⟩
  · intro hdelivers
    rcases hdelivers with ⟨hfinal, rfl⟩ | ⟨out, hout, hrun, hquiet⟩
    · refine ⟨.refl, fun m' hm' => ?_⟩
      rw [Multiset.mem_singleton.mp hm']
      exact hfinal
    · exact ⟨hrun.head (step_singleton_iff.mpr hout), hquiet⟩

/-! ## Consumers given by a function -/

/-- What may come of a message, in one of the surroundings that may occur.
`handle` gives what the consumer of the message sends, or nothing for a message
without a consumer. -/
def Sends {ω : Type} (possible : ω → Prop) (handle : ω → μ → Option (List μ)) (m : μ)
    (out : Multiset μ) : Prop :=
  ∃ w outs, possible w ∧ handle w m = some outs ∧ out = (outs : Multiset μ)

section Sends

variable {ω : Type} {possible : ω → Prop} {handle : ω → μ → Option (List μ)}

theorem handle_eq_none_of_final (hpossible : ∃ w, possible w) {m : μ}
    (h : Final (Sends possible handle) m) : ∃ w, handle w m = none := by
  obtain ⟨w, hw⟩ := hpossible
  refine ⟨w, ?_⟩
  cases houts : handle w m with
  | none => rfl
  | some outs => exact absurd ⟨w, outs, hw, houts, rfl⟩ (h outs)

theorem final_sends {m : μ} (h : ∀ w, handle w m = none) : Final (Sends possible handle) m := by
  intro out hsends
  obtain ⟨w, outs, _, houts, _⟩ := hsends
  rw [h w] at houts
  cases houts

/-- What a message with a consumer delivers. -/
theorem delivers_sends_iff {m : μ} {sent : ω → List μ} (hsent : ∀ w, handle w m = some (sent w))
    (hpossible : ∃ w, possible w) {u : Multiset μ} :
    Delivers (Sends possible handle) {m} u ↔
      ∃ w, possible w ∧ Delivers (Sends possible handle) (sent w : Multiset μ) u := by
  rw [delivers_singleton_iff]
  constructor
  · intro hdelivers
    rcases hdelivers with ⟨hfinal, _⟩ | ⟨out, ⟨w, outs, hw, houts, rfl⟩, hout⟩
    · obtain ⟨w, hw⟩ := hpossible
      exact absurd ⟨w, sent w, hw, hsent w, rfl⟩ (hfinal (sent w))
    · rw [hsent w, Option.some.injEq] at houts
      subst houts
      exact ⟨w, hw, hout⟩
  · intro hdelivers
    obtain ⟨w, hw, hout⟩ := hdelivers
    exact Or.inr ⟨_, ⟨w, sent w, hw, hsent w, rfl⟩, hout⟩

end Sends

end BoundaryEventSdk.Messaging
