import BoundaryEventSdk.Messaging.Network
import BoundaryEventSdk.Snmp.PollResponse

/-!
# The SNMP collector

`snmp-collector.xml`: each poller has a route of its own, and what the routes
send meets in one queue, before the script.  So the parts of many responses, of
many agents, are in flight at a time.  The configuration of the poller travels
as a header next to each part, and is removed before the measurement is sent to
Boundary.

`pollResponse` is what one response comes to, part by part.  The collector
delivers the measurements of `pollResponse` for each response, whatever the
order in which it takes the parts: the script never looks a part up in the
configuration of another poller, and no part costs a measurement of another
response.
-/

namespace BoundaryEventSdk.Snmp

open BoundaryEventSdk.Java
open BoundaryEventSdk.Messaging

/-- A message of the collector. -/
inductive CollectorMessage where
  /-- A response, on the route of its poller. -/
  | response (config : SnmpPollerConfiguration) (body : List VariableBinding)
  /-- `seda:snmp-poller-out`. -/
  | snmpPollerOut (config : SnmpPollerConfiguration) (varBind : VariableBinding)
  /-- `direct:remove-header`. -/
  | removeHeader (config : SnmpPollerConfiguration) (measure : Measurement)
  /-- `seda:boundary-metric`. -/
  | boundaryMetric (measure : Measurement)

/-- The route of a poller after the split: the parts that go on. -/
def pollerParts (config : SnmpPollerConfiguration) (body : List VariableBinding) :
    List CollectorMessage :=
  match splitBody body with
  | .error _ => []
  | .ok parts => (parts.filter fun part => !handleException part).map (.snmpPollerOut config)

/-- What the consumer of a message sends.  The script reads the clock. -/
def collect (now : Event.Date) : CollectorMessage → Option (List CollectorMessage)
  | .response config body => some (pollerParts config body)
  | .snmpPollerOut config varBind =>
    some ((snmpToMeasure config now varBind).toOption.toList.map (.removeHeader config))
  | .removeHeader _ measure => some [.boundaryMetric measure]
  | .boundaryMetric _ => none

/-- The measurement that a part came to. -/
def measured (part : Option (Except Throwable Measurement)) : Option Measurement :=
  part.bind Except.toOption

/-- The measurements of a response. -/
def measurements (config : SnmpPollerConfiguration) (clock : Nat → Event.Date)
    (body : List VariableBinding) : List Measurement :=
  ((pollResponse config clock body).toOption.getD []).filterMap measured

variable {possible : Event.Date → Prop}

theorem delivers_boundaryMetric {measure : Measurement} {u : Multiset CollectorMessage} :
    Delivers (Sends possible collect) {.boundaryMetric measure} u ↔
      u = {.boundaryMetric measure} :=
  delivers_final (final_sends fun _ => rfl)

/-- A sequence of times is a first one and a sequence of the others. -/
theorem exists_clock_iff {Q : (Nat → Event.Date) → Prop} :
    (∃ clock : Nat → Event.Date, (∀ i, possible (clock i)) ∧ Q clock) ↔
      ∃ now, possible now ∧ ∃ clock : Nat → Event.Date, (∀ i, possible (clock i)) ∧
        Q fun i => Nat.casesOn i now clock := by
  constructor
  · intro hq
    obtain ⟨clock, hclock, hq⟩ := hq
    refine ⟨clock 0, hclock 0, fun i => clock (i + 1), fun i => hclock (i + 1), ?_⟩
    convert hq using 2 with i
    cases i <;> rfl
  · intro hq
    obtain ⟨now, hnow, clock, hclock, hq⟩ := hq
    refine ⟨_, ?_, hq⟩
    intro i
    cases i with
    | zero => exact hnow
    | succ i => exact hclock i

theorem filterMap_cons_measured (part : Option (Except Throwable Measurement))
    (parts : List (Option (Except Throwable Measurement))) :
    (part :: parts).filterMap measured = (measured part).toList ++ parts.filterMap measured := by
  rw [List.filterMap_cons]
  cases measured part <;> rfl

section Delivers

variable (hpossible : ∃ now, possible now)
include hpossible

theorem delivers_removeHeader {config : SnmpPollerConfiguration} {measure : Measurement}
    {u : Multiset CollectorMessage} :
    Delivers (Sends possible collect) {.removeHeader config measure} u ↔
      u = {.boundaryMetric measure} := by
  rw [delivers_sends_iff (fun _ => rfl) hpossible]
  refine (exists_and_right.trans (and_iff_right hpossible)).trans ?_
  exact delivers_boundaryMetric

/-- A part that is not stopped. -/
theorem delivers_snmpPollerOut {config : SnmpPollerConfiguration} {varBind : VariableBinding}
    (hstop : handleException varBind = false) {u : Multiset CollectorMessage} :
    Delivers (Sends possible collect) {.snmpPollerOut config varBind} u ↔
      ∃ now, possible now ∧
        u = ((measured (measurePart config now varBind)).toList.map .boundaryMetric :
          List CollectorMessage) := by
  rw [delivers_sends_iff (fun _ => rfl) hpossible]
  refine exists_congr fun now => and_congr_right fun _ => ?_
  have hmeasured : measured (measurePart config now varBind) =
      (snmpToMeasure config now varBind).toOption := by
    rw [measurePart, hstop]
    rfl
  rw [hmeasured]
  cases (snmpToMeasure config now varBind).toOption with
  | none => exact delivers_zero
  | some measure => exact delivers_removeHeader hpossible

/-- What no part is measured for holds at any times. -/
theorem exists_clock_const {p : Prop} :
    (∃ clock : Nat → Event.Date, (∀ i, possible (clock i)) ∧ p) ↔ p := by
  obtain ⟨now, hnow⟩ := hpossible
  constructor
  · intro h
    obtain ⟨_, _, hp⟩ := h
    exact hp
  · intro hp
    exact ⟨fun _ => now, fun _ => hnow, hp⟩

/-- The parts of a response come to the measurements of the parts, each at a
time of its own. -/
theorem delivers_parts {config : SnmpPollerConfiguration} {parts : List VariableBinding}
    {u : Multiset CollectorMessage} :
    Delivers (Sends possible collect)
        ((parts.filter fun part => !handleException part).map (.snmpPollerOut config) :
          List CollectorMessage) u ↔
      ∃ clock : Nat → Event.Date, (∀ i, possible (clock i)) ∧
        u = (((parts.mapIdx fun i part => measurePart config (clock i) part).filterMap
          measured).map .boundaryMetric : List CollectorMessage) := by
  obtain ⟨now₀, hnow₀⟩ := hpossible
  induction parts generalizing u with
  | nil =>
    exact delivers_zero.trans (exists_clock_const ⟨now₀, hnow₀⟩).symm
  | cons part parts ih =>
    rw [exists_clock_iff]
    simp only [List.mapIdx_cons]
    cases hstop : handleException part with
    | true =>
      have hfirst : ∀ now, measured (measurePart config now part) = none := by
        intro now
        rw [measurePart, hstop]
        rfl
      simp only [List.filter_cons, hstop, Bool.not_true, List.filterMap_cons, hfirst]
      exact ih.trans (exists_and_right.trans (and_iff_right ⟨now₀, hnow₀⟩)).symm
    | false =>
      rw [List.filter_cons, hstop]
      rw [if_pos (show (!false) = true from rfl), List.map_cons, ← Multiset.cons_coe,
        ← Multiset.singleton_add, delivers_add_iff]
      simp only [ih, delivers_snmpPollerOut ⟨now₀, hnow₀⟩ hstop]
      constructor
      · intro hdelivers
        obtain ⟨_, _, ⟨now, hnow, rfl⟩, ⟨clock, hclock, rfl⟩, rfl⟩ := hdelivers
        refine ⟨now, hnow, clock, hclock, ?_⟩
        rw [Multiset.coe_add, ← List.map_append, filterMap_cons_measured]
        rfl
      · intro hdelivers
        obtain ⟨now, hnow, clock, hclock, rfl⟩ := hdelivers
        refine ⟨_, _, ⟨now, hnow, rfl⟩, ⟨clock, hclock, rfl⟩, ?_⟩
        rw [Multiset.coe_add, ← List.map_append, filterMap_cons_measured]
        rfl

theorem delivers_response {config : SnmpPollerConfiguration} {body : List VariableBinding}
    {u : Multiset CollectorMessage} :
    Delivers (Sends possible collect) {.response config body} u ↔
      ∃ clock : Nat → Event.Date, (∀ i, possible (clock i)) ∧
        u = ((measurements config clock body).map .boundaryMetric : List CollectorMessage) := by
  rw [delivers_sends_iff (fun _ => rfl) hpossible]
  refine (exists_and_right.trans (and_iff_right hpossible)).trans ?_
  obtain ⟨now, hnow⟩ := hpossible
  rw [pollerParts]
  unfold measurements pollResponse
  cases splitBody body with
  | error e =>
    exact delivers_zero.trans (exists_clock_const ⟨now, hnow⟩).symm
  | ok parts => exact delivers_parts ⟨now, hnow⟩

end Delivers

/-- What a response of a poller comes to, with the times at which its parts are
measured. -/
def ResponseMeasures (possible : Event.Date → Prop)
    (response : SnmpPollerConfiguration × List VariableBinding) (measures : List Measurement) :
    Prop :=
  ∃ clock : Nat → Event.Date, (∀ i, possible (clock i)) ∧
    measures = measurements response.1 clock response.2

/-- Whatever responses of whatever pollers are in flight, and in whatever order
their parts are taken, the collector delivers the measurements of each response
under the configuration of its own poller, and nothing else. -/
theorem collector_eq_pollResponse (hpossible : ∃ now, possible now)
    (responses : List (SnmpPollerConfiguration × List VariableBinding))
    (u : Multiset CollectorMessage) :
    Delivers (Sends possible collect)
        (responses.map fun response => .response response.1 response.2 : List CollectorMessage) u ↔
      ∃ lists, List.Forall₂ (ResponseMeasures possible) responses lists ∧
        u = (lists.flatten.map .boundaryMetric : List CollectorMessage) := by
  induction responses generalizing u with
  | nil =>
    rw [List.map_nil, Multiset.coe_nil, delivers_zero]
    simp
  | cons response responses ih =>
    rw [List.map_cons, ← Multiset.cons_coe, ← Multiset.singleton_add, delivers_add_iff]
    simp only [ih, delivers_response hpossible]
    constructor
    · intro hdelivers
      obtain ⟨_, _, ⟨clock, hclock, rfl⟩, ⟨lists, hlists, rfl⟩, rfl⟩ := hdelivers
      refine ⟨_ :: lists, .cons ⟨clock, hclock, rfl⟩ hlists, ?_⟩
      rw [List.flatten_cons, List.map_append, Multiset.coe_add]
    · intro hdelivers
      obtain ⟨_, hlists, rfl⟩ := hdelivers
      cases hlists with
      | cons hmeasures hlists =>
        obtain ⟨clock, hclock, rfl⟩ := hmeasures
        refine ⟨_, _, ⟨clock, hclock, rfl⟩, ⟨_, hlists, rfl⟩, ?_⟩
        rw [List.flatten_cons, List.map_append, Multiset.coe_add]

/-- The up time of a host, polled twice. -/
theorem collector_eq_pollResponse_sysUpTime :
    Delivers (Sends (fun _ => True) collect)
      (([({ oids := [sysUpTime] }, systemGroup.tail),
          ({ oids := [sysUpTime] }, systemGroup)] :
        List (SnmpPollerConfiguration × List VariableBinding)).map
          fun response => .response response.1 response.2 : List CollectorMessage)
      ([measurements { oids := [sysUpTime] } (fun _ => 0) systemGroup.tail,
        measurements { oids := [sysUpTime] } (fun _ => 0) systemGroup].flatten.map
          .boundaryMetric : List CollectorMessage) :=
  (collector_eq_pollResponse ⟨0, trivial⟩ _ _).mpr
    ⟨_, .cons ⟨_, fun _ => trivial, rfl⟩ (.cons ⟨_, fun _ => trivial, rfl⟩ .nil), rfl⟩

end BoundaryEventSdk.Snmp
