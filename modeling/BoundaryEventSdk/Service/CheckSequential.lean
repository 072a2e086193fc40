import BoundaryEventSdk.Service.CheckNetwork

/-!
# The routes as a sequential program

Read from top to bottom, `service-check.xml` is a program: select the service
checks, make a request of each, and check the tests of the request in turn.
`HandsOver` is that program, for a message at any endpoint.  The network hands
over what the program does, whatever the order in which its messages are taken,
and it always comes to rest.  Each endpoint has one lemma, from the last one up.
-/

namespace BoundaryEventSdk.Service

open BoundaryEventSdk.Java
open BoundaryEventSdk.Messaging
open BoundaryEventSdk.Event (OwnedEvent)

variable {ω : Type} {environment : Environment ω} {compile : JString → Option (JString → Bool)}
  {possible : World ω → Prop}

/-! ## The program -/

/-- What the consumer of a result leaves behind. -/
def handOver : Message ω → List (Message ω)
  | .urlMetrics request test result =>
    (urlToExec result).toOption.toList.map (.execIn request test)
  | m => [m]

section Sequential

variable (environment compile possible)

/-- A test is routed and checked, and its results are handed over. -/
def TestHandsOver (request : ServiceCheckRequest) (test : AnyServiceTest)
    (u : Multiset (Message ω)) : Prop :=
  ∃ world, possible world ∧
    u = ((serviceTestRouter test).toList.flatMap fun type =>
      (checkRoute compile world type request test).flatMap handOver : List (Message ω))

/-- A request is handled test by test. -/
def RequestHandsOver (request : ServiceCheckRequest) (u : Multiset (Message ω)) : Prop :=
  ∃ us, List.Forall₂ (TestHandsOver compile possible request) request.serviceTests us ∧ u = us.sum

/-- A service check is made a request, and the request is handled. -/
def ServiceCheckHandsOver (row : Row ω) (u : Multiset (Message ω)) : Prop :=
  ∃ world, possible world ∧ ∃ us,
    List.Forall₂ (RequestHandsOver compile possible)
      (serviceCheckConfiguration environment world row).toList us ∧ u = us.sum

/-- A poll is handled service check by service check. -/
def PollHandsOver (u : Multiset (Message ω)) : Prop :=
  ∃ world, possible world ∧ ∃ us,
    List.Forall₂ (ServiceCheckHandsOver environment compile possible)
      ((world.select serviceChecksQuery).getD []) us ∧ u = us.sum

/-- What comes of a message when it is handled before any other. -/
def HandsOver : Message ω → Multiset (Message ω) → Prop
  | .serviceDbIn, u => PollHandsOver environment compile possible u
  | .serviceTests row, u => ServiceCheckHandsOver environment compile possible row u
  | .serviceCheckRequestIn request, u => RequestHandsOver compile possible request u
  | .serviceChecksRouter request test, u => TestHandsOver compile possible request test u
  | .check type request test, u => ∃ world, possible world ∧
    u = ((checkRoute compile world type request test).flatMap handOver : List (Message ω))
  | m, u => u = (handOver m : List (Message ω))

end Sequential

/-! ## What each endpoint delivers -/

theorem delivers_boundaryEvent {request : ServiceCheckRequest} {test : AnyServiceTest}
    {event : OwnedEvent} {u : Multiset (Message ω)} :
    Delivers (Sends possible (handle environment compile)) {.boundaryEvent request test event} u ↔
      u = {.boundaryEvent request test event} :=
  delivers_final (final_sends fun _ => rfl)

theorem delivers_execIn {request : ServiceCheckRequest} {test : AnyServiceTest}
    {args : List JString} {u : Multiset (Message ω)} :
    Delivers (Sends possible (handle environment compile)) {.execIn request test args} u ↔
      u = {.execIn request test args} :=
  delivers_final (final_sends fun _ => rfl)

section Delivers

variable (hpossible : ∃ world, possible world)
include hpossible

theorem delivers_urlMetrics {request : ServiceCheckRequest} {test : AnyServiceTest}
    {result : UrlResult} {u : Multiset (Message ω)} :
    Delivers (Sends possible (handle environment compile)) {.urlMetrics request test result} u ↔
      u = (handOver (.urlMetrics request test result) : List (Message ω)) := by
  rw [delivers_sends_iff (fun _ => rfl) hpossible]
  have hsent : Delivers (Sends possible (handle environment compile))
      ((urlToExec result).toOption.toList.map (.execIn request test) : List (Message ω)) u ↔
        u = (handOver (.urlMetrics request test result) : List (Message ω)) := by
    rw [handOver]
    cases (urlToExec result).toOption with
    | none => exact delivers_zero
    | some args => exact delivers_execIn
  simp only [hsent]
  exact exists_and_right.trans (and_iff_right hpossible)

theorem delivers_check {type : ServiceType} {request : ServiceCheckRequest} {test : AnyServiceTest}
    {u : Multiset (Message ω)} :
    Delivers (Sends possible (handle environment compile)) {.check type request test} u ↔
      ∃ world, possible world ∧
        u = ((checkRoute compile world type request test).flatMap handOver : List (Message ω)) := by
  rw [delivers_sends_iff (fun _ => rfl) hpossible]
  refine exists_congr fun world => and_congr_right fun _ => ?_
  refine delivers_coe_of_forall fun m hm v => ?_
  obtain ⟨check, event, _, _, hsent⟩ := mem_checkRoute hm
  rcases hsent with rfl | ⟨result, _, rfl⟩
  · exact delivers_boundaryEvent
  · exact delivers_urlMetrics hpossible

theorem delivers_serviceChecksRouter {request : ServiceCheckRequest} {test : AnyServiceTest}
    {u : Multiset (Message ω)} :
    Delivers (Sends possible (handle environment compile)) {.serviceChecksRouter request test} u ↔
      TestHandsOver compile possible request test u := by
  rw [delivers_sends_iff (fun _ => rfl) hpossible, TestHandsOver]
  cases serviceTestRouter test with
  | none => exact exists_congr fun world => and_congr_right fun _ => delivers_zero
  | some type =>
    simp only [Option.toList_some, List.flatMap_singleton]
    refine (exists_and_right.trans (and_iff_right hpossible)).trans ?_
    exact delivers_check hpossible

theorem delivers_serviceCheckRequestIn {request : ServiceCheckRequest}
    {u : Multiset (Message ω)} :
    Delivers (Sends possible (handle environment compile)) {.serviceCheckRequestIn request} u ↔
      RequestHandsOver compile possible request u := by
  rw [delivers_sends_iff (fun _ => rfl) hpossible, RequestHandsOver]
  refine (exists_and_right.trans (and_iff_right hpossible)).trans ?_
  rw [delivers_coe_iff]
  simp only [List.forall₂_map_left_iff, delivers_serviceChecksRouter hpossible]

theorem delivers_serviceTests {row : Row ω} {u : Multiset (Message ω)} :
    Delivers (Sends possible (handle environment compile)) {.serviceTests row} u ↔
      ServiceCheckHandsOver environment compile possible row u := by
  rw [delivers_sends_iff (fun _ => rfl) hpossible, ServiceCheckHandsOver]
  refine exists_congr fun world => and_congr_right fun _ => ?_
  rw [delivers_coe_iff]
  simp only [List.forall₂_map_left_iff, delivers_serviceCheckRequestIn hpossible]

theorem delivers_serviceDbIn {u : Multiset (Message ω)} :
    Delivers (Sends possible (handle environment compile)) {.serviceDbIn} u ↔
      PollHandsOver environment compile possible u := by
  rw [delivers_sends_iff (fun _ => rfl) hpossible, PollHandsOver]
  refine exists_congr fun world => and_congr_right fun _ => ?_
  rw [delivers_coe_iff]
  simp only [List.forall₂_map_left_iff, delivers_serviceTests hpossible]

theorem delivers_iff_handsOver (m : Message ω) (u : Multiset (Message ω)) :
    Delivers (Sends possible (handle environment compile)) {m} u ↔
      HandsOver environment compile possible m u := by
  cases m with
  | serviceDbIn => exact delivers_serviceDbIn hpossible
  | serviceTests => exact delivers_serviceTests hpossible
  | serviceCheckRequestIn => exact delivers_serviceCheckRequestIn hpossible
  | serviceChecksRouter => exact delivers_serviceChecksRouter hpossible
  | check => exact delivers_check hpossible
  | urlMetrics => exact delivers_urlMetrics hpossible
  | boundaryEvent => exact delivers_boundaryEvent
  | execIn => exact delivers_execIn

end Delivers

/-- The network always comes to rest.  Whatever messages it starts with, and in
whatever order they are taken, it then has handed over what the messages come to
when they are handled one after the other. -/
theorem network_eq_sequential (hpossible : ∃ world, possible world) :
    (WellFounded fun s' s : Multiset (Message ω) =>
      Step (Sends possible (handle environment compile)) s s') ∧
    ∀ (messages : List (Message ω)) (u : Multiset (Message ω)),
      Delivers (Sends possible (handle environment compile)) messages u ↔
        ∃ us, List.Forall₂ (HandsOver environment compile possible) messages us ∧ u = us.sum := by
  constructor
  · refine wellFounded_step Message.rank ?_
    intro m out hout m' hm'
    obtain ⟨world, outs, _, houts, rfl⟩ := hout
    exact rank_lt_of_mem houts (Multiset.mem_coe.mp hm')
  · intro messages u
    rw [delivers_coe_iff]
    simp only [delivers_iff_handsOver hpossible]

/-- What a poll of the database with the ping hands over. -/
theorem pollHandsOver_pingWorld :
    PollHandsOver .ofStrings (fun _ => none) (· = pingWorld)
      {.boundaryEvent pingRequest pingTest pingEvent} := by
  have htest : TestHandsOver (fun _ => none) (· = pingWorld) pingRequest pingTest
      {.boundaryEvent pingRequest pingTest pingEvent} := ⟨pingWorld, rfl, rfl⟩
  have hrequest : RequestHandsOver (fun _ => none) (· = pingWorld) pingRequest
      {.boundaryEvent pingRequest pingTest pingEvent} := ⟨[_], .cons htest .nil, rfl⟩
  have hcheck : ServiceCheckHandsOver .ofStrings (fun _ => none) (· = pingWorld) pingRow
      {.boundaryEvent pingRequest pingTest pingEvent} :=
    ⟨pingWorld, rfl, [_], .cons hrequest .nil, rfl⟩
  exact ⟨pingWorld, rfl, [_], .cons hcheck .nil, rfl⟩

/-- Two polls at a time hand over what two polls in turn do. -/
theorem network_eq_sequential_pingWorld :
    Delivers (Sends (· = pingWorld) (handle .ofStrings fun _ => none))
      ([.serviceDbIn, .serviceDbIn] : List (Message StringRef))
      {.boundaryEvent pingRequest pingTest pingEvent,
        .boundaryEvent pingRequest pingTest pingEvent} :=
  ((network_eq_sequential (⟨pingWorld, rfl⟩ : ∃ world, world = pingWorld)).2 _ _).mpr
    ⟨[_, _], .cons pollHandsOver_pingWorld (.cons pollHandsOver_pingWorld .nil), rfl⟩

end BoundaryEventSdk.Service
