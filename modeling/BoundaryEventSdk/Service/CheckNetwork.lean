import BoundaryEventSdk.Service.CheckRoutes

/-!
# The service check network

`service-check.xml` as a network: any number of polls run at a time, and their
messages are taken in any order.

* `Message.Sound` is what holds of every message in flight.  The router sends a
  test to the queue of its class, because the builder of a test is selected by
  the name that the router compares, and an event reports the incident of the
  test in its header.
* `Message.load` is the tests that a message stands for.  No route hands a test
  over twice, and if the components answer no route drops one.
-/

namespace BoundaryEventSdk.Service

open BoundaryEventSdk.Java
open BoundaryEventSdk.Messaging
open BoundaryEventSdk.Event (OwnedEvent)

variable {ω : Type} {environment : Environment ω} {compile : JString → Option (JString → Bool)}
  {urlHost : UrlConfiguration → Option JString} {possible : World ω → Prop}

/-! ## What holds of a message -/

/-- Each test has the type name of its class. -/
def ServiceCheckRequest.WellTyped (request : ServiceCheckRequest) : Prop :=
  ∀ test ∈ request.serviceTests, test.serviceTestType = some test.type.name

/-- The event reports the incident of the test. -/
def ReportsTest (urlHost : UrlConfiguration → Option JString) (test : AnyServiceTest)
    (event : OwnedEvent) : Prop :=
  ∀ incident : Incident, test.serviceName = some incident.service →
    test.name = some incident.test → test.host urlHost = some incident.host →
      Reports event incident

/-- The component reports the host that it was given. -/
structure World.ReportsHost (urlHost : UrlConfiguration → Option JString) (world : World ω) :
    Prop where
  ping : ∀ configuration result, world.ping configuration = some result →
    result.host = configuration.host
  port : ∀ configuration result, world.port configuration = some result →
    result.host = configuration.host
  url : ∀ configuration result, world.url configuration = some result →
    result.host = urlHost configuration

/-- What holds of a message in flight. -/
def Message.Sound (urlHost : UrlConfiguration → Option JString) : Message ω → Prop
  | .serviceDbIn => True
  | .serviceTests _ => True
  | .serviceCheckRequestIn request => request.WellTyped
  | .serviceChecksRouter request test => request.WellTyped ∧ test ∈ request.serviceTests
  | .check type request test =>
    request.WellTyped ∧ test ∈ request.serviceTests ∧ type = test.type
  | .boundaryEvent request test event =>
    request.WellTyped ∧ test ∈ request.serviceTests ∧ ReportsTest urlHost test event
  | .urlMetrics request test result =>
    request.WellTyped ∧ test ∈ request.serviceTests ∧ test.type = .url ∧
      result.host = test.host urlHost
  | .execIn request test args =>
    request.WellTyped ∧ test ∈ request.serviceTests ∧ test.type = .url ∧
      ∃ host time, test.host urlHost = some host ∧
        args = [host, getMetricName host, decimal time]

theorem ServiceType.ofName_eq_some_iff {text : JString} {type : ServiceType} :
    ofName text = some type ↔ text = type.name := by
  constructor
  · intro h
    unfold ofName at h
    split_ifs at h with hping hport hssh hurl
    · cases h
      exact hping
    · cases h
      exact hport
    · cases h
      exact hssh
    · cases h
      exact hurl
  · intro h
    subst h
    cases type <;> decide

/-- The names that the database knows are those that the router compares. -/
theorem serviceTestRouter_eq {test : AnyServiceTest}
    (h : test.serviceTestType = some test.type.name) : serviceTestRouter test = some test.type := by
  rw [serviceTestRouter, h]
  exact ServiceType.ofName_eq_some_iff.mpr rfl

theorem Describes.serviceTestType_eq {requestId : JString} {row : Row ω} {test : AnyServiceTest}
    (h : Describes environment requestId row test) :
    test.serviceTestType = some test.type.name := by
  obtain ⟨text, htext, htest⟩ := h.serviceTestType
  have htype := h.type
  rw [rowType, htext] at htype
  have hname : ServiceType.ofName text = some test.type := Except.ok.inj htype
  rw [htest, ServiceType.ofName_eq_some_iff.mp hname]

/-- A request that comes from the database is well typed. -/
theorem serviceCheckConfiguration_wellTyped {world : World ω} {row : Row ω}
    {request : ServiceCheckRequest}
    (h : serviceCheckConfiguration environment world row = some request) : request.WellTyped := by
  obtain ⟨sql, _, h⟩ := Option.bind_eq_some_iff.mp h
  obtain ⟨list, _, h⟩ := Option.bind_eq_some_iff.mp h
  rw [ServiceChecksDatabase.process] at h
  cases hloop : list.foldlM (ServiceChecksDatabase.addRow environment)
      { requestId := world.requestId } with
  | error e =>
    rw [hloop] at h
    cases h
  | ok made =>
    rw [hloop] at h
    cases h
    obtain ⟨_, tests, htests, hdescribes⟩ := foldlM_addRow_ok hloop
    have htyped := hdescribes.flip.imp fun test row hrow =>
      And.intro hrow.serviceTestType_eq hrow
    rw [List.nil_append] at htests
    rw [ServiceCheckRequest.WellTyped, htests]
    exact ((List.forall₂_and_left _ _).mp htyped).1

/-! ## What a consumer hands on -/

/-- The check that a component answers is a check of the test, in the queue of
its class. -/
theorem World.check_eq_some {world : World ω} {type : ServiceType} {test : AnyServiceTest}
    {check : ServiceCheck} (h : world.check type test = some check) :
    type = test.type ∧ check.serviceTest = test := by
  cases type <;> cases test <;> first
    | cases h
    | (obtain ⟨result, _, rfl⟩ := Option.map_eq_some_iff.mp h
       exact ⟨rfl, rfl⟩)

/-- The event of a check reports the incident of its test. -/
theorem World.ReportsHost.reportsTest {world : World ω} (hworld : world.ReportsHost urlHost)
    {type : ServiceType} {test : AnyServiceTest} {check : ServiceCheck} {event : OwnedEvent}
    (hcheck : world.check type test = some check)
    (hevent : check.toEvent compile world.now = .ok event) : ReportsTest urlHost test event := by
  intro incident hservice hname hhost
  obtain ⟨rfl, rfl⟩ := World.check_eq_some hcheck
  cases check with
  | ping serviceTest result =>
    cases hevent
    obtain ⟨_, hresult, hcheck⟩ := Option.map_eq_some_iff.mp hcheck
    cases hcheck
    exact pingStatusToEvent_reports hservice hname ((hworld.ping _ _ hresult).trans hhost)
  | port serviceTest result =>
    cases hevent
    obtain ⟨_, hresult, hcheck⟩ := Option.map_eq_some_iff.mp hcheck
    cases hcheck
    exact portInfoToEvent_reports hservice hname ((hworld.port _ _ hresult).trans hhost)
  | ssh serviceTest result => exact sshResultToEvent_reports hservice hname hhost hevent
  | url serviceTest result =>
    cases hevent
    obtain ⟨_, hresult, hcheck⟩ := Option.map_eq_some_iff.mp hcheck
    cases hcheck
    exact urlResultToEvent_reports hservice hname ((hworld.url _ _ hresult).trans hhost)

/-- What a check sends: an event, and the result of a URL check. -/
theorem mem_checkRoute {world : World ω} {type : ServiceType} {request : ServiceCheckRequest}
    {test : AnyServiceTest} {m : Message ω} (h : m ∈ checkRoute compile world type request test) :
    ∃ check event, world.check type test = some check ∧
      check.toEvent compile world.now = .ok event ∧
        (m = .boundaryEvent request test event ∨
          ∃ result, urlResult check = some result ∧ m = .urlMetrics request test result) := by
  rw [checkRoute] at h
  cases hcheck : world.check type test with
  | none =>
    rw [hcheck] at h
    cases h
  | some check =>
    rw [hcheck] at h
    cases hevent : check.toEvent compile world.now with
    | error e =>
      simp only [hevent] at h
      cases h
    | ok event =>
      simp only [hevent] at h
      refine ⟨check, event, rfl, hevent, ?_⟩
      rcases List.mem_cons.mp h with rfl | hurl
      · exact Or.inl rfl
      · obtain ⟨result, hresult, rfl⟩ := List.mem_map.mp hurl
        exact Or.inr ⟨result, Option.mem_toList.mp hresult, rfl⟩

theorem urlResult_eq_some {check : ServiceCheck} {result : UrlResult}
    (h : urlResult check = some result) : ∃ serviceTest, check = .url serviceTest result := by
  cases check with
  | url serviceTest result' =>
    cases h
    exact ⟨serviceTest, rfl⟩
  | ping | port | ssh => cases h

/-- A consumer of a sound message sends sound messages. -/
theorem Message.Sound.handle {world : World ω} (hworld : world.ReportsHost urlHost)
    {m m' : Message ω} {outs : List (Message ω)} (hm : m.Sound urlHost)
    (houts : Service.handle environment compile world m = some outs) (hm' : m' ∈ outs) :
    m'.Sound urlHost := by
  cases m with
  | serviceDbIn =>
    cases houts
    obtain ⟨row, _, rfl⟩ := List.mem_map.mp hm'
    trivial
  | serviceTests row =>
    cases houts
    obtain ⟨request, hrequest, rfl⟩ := List.mem_map.mp hm'
    exact serviceCheckConfiguration_wellTyped (Option.mem_toList.mp hrequest)
  | serviceCheckRequestIn request =>
    cases houts
    obtain ⟨test, htest, rfl⟩ := List.mem_map.mp hm'
    exact ⟨hm, htest⟩
  | serviceChecksRouter request test =>
    cases houts
    obtain ⟨htyped, htest⟩ := hm
    rw [serviceTestRouter_eq (htyped test htest)] at hm'
    obtain rfl := List.mem_singleton.mp hm'
    exact ⟨htyped, htest, rfl⟩
  | check type request test =>
    cases houts
    obtain ⟨htyped, htest, _⟩ := hm
    obtain ⟨check, event, hcheck, hevent, hsent⟩ := mem_checkRoute hm'
    rcases hsent with rfl | ⟨result, hresult, rfl⟩
    · exact ⟨htyped, htest, hworld.reportsTest hcheck hevent⟩
    · obtain ⟨serviceTest, rfl⟩ := urlResult_eq_some hresult
      obtain ⟨rfl, rfl⟩ := World.check_eq_some hcheck
      obtain ⟨_, hanswer, hmap⟩ := Option.map_eq_some_iff.mp hcheck
      cases hmap
      exact ⟨htyped, htest, rfl, hworld.url _ _ hanswer⟩
  | urlMetrics request test result =>
    cases houts
    obtain ⟨htyped, htest, htype, hhost⟩ := hm
    obtain ⟨args, hargs, rfl⟩ := List.mem_map.mp hm'
    refine ⟨htyped, htest, htype, ?_⟩
    rw [urlToExec] at hargs
    cases hresult : result.host with
    | none =>
      rw [hresult] at hargs
      cases Option.mem_toList.mp hargs
    | some host =>
      rw [hresult] at hargs
      cases Option.mem_toList.mp hargs
      exact ⟨host, result.responseTime, hhost ▸ hresult, rfl⟩
  | boundaryEvent => cases houts
  | execIn => cases houts

/-- Every message in flight is sound, in every state of every run. -/
theorem sound_of_run (hworld : ∀ world, possible world → world.ReportsHost urlHost)
    {s u : Multiset (Message ω)} (hs : ∀ m ∈ s, m.Sound urlHost)
    (hrun : Run (Sends possible (handle environment compile)) s u) : ∀ m ∈ u, m.Sound urlHost := by
  refine run_forall hs ?_ hrun
  intro m out hm hout m' hm'
  obtain ⟨world, outs, hpossible, houts, rfl⟩ := hout
  exact hm.handle (hworld world hpossible) houts (Multiset.mem_coe.mp hm')

/-- However the messages of any number of polls are interleaved, the router finds
a queue for every test, each queue holds tests of its own class only, and every
event reports the incident of a test of its request. -/
theorem polls_route_safely (urlHost : UrlConfiguration → Option JString)
    (hworld : ∀ world, possible world → world.ReportsHost urlHost) (polls : Nat)
    (u : Multiset (Message ω))
    (hrun : Run (Sends possible (handle environment compile))
      (Multiset.replicate polls .serviceDbIn) u) :
    (∀ request test, .serviceChecksRouter request test ∈ u →
      serviceTestRouter test = some test.type) ∧
    (∀ type request test, .check type request test ∈ u → type = test.type) ∧
    (∀ request test event, .boundaryEvent request test event ∈ u →
      test ∈ request.serviceTests ∧ ReportsTest urlHost test event) ∧
    ∀ request test args, .execIn request test args ∈ u →
      ∃ host time, test.host urlHost = some host ∧
        args = [host, getMetricName host, decimal time] := by
  have hpolls : ∀ m ∈ Multiset.replicate polls (.serviceDbIn : Message ω), m.Sound urlHost := by
    intro m hm
    rw [Multiset.eq_of_mem_replicate hm]
    trivial
  have hsound := sound_of_run hworld hpolls hrun
  refine ⟨?_, ?_, ?_, ?_⟩
  · intro request test hmem
    obtain ⟨htyped, htest⟩ := hsound _ hmem
    exact serviceTestRouter_eq (htyped test htest)
  · intro type request test hmem
    exact (hsound _ hmem).2.2
  · intro request test event hmem
    exact (hsound _ hmem).2
  · intro request test args hmem
    exact (hsound _ hmem).2.2.2

/-- The one row of a database with a single service check, a ping of the host
`a`. -/
def pingRow : Row StringRef :=
  let row := LinkedHashMap.empty.put (utf16 "serviceCheckId") (some ⟨1, utf16 "7"⟩)
  let row := row.put (utf16 "serviceTypeName") (some ⟨2, utf16 "ping"⟩)
  let row := row.put (utf16 "serviceName") (some ⟨3, utf16 "SDN Director"⟩)
  let row := row.put (utf16 "serviceTestName") (some ⟨4, utf16 "host status"⟩)
  let row := row.put (utf16 "pingHost") (some ⟨5, utf16 "a"⟩)
  row.put (utf16 "pingTimeout") (some ⟨6, utf16 "10"⟩)

/-- A world with that database, in which every component answers. -/
def pingWorld : World StringRef where
  select _ := some [pingRow]
  requestId := utf16 "id"
  now := 0
  ping configuration := some ⟨configuration.host, none, none, none, none, none, none⟩
  port configuration := some ⟨configuration.host, configuration.port, none, 0, none, none, none⟩
  ssh _ := some ⟨some []⟩
  url _ := some ⟨none, 0, 0, none, none⟩

/-- The test that the row becomes. -/
def pingTest : AnyServiceTest :=
  .ping { hostStatus (utf16 "a") with requestId := some (utf16 "id") }

/-- The request that the row becomes. -/
def pingRequest : ServiceCheckRequest :=
  { requestId := utf16 "id", serviceTests := [pingTest] }

/-- The event of the test. -/
def pingEvent : OwnedEvent :=
  pingStatusToEvent { hostStatus (utf16 "a") with requestId := some (utf16 "id") }
    (pingResult (utf16 "a") none)

theorem pingWorld_reportsHost : pingWorld.ReportsHost fun _ => none where
  ping configuration result h := by
    cases h
    rfl
  port configuration result h := by
    cases h
    rfl
  url configuration result h := by
    cases h
    rfl

/-- A row for the port 22 of the host `b`. -/
def portRow : Row StringRef :=
  let row := LinkedHashMap.empty.put (utf16 "serviceTypeName") (some ⟨7, utf16 "port"⟩)
  let row := row.put (utf16 "serviceName") (some ⟨3, utf16 "SDN Director"⟩)
  let row := row.put (utf16 "serviceTestName") (some ⟨8, utf16 "ssh port"⟩)
  let row := row.put (utf16 "portHost") (some ⟨9, utf16 "b"⟩)
  let row := row.put (utf16 "portPort") (some ⟨10, utf16 "22"⟩)
  row.put (utf16 "portTimeout") (some ⟨11, utf16 "5"⟩)

/-- A world whose service check has a ping and a port. -/
def mixedWorld : World StringRef :=
  { pingWorld with
    select := fun sql =>
      if (utf16 "SELECT *").isPrefixOf sql then some [pingRow, portRow] else some [pingRow] }

def sshPort : ServiceTest PortConfiguration PortServiceModel where
  name := some (utf16 "ssh port")
  serviceTestType := some (utf16 "port")
  serviceName := some (utf16 "SDN Director")
  requestId := some (utf16 "id")
  configuration := ⟨some (utf16 "b"), 22, 5⟩
  model := {}

def portTest : AnyServiceTest :=
  .port sshPort

def mixedRequest : ServiceCheckRequest :=
  { requestId := utf16 "id", serviceTests := [pingTest, portTest] }

def portEvent : OwnedEvent :=
  portInfoToEvent sshPort ⟨some (utf16 "b"), 22, none, 0, none, none, none⟩

/-- A step of a lone message in a world. -/
theorem step_of_handle {world : World StringRef} {m : Message StringRef}
    (outs : List (Message StringRef))
    (h : handle .ofStrings (fun _ => none) world m = some outs) :
    Step (Sends (· = world) (handle .ofStrings fun _ => none)) {m} outs :=
  step_singleton_iff.mpr ⟨world, outs, rfl, h, rfl⟩

/-- There is one service check, -/
theorem select_mixedWorld : mixedWorld.select serviceChecksQuery = some [pingRow] := by
  unfold mixedWorld
  dsimp only
  rw [if_neg (by decide +kernel)]

/-- and its rows make the request. -/
theorem serviceCheckConfiguration_mixedWorld :
    serviceCheckConfiguration .ofStrings mixedWorld pingRow = some mixedRequest := by
  decide +kernel

/-- The tests of the request wait before the router. -/
theorem run_mixedRouters :
    Run (Sends (· = mixedWorld) (handle .ofStrings fun _ => none))
      {.serviceCheckRequestIn mixedRequest}
      ({.serviceChecksRouter mixedRequest pingTest} +
        {.serviceChecksRouter mixedRequest portTest}) :=
  .single (step_of_handle [.serviceChecksRouter mixedRequest pingTest,
    .serviceChecksRouter mixedRequest portTest] rfl)

/-- One test goes on to its event, and the other one to its queue. -/
theorem run_mixedRequest :
    Run (Sends (· = mixedWorld) (handle .ofStrings fun _ => none))
      {.serviceCheckRequestIn mixedRequest}
      ({.boundaryEvent mixedRequest pingTest pingEvent} +
        {.check .port mixedRequest portTest}) := by
  have hping : Run (Sends (· = mixedWorld) (handle .ofStrings fun _ => none))
      {.serviceChecksRouter mixedRequest pingTest}
      {.boundaryEvent mixedRequest pingTest pingEvent} :=
    .head (step_of_handle [.check .ping mixedRequest pingTest] rfl)
      (.single (step_of_handle [.boundaryEvent mixedRequest pingTest pingEvent] rfl))
  have hport : Run (Sends (· = mixedWorld) (handle .ofStrings fun _ => none))
      {.serviceChecksRouter mixedRequest portTest} {.check .port mixedRequest portTest} :=
    .single (step_of_handle [.check .port mixedRequest portTest] rfl)
  exact run_mixedRouters.trans (hping.add hport)

/-- Two polls in that world: the tests of the first one wait before the router, next to an
event and a queued test of the second one. -/
theorem polls_route_safely_mixedWorld :
    serviceTestRouter pingTest = some .ping ∧ serviceTestRouter portTest = some .port ∧
      ServiceType.port = portTest.type ∧ pingTest ∈ mixedRequest.serviceTests ∧
      ReportsTest (fun _ => none) pingTest pingEvent := by
  have hrequest : Run (Sends (· = mixedWorld) (handle .ofStrings fun _ => none))
      {.serviceDbIn} {.serviceCheckRequestIn mixedRequest} :=
    .head (step_of_handle [.serviceTests pingRow] (by rw [handle, select_mixedWorld]; rfl))
      (.single (step_of_handle [.serviceCheckRequestIn mixedRequest]
        (by rw [handle, serviceCheckConfiguration_mixedWorld]; rfl)))
  have hpolls := Run.add (hrequest.trans run_mixedRouters) (hrequest.trans run_mixedRequest)
  have htwo : ({.serviceDbIn} + {.serviceDbIn} : Multiset (Message StringRef)) =
      Multiset.replicate 2 .serviceDbIn := rfl
  rw [htwo] at hpolls
  have hworld : ∀ world, world = mixedWorld → world.ReportsHost fun _ => none := by
    rintro _ rfl
    exact ⟨pingWorld_reportsHost.ping, pingWorld_reportsHost.port, pingWorld_reportsHost.url⟩
  obtain ⟨hrouter, hqueue, hevent, _⟩ :=
    polls_route_safely (fun _ => none) hworld 2 _ hpolls
  refine ⟨hrouter mixedRequest pingTest ?_, hrouter mixedRequest portTest ?_,
    hqueue .port mixedRequest portTest ?_, hevent mixedRequest pingTest pingEvent ?_⟩
  · exact Multiset.mem_add.mpr (.inl (Multiset.mem_add.mpr (.inl (Multiset.mem_singleton_self _))))
  · exact Multiset.mem_add.mpr (.inl (Multiset.mem_add.mpr (.inr (Multiset.mem_singleton_self _))))
  · exact Multiset.mem_add.mpr (.inr (Multiset.mem_add.mpr (.inr (Multiset.mem_singleton_self _))))
  · exact Multiset.mem_add.mpr (.inr (Multiset.mem_add.mpr (.inl (Multiset.mem_singleton_self _))))

/-! ## The tests in flight -/

/-- The tests that a message stands for, each with its request. -/
def Message.load : Message ω → Multiset (ServiceCheckRequest × AnyServiceTest)
  | .serviceCheckRequestIn request => (request.serviceTests.map (request, ·) : List _)
  | .serviceChecksRouter request test => {(request, test)}
  | .check _ request test => {(request, test)}
  | .boundaryEvent request test _ => {(request, test)}
  | _ => 0

/-- The test of an event. -/
def Message.reported : Message ω → Option (ServiceCheckRequest × AnyServiceTest)
  | .boundaryEvent request test _ => some (request, test)
  | _ => none

/-- The tests of a list of requests. -/
def requested (requests : List ServiceCheckRequest) :
    Multiset (ServiceCheckRequest × AnyServiceTest) :=
  (requests.flatMap fun request => request.serviceTests.map (request, ·) : List _)

theorem bind_load_requests (requests : List ServiceCheckRequest) :
    ((requests.map .serviceCheckRequestIn : List (Message ω)) : Multiset (Message ω)).bind
      Message.load = requested requests := by
  rw [requested, ← Multiset.coe_bind, ← Multiset.map_coe, Multiset.bind_map]
  rfl

/-- A check that makes an event stands for its test as before. -/
theorem bind_load_checkRoute {world : World ω} {type : ServiceType}
    {request : ServiceCheckRequest} {test : AnyServiceTest} {check : ServiceCheck}
    {event : OwnedEvent} (hcheck : world.check type test = some check)
    (hevent : check.toEvent compile world.now = .ok event) :
    ((checkRoute compile world type request test : List (Message ω)) :
      Multiset (Message ω)).bind Message.load = {(request, test)} := by
  rw [checkRoute, hcheck]
  simp only [hevent]
  cases urlResult check with
  | none => exact Multiset.singleton_bind _ _
  | some result =>
    show (Message.boundaryEvent request test event ::ₘ {.urlMetrics request test result}).bind _ = _
    rw [Multiset.cons_bind, Multiset.singleton_bind]
    exact add_zero _

theorem bind_load_checkRoute_le (world : World ω) (type : ServiceType)
    (request : ServiceCheckRequest) (test : AnyServiceTest) :
    ((checkRoute compile world type request test : List (Message ω)) :
      Multiset (Message ω)).bind Message.load ≤ {(request, test)} := by
  cases hcheck : world.check type test with
  | none =>
    rw [checkRoute, hcheck]
    exact Multiset.zero_le _
  | some check =>
    cases hevent : check.toEvent compile world.now with
    | error e =>
      rw [checkRoute, hcheck]
      simp only [hevent]
      exact Multiset.zero_le _
    | ok event => exact le_of_eq (bind_load_checkRoute hcheck hevent)

theorem bind_load_routers (request : ServiceCheckRequest) :
    ((request.serviceTests.map (.serviceChecksRouter request) : List (Message ω)) :
      Multiset (Message ω)).bind Message.load =
        (request.serviceTests.map (request, ·) : List _) := by
  rw [← Multiset.map_coe, Multiset.bind_map, ← Multiset.map_coe]
  exact Multiset.bind_singleton _ _

/-- Past the database, a consumer sends no test that it was not given. -/
theorem bind_load_le {world : World ω} {m : Message ω} {outs : List (Message ω)}
    (hm : m.rank ≤ 4) (houts : handle environment compile world m = some outs) :
    (outs : Multiset (Message ω)).bind Message.load ≤ m.load := by
  cases m with
  | serviceDbIn => simp [Message.rank] at hm
  | serviceTests => simp [Message.rank] at hm
  | serviceCheckRequestIn request =>
    cases houts
    exact le_of_eq (bind_load_routers request)
  | serviceChecksRouter request test =>
    cases houts
    cases serviceTestRouter test with
    | none => exact Multiset.zero_le _
    | some type => exact le_of_eq (Multiset.singleton_bind _ _)
  | check type request test =>
    cases houts
    exact bind_load_checkRoute_le world type request test
  | urlMetrics request test result =>
    cases houts
    cases (urlToExec result).toOption with
    | none => exact Multiset.zero_le _
    | some args => exact le_of_eq (Multiset.singleton_bind _ _)
  | boundaryEvent => cases houts
  | execIn => cases houts

/-- Messages go down the routes only. -/
theorem rank_lt_of_mem {world : World ω} {m m' : Message ω} {outs : List (Message ω)}
    (houts : handle environment compile world m = some outs) (hm' : m' ∈ outs) :
    m'.rank < m.rank := by
  cases m with
  | check type request test =>
    cases houts
    obtain ⟨_, _, _, _, hsent⟩ := mem_checkRoute hm'
    rcases hsent with rfl | ⟨_, _, rfl⟩ <;> simp [Message.rank]
  | boundaryEvent => cases houts
  | execIn => cases houts
  | serviceDbIn | serviceTests | serviceCheckRequestIn | serviceChecksRouter | urlMetrics =>
    cases houts
    obtain ⟨_, _, rfl⟩ := List.mem_map.mp hm'
    simp [Message.rank]

/-! ## When no test gets lost -/

/-- The test is in the right queue, and its pattern can be compiled. -/
def AnyServiceTest.Ready (compile : JString → Option (JString → Bool)) (test : AnyServiceTest) :
    Prop :=
  test.serviceTestType = some test.type.name ∧ test.PatternCompiles compile

/-- The components answer, and an SSH result has an output. -/
structure World.Answers (world : World ω) : Prop where
  ping : ∀ configuration, (world.ping configuration).isSome = true
  port : ∀ configuration, (world.port configuration).isSome = true
  ssh : ∀ configuration, ∃ result, world.ssh configuration = some result ∧
    result.output.isSome = true
  url : ∀ configuration, (world.url configuration).isSome = true

/-- The tests of the message are ready, each in the queue of its class. -/
def Message.Ready (compile : JString → Option (JString → Bool)) : Message ω → Prop
  | .serviceDbIn => False
  | .serviceTests _ => False
  | .serviceCheckRequestIn request => ∀ test ∈ request.serviceTests, test.Ready compile
  | .serviceChecksRouter _ test => test.Ready compile
  | .check type _ test => test.Ready compile ∧ type = test.type
  | .boundaryEvent _ _ _ => True
  | .urlMetrics _ _ _ => True
  | .execIn _ _ _ => True

theorem Message.Ready.handle {world : World ω} {m m' : Message ω} {outs : List (Message ω)}
    (hm : m.Ready compile) (houts : Service.handle environment compile world m = some outs)
    (hm' : m' ∈ outs) : m'.Ready compile := by
  cases m with
  | serviceDbIn => exact hm.elim
  | serviceTests => exact hm.elim
  | serviceCheckRequestIn request =>
    cases houts
    obtain ⟨test, htest, rfl⟩ := List.mem_map.mp hm'
    exact hm test htest
  | serviceChecksRouter request test =>
    cases houts
    rw [serviceTestRouter_eq hm.1] at hm'
    obtain rfl := List.mem_singleton.mp hm'
    exact ⟨hm, rfl⟩
  | check type request test =>
    cases houts
    obtain ⟨_, _, _, _, hsent⟩ := mem_checkRoute hm'
    rcases hsent with rfl | ⟨_, _, rfl⟩ <;> trivial
  | urlMetrics request test result =>
    cases houts
    obtain ⟨_, _, rfl⟩ := List.mem_map.mp hm'
    trivial
  | boundaryEvent => cases houts
  | execIn => cases houts

/-- If the components answer, a test that is ready gets its event. -/
theorem World.Answers.exists_event {world : World ω} (hworld : world.Answers)
    {test : AnyServiceTest} (htest : test.PatternCompiles compile) :
    ∃ check event, world.check test.type test = some check ∧
      check.toEvent compile world.now = .ok event := by
  cases test with
  | ping serviceTest =>
    obtain ⟨result, hresult⟩ := Option.isSome_iff_exists.mp (hworld.ping serviceTest.configuration)
    exact ⟨_, _, Option.map_eq_some_iff.mpr ⟨result, hresult, rfl⟩, rfl⟩
  | port serviceTest =>
    obtain ⟨result, hresult⟩ := Option.isSome_iff_exists.mp (hworld.port serviceTest.configuration)
    exact ⟨_, _, Option.map_eq_some_iff.mpr ⟨result, hresult, rfl⟩, rfl⟩
  | ssh serviceTest =>
    obtain ⟨result, hresult, houtput⟩ := hworld.ssh serviceTest.configuration
    obtain ⟨text, htext⟩ := Option.isSome_iff_exists.mp houtput
    obtain ⟨regex, hregex, hcompile⟩ := htest
    obtain ⟨event, hevent⟩ := (sshResultToEvent_ok_iff htext hregex).mpr hcompile
    exact ⟨_, event, Option.map_eq_some_iff.mpr ⟨result, hresult, rfl⟩, hevent⟩
  | url serviceTest =>
    obtain ⟨result, hresult⟩ := Option.isSome_iff_exists.mp (hworld.url serviceTest.configuration)
    exact ⟨_, _, Option.map_eq_some_iff.mpr ⟨result, hresult, rfl⟩, rfl⟩

theorem bind_load_eq {world : World ω} (hworld : world.Answers) {m : Message ω}
    {outs : List (Message ω)} (hm : m.Ready compile)
    (houts : handle environment compile world m = some outs) :
    (outs : Multiset (Message ω)).bind Message.load = m.load := by
  cases m with
  | serviceDbIn => exact hm.elim
  | serviceTests => exact hm.elim
  | serviceCheckRequestIn request =>
    cases houts
    exact bind_load_routers request
  | serviceChecksRouter request test =>
    cases houts
    rw [serviceTestRouter_eq hm.1]
    exact Multiset.singleton_bind _ _
  | check type request test =>
    cases houts
    obtain ⟨⟨_, hpattern⟩, rfl⟩ := hm
    obtain ⟨check, event, hcheck, hevent⟩ := hworld.exists_event hpattern
    exact bind_load_checkRoute hcheck hevent
  | urlMetrics request test result =>
    cases houts
    cases (urlToExec result).toOption with
    | none => rfl
    | some args => exact Multiset.singleton_bind _ _
  | boundaryEvent => cases houts
  | execIn => cases houts

/-- What the last consumers leave behind stands for the tests that it reports. -/
theorem bind_load_eq_reported (hpossible : ∃ world, possible world) {u : Multiset (Message ω)}
    (hquiet : Quiet (Sends possible (handle environment compile)) u) :
    u.bind Message.load = u.filterMap Message.reported := by
  rw [Multiset.filterMap_eq_bind]
  refine Multiset.bind_congr fun m hm => ?_
  obtain ⟨world, hnone⟩ := handle_eq_none_of_final hpossible (hquiet m hm)
  cases m with
  | boundaryEvent => rfl
  | execIn => rfl
  | serviceDbIn | serviceTests | serviceCheckRequestIn | serviceChecksRouter | check | urlMetrics =>
    cases hnone

theorem reported_le_load (u : Multiset (Message ω)) :
    u.filterMap Message.reported ≤ u.bind Message.load := by
  induction u using Multiset.induction with
  | empty => exact le_refl _
  | cons m u ih =>
    rw [Multiset.cons_bind, Multiset.filterMap_cons]
    refine add_le_add ?_ ih
    cases m with
    | boundaryEvent => exact le_refl _
    | serviceDbIn | serviceTests | serviceCheckRequestIn | serviceChecksRouter | check |
      urlMetrics | execIn => exact Multiset.zero_le _

/-- However the messages of a list of requests are interleaved, no test is
reported more often than it was requested.  When no message is left and the
components answered, every test is reported as often as that. -/
theorem tests_reported_once (hpossible : ∃ world, possible world)
    (requests : List ServiceCheckRequest) (u : Multiset (Message ω))
    (hrun : Run (Sends possible (handle environment compile))
      (requests.map .serviceCheckRequestIn : List (Message ω)) u) :
    u.filterMap Message.reported ≤ requested requests ∧
      ((∀ world, possible world → world.Answers) →
        (∀ request ∈ requests, ∀ test ∈ request.serviceTests, test.Ready compile) →
          Quiet (Sends possible (handle environment compile)) u →
            u.filterMap Message.reported = requested requests) := by
  rw [← bind_load_requests (ω := ω)]
  constructor
  · refine le_trans (reported_le_load u) ?_
    refine run_bind (r := (· ≤ ·)) (fun _ _ c h => add_le_add_left h c) (P := fun m => m.rank ≤ 4)
      ?_ ?_ ?_ hrun
    · intro m hm
      obtain ⟨request, _, rfl⟩ := List.mem_map.mp (Multiset.mem_coe.mp hm)
      exact le_refl _
    · intro m out hm hout m' hm'
      obtain ⟨world, outs, _, houts, rfl⟩ := hout
      exact le_trans (rank_lt_of_mem houts (Multiset.mem_coe.mp hm')).le hm
    · intro m out hm hout
      obtain ⟨world, outs, _, houts, rfl⟩ := hout
      exact bind_load_le hm houts
  · intro hworld hready hquiet
    rw [← bind_load_eq_reported hpossible hquiet]
    refine run_bind (r := (· = ·)) (fun _ _ _ h => congrArg (· + _) h)
      (P := Message.Ready compile) ?_ ?_ ?_ hrun
    · intro m hm
      obtain ⟨request, hrequest, rfl⟩ := List.mem_map.mp (Multiset.mem_coe.mp hm)
      exact hready request hrequest
    · intro m out hm hout m' hm'
      obtain ⟨world, outs, _, houts, rfl⟩ := hout
      exact hm.handle houts (Multiset.mem_coe.mp hm')
    · intro m out hm hout
      obtain ⟨world, outs, hw, houts, rfl⟩ := hout
      exact bind_load_eq (hworld world hw) hm houts

/-- The three tests of two requests are reported once each. -/
theorem tests_reported_once_mixedWorld :
    Multiset.filterMap Message.reported
        ({.boundaryEvent mixedRequest pingTest pingEvent} +
          {.boundaryEvent mixedRequest portTest portEvent} +
          {.boundaryEvent pingRequest pingTest pingEvent} : Multiset (Message StringRef)) =
      requested [mixedRequest, pingRequest] := by
  have hport : Run (Sends (· = mixedWorld) (handle .ofStrings fun _ => none))
      {.check .port mixedRequest portTest} {.boundaryEvent mixedRequest portTest portEvent} :=
    .single (step_of_handle [.boundaryEvent mixedRequest portTest portEvent] rfl)
  have hmixed := run_mixedRequest.trans (Run.add .refl hport)
  have hping : Run (Sends (· = mixedWorld) (handle .ofStrings fun _ => none))
      {.serviceCheckRequestIn pingRequest} {.boundaryEvent pingRequest pingTest pingEvent} :=
    .head (step_of_handle [.serviceChecksRouter pingRequest pingTest] rfl)
      (.head (step_of_handle [.check .ping pingRequest pingTest] rfl)
        (.single (step_of_handle [.boundaryEvent pingRequest pingTest pingEvent] rfl)))
  have hanswers : ∀ world, world = mixedWorld → world.Answers := by
    rintro _ rfl
    exact ⟨fun _ => rfl, fun _ => rfl, fun _ => ⟨_, rfl, rfl⟩, fun _ => rfl⟩
  have hready : ∀ request ∈ [mixedRequest, pingRequest], ∀ test ∈ request.serviceTests,
      test.Ready fun _ => none := by
    have hboth : ∀ test ∈ [pingTest, portTest], test.Ready fun _ => none :=
      List.forall_mem_cons.mpr ⟨⟨by decide, trivial⟩,
        List.forall_mem_singleton.mpr ⟨by decide, trivial⟩⟩
    have hping : ∀ test ∈ [pingTest], test.Ready fun _ => none :=
      List.forall_mem_singleton.mpr (hboth pingTest List.mem_cons_self)
    exact List.forall_mem_cons.mpr ⟨hboth, List.forall_mem_singleton.mpr hping⟩
  refine (tests_reported_once (⟨mixedWorld, rfl⟩ : ∃ world, world = mixedWorld)
    [mixedRequest, pingRequest] _ (Run.add hmixed hping)).2 hanswers hready ?_
  have hfinal : ∀ request test event, Quiet
      (Sends (· = mixedWorld) (handle .ofStrings fun _ => none))
      {.boundaryEvent request test event} := by
    intro request test event m hm
    rw [Multiset.mem_singleton.mp hm]
    exact final_sends fun _ => rfl
  exact quiet_add.mpr ⟨quiet_add.mpr ⟨hfinal _ _ _, hfinal _ _ _⟩, hfinal _ _ _⟩

end BoundaryEventSdk.Service
