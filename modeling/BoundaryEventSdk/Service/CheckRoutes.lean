import BoundaryEventSdk.Messaging.Network
import BoundaryEventSdk.Service.Recovery
import BoundaryEventSdk.Service.RowCoverage

/-!
# The routes of `service-check.xml`

A timer starts a poll.  The poll selects the enabled service checks, and each of
them becomes a request, made of the rows of its configuration.  A request is
split into its service tests, a router puts each test into the queue of its
type, and the consumers of that queue run the check and make an event of the
result.  A URL check also sends its response time to a command.

The parts of a split go their own ways from the first `seda:` queue on, so the
routes are a network of messages.  A `Message` names the endpoint where it waits
and holds what later consumers read: the request and the service test travel as
headers next to the body.  The `direct:` endpoints are called and not queued; a
network that may also take other messages in between has more runs.

An exception ends the exchange in which it is thrown, and that one only: a
splitter that is not told to stop goes on with the next part.  So a message
whose consumer throws leaves nothing behind.  `World` is what a consumer finds
outside of the message: the answer of the database, the identifier that a new
request is given, the clock, and the answers of the components.
-/

namespace BoundaryEventSdk.Service

open BoundaryEventSdk.Java
open BoundaryEventSdk.Event (Date OwnedEvent)

/-- A message at the endpoint where it waits. -/
inductive Message (ω : Type) where
  /-- `direct:service-db-in`. -/
  | serviceDbIn
  /-- `direct:service-tests`. -/
  | serviceTests (row : Row ω)
  /-- `direct:service-check-request-in`. -/
  | serviceCheckRequestIn (request : ServiceCheckRequest)
  /-- `seda:service-checks-router`. -/
  | serviceChecksRouter (request : ServiceCheckRequest) (test : AnyServiceTest)
  /-- `seda:ping-check`, `seda:port-check`, `seda:ssh-check` or `seda:url-check`. -/
  | check (type : ServiceType) (request : ServiceCheckRequest) (test : AnyServiceTest)
  /-- `seda:boundary-event`. -/
  | boundaryEvent (request : ServiceCheckRequest) (test : AnyServiceTest) (event : OwnedEvent)
  /-- `seda:url-metrics`, with the header `url-result`. -/
  | urlMetrics (request : ServiceCheckRequest) (test : AnyServiceTest) (result : UrlResult)
  /-- `seda:exec-in`, with the arguments of the command. -/
  | execIn (request : ServiceCheckRequest) (test : AnyServiceTest) (args : List JString)

/-- What a consumer finds outside of the message.  A database or a component that
throws answers nothing. -/
structure World (ω : Type) where
  /-- `jdbc:service-db-datasource`. -/
  select : JString → Option (List (Row ω))
  /-- `UUID.randomUUID().toString()`. -/
  requestId : JString
  /-- `new Date()`. -/
  now : Date
  ping : PingConfiguration → Option PingResult
  port : PortConfiguration → Option PortResult
  ssh : SshxConfiguration → Option SshxResult
  url : UrlConfiguration → Option UrlResult

/-! ## From the database to a request -/

/-- The body that `SERVICE-CHECKS` sets. -/
def serviceChecksQuery : JString :=
  utf16 ("SELECT serviceCheckId FROM v_service_checks\n    \t\t\tWHERE 1 = 1 \n" ++
    "    \t\t\tAND serviceCheckEnabled = 1\n    \t\t\tAND serviceTestEnabled = 1\n" ++
    "    \t\t\tGROUP BY 1")

section Routes

variable {ω : Type} (environment : Environment ω)

/-- `ServiceCheckQuery.process`: the new body of the message. -/
def serviceCheckQuery (map : Row ω) : Except Throwable JString := do
  let serviceCheckId ← intColumn environment map (utf16 "serviceCheckId")
  return utf16 "SELECT * FROM v_service_check_configs WHERE serviceCheckId = " ++
    decimal serviceCheckId

/-- The body of a message, if it is a request. -/
def Body.toRequest : Body ω → Option ServiceCheckRequest
  | .rows _ => none
  | .request made => some made

/-- `SERVICE-CHECK-CONFIGURATION`: the request that a service check becomes, or
nothing if a query or a processor throws. -/
def serviceCheckConfiguration (world : World ω) (map : Row ω) : Option ServiceCheckRequest := do
  let sql ← (serviceCheckQuery environment map).toOption
  let list ← world.select sql
  (ServiceChecksDatabase.process environment world.requestId list).state.toRequest

/-! ## From a service test to an event -/

/-- The `choice` of `SERVICE-TEST-ROUTER`. -/
def serviceTestRouter (test : AnyServiceTest) : Option ServiceType :=
  test.serviceTestType.bind ServiceType.ofName

/-- `ExtractServiceTestConfiguration` and the component, in the queue of a type.
The configuration of a test of another type is of another class, and the cast
throws. -/
def World.check (world : World ω) : ServiceType → AnyServiceTest → Option ServiceCheck
  | .ping, .ping serviceTest => (world.ping serviceTest.configuration).map (.ping serviceTest)
  | .port, .port serviceTest => (world.port serviceTest.configuration).map (.port serviceTest)
  | .ssh, .ssh serviceTest => (world.ssh serviceTest.configuration).map (.ssh serviceTest)
  | .url, .url serviceTest => (world.url serviceTest.configuration).map (.url serviceTest)
  | _, _ => none

/-- The second endpoint of the `multicast` of `URL-CHECK`. -/
def urlResult : ServiceCheck → Option UrlResult
  | .url _ result => some result
  | _ => none

/-- `PING-CHECK`, `PORT-CHECK`, `SSH-CHECK` and `URL-CHECK`. -/
def checkRoute (compile : JString → Option (JString → Bool)) (world : World ω) (type : ServiceType)
    (request : ServiceCheckRequest) (test : AnyServiceTest) : List (Message ω) :=
  match world.check type test with
  | none => []
  | some check =>
    match check.toEvent compile world.now with
    | .error _ => []
    | .ok event =>
      .boundaryEvent request test event ::
        (urlResult check).toList.map fun result => .urlMetrics request test result

/-! ## From a URL result to a command -/

/-- The entries of `url.metric.names.properties`. -/
def metricNameMap : List (JString × JString) :=
  [(utf16 "monitor.beta.swisscloud.io", utf16 "API_RESPONSE_TIME"),
    (utf16 "monitor.beta.scapp.io", utf16 "API_RESPONSE_TIME")]

/-- `UrlToExecProcessor.getMetricName`. -/
def getMetricName (host : JString) : JString :=
  (metricNameMap.lookup host).getD (utf16 "UNKNOWN")

/-- `UrlToExecProcessor.process`: the arguments of the command.  A property
cannot be looked up under `null`. -/
def urlToExec (result : UrlResult) : Except Throwable (List JString) := do
  let host ← deref result.host
  return [host, getMetricName host, decimal result.responseTime]

/-! ## All routes -/

/-- What the consumer of a message sends.  The last two endpoints are where this
program hands its messages over: to Boundary and to the operating system. -/
def handle (compile : JString → Option (JString → Bool)) (world : World ω) :
    Message ω → Option (List (Message ω))
  | .serviceDbIn => some (((world.select serviceChecksQuery).getD []).map .serviceTests)
  | .serviceTests row =>
    some ((serviceCheckConfiguration environment world row).toList.map .serviceCheckRequestIn)
  | .serviceCheckRequestIn request =>
    some (request.serviceTests.map (.serviceChecksRouter request))
  | .serviceChecksRouter request test =>
    some ((serviceTestRouter test).toList.map fun type => .check type request test)
  | .check type request test => some (checkRoute compile world type request test)
  | .urlMetrics request test result =>
    some ((urlToExec result).toOption.toList.map (.execIn request test))
  | .boundaryEvent _ _ _ => none
  | .execIn _ _ _ => none

/-- How many consumers a message has before it. -/
def Message.rank : Message ω → Nat
  | .serviceDbIn => 6
  | .serviceTests _ => 5
  | .serviceCheckRequestIn _ => 4
  | .serviceChecksRouter _ _ => 3
  | .check _ _ _ => 2
  | .urlMetrics _ _ _ => 1
  | .boundaryEvent _ _ _ => 0
  | .execIn _ _ _ => 0

end Routes

end BoundaryEventSdk.Service
