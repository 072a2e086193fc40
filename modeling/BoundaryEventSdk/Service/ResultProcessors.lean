import BoundaryEventSdk.Service.ServiceTest

/-!
# From a result to an event

The four processors that turn the result of a service check into an event.
Each copies the host, the service and the test into properties, sets title,
message, severity and status by the outcome, and adds the fingerprint fields.
They were written independently: the ping, port and URL processors take the
host from the result, the SSH processor takes it from the configuration.

The `assert` of the ping processor is off unless the virtual machine is told
otherwise.  `Pattern.compile` is a parameter: it gives the test for a whole
match, or nothing for a malformed pattern.
-/

namespace BoundaryEventSdk.Service

open BoundaryEventSdk.Java
open BoundaryEventSdk.Event (Date OwnedEvent RawEvent Source Severity Status Obj)

/-- A string as a property value. -/
def stringObj (text : Option JString) : Option Obj :=
  text.map Obj.string

/-- `event.getSource().setRef(ref).setType("host")`. -/
def setHostSource (event : OwnedEvent) (ref : Option JString) : OwnedEvent :=
  event.updateSource fun source => (source.setRef ref).setType (some (utf16 "host"))

/-- The three calls that add the fingerprint fields. -/
def addFingerprint (event : OwnedEvent) : OwnedEvent :=
  ((event.addFingerprintField (some (utf16 "service"))).addFingerprintField
    (some (utf16 "service-test"))).addFingerprintField (some (utf16 "hostname"))

/-- The two calls that set the sender. -/
def setServiceSender (event : OwnedEvent) : OwnedEvent :=
  let event := event.updateSender fun sender => sender.setRef (some (utf16 "Service Health Check"))
  event.updateSender fun sender => sender.setType (some (utf16 "Boundary Event SDK"))

/-- `event.setSeverity(Severity.WARN)` and `event.setStatus(Status.OPEN)`. -/
def setFailed (event : OwnedEvent) : OwnedEvent :=
  (event.setSeverity (some .WARN)).setStatus (some .OPEN)

/-- `event.setSeverity(Severity.INFO)` and `event.setStatus(Status.CLOSED)`. -/
def setPassed (event : OwnedEvent) : OwnedEvent :=
  (event.setSeverity (some .INFO)).setStatus (some .CLOSED)

@[simp] theorem property_setHostSource (event : OwnedEvent) (ref name : Option JString) :
    (setHostSource event ref).property name = event.property name := by
  simp [setHostSource]

@[simp] theorem property_addFingerprint (event : OwnedEvent) (name : Option JString) :
    (addFingerprint event).property name = event.property name := by
  simp [addFingerprint]

@[simp] theorem property_setServiceSender (event : OwnedEvent) (name : Option JString) :
    (setServiceSender event).property name = event.property name := by
  simp [setServiceSender]

@[simp] theorem property_setFailed (event : OwnedEvent) (name : Option JString) :
    (setFailed event).property name = event.property name := by
  simp [setFailed]

@[simp] theorem property_setPassed (event : OwnedEvent) (name : Option JString) :
    (setPassed event).property name = event.property name := by
  simp [setPassed]

/-! ## Ping, port and SSH results -/

/-- `PingInfoToEventProcessor.pingStatusToEvent`, on a new event. -/
def pingStatusToEvent (serviceTest : ServiceTest PingConfiguration PingServiceModel)
    (result : PingResult) : OwnedEvent :=
  let event := setHostSource RawEvent.new result.host
  let hostname := result.host
  let serviceName := serviceTest.serviceName
  let event := event.addProperty (utf16 "hostname") (stringObj hostname)
  let event := event.addProperty (utf16 "ping-status")
    (result.status.map ServiceStatus.constant)
  let event := event.addProperty (utf16 "rtt-avg") result.rttAvg
  let event := event.addProperty (utf16 "rtt-max") result.rttMax
  let event := event.addProperty (utf16 "rtt-min") result.rttMin
  let event := event.addProperty (utf16 "service-test") (stringObj serviceTest.name)
  let event := event.addProperty (utf16 "service-test-type") (stringObj serviceTest.serviceTestType)
  let event := event.addProperty (utf16 "service") (stringObj serviceName)
  let event := (event.addTag result.host).addTag serviceName
  let event :=
    if result.status = some .FAIL then
      setFailed ((event.setTitle (display serviceName ++ utf16 " - " ++ display hostname ++
        utf16 " is DOWN")).setMessage (utf16 "Ping failed to: " ++ display hostname ++
          utf16 ", reason: " ++ display result.message))
    else
      setPassed ((event.setTitle (display serviceName ++ utf16 " - " ++ display hostname ++
        utf16 " is UP")).setMessage (utf16 "Ping succeeded to: " ++ display hostname))
  setServiceSender ((addFingerprint event).setCreatedAt result.timestamp)

/-- `PortInfoToEventProcessor.portInfoToEvent`, on a new event. -/
def portInfoToEvent (serviceTest : ServiceTest PortConfiguration PortServiceModel)
    (result : PortResult) : OwnedEvent :=
  let hostname := result.host
  let serviceName := serviceTest.serviceName
  let event := setHostSource RawEvent.new hostname
  let event := event.addProperty (utf16 "hostname") (stringObj hostname)
  let event := event.addProperty (utf16 "port") (some (.number result.port))
  let event := event.addProperty (utf16 "port-status") result.portStatus
  let event := event.addProperty (utf16 "time-out") (some (.number result.timeout))
  let event := event.addProperty (utf16 "service-test") (stringObj serviceTest.name)
  let event := event.addProperty (utf16 "service-test-type") (stringObj serviceTest.serviceTestType)
  let event := event.addProperty (utf16 "service") (stringObj serviceName)
  let event := (event.addTag serviceName).addTag hostname
  let port := decimal result.port
  let event :=
    if result.status = some .FAIL then
      setFailed ((event.setTitle (display serviceName ++ utf16 " - " ++ display hostname ++
        utf16 ":" ++ port ++ utf16 " is OFFLINE")).setMessage
          (utf16 "Failed to connect the port, reason: " ++ display result.message))
    else
      setPassed ((event.setTitle (display serviceName ++ utf16 " - " ++ display hostname ++
        utf16 ":" ++ port ++ utf16 " is ONLINE")).setMessage
          (utf16 "Connected to port " ++ port ++ utf16 " on " ++ display hostname))
  setServiceSender ((addFingerprint event).setCreatedAt result.timestamp)

/-- `SshResultToEventProcessor.process`: the new body of the message. -/
def sshResultToEvent (compile : JString → Option (JString → Bool)) (now : Date)
    (serviceTest : ServiceTest SshxConfiguration SshxServiceModel) (result : SshxResult) :
    Except Throwable OwnedEvent := do
  let output := result.output
  let configuration := serviceTest.configuration
  let model := serviceTest.model
  let event := (RawEvent.new : OwnedEvent).setCreatedAt (some now)
  let event := setHostSource event configuration.host
  let event := addFingerprint event
  let hostname := configuration.host
  let expectedOutput := model.expectedOutput
  let serviceName := serviceTest.serviceName
  let event := event.addProperty (utf16 "command") (stringObj configuration.command)
  let event := event.addProperty (utf16 "expected-output") (stringObj expectedOutput)
  let event := event.addProperty (utf16 "output") (stringObj output)
  let event := event.addProperty (utf16 "service-test") (stringObj serviceTest.name)
  let event := event.addProperty (utf16 "service-test-type") (stringObj serviceTest.serviceTestType)
  let event := event.addProperty (utf16 "service") (stringObj serviceName)
  let event := event.addProperty (utf16 "hostname") (stringObj hostname)
  let event := event.addProperty (utf16 "time-out") (some (.number configuration.timeout))
  let event := (event.addTag serviceTest.serviceName).addTag hostname
  let event := event.setTitle (display serviceName ++ utf16 " - " ++ display serviceTest.name)
  let text ← deref output
  let regex ← deref expectedOutput
  match compile regex with
  | none => .error .patternSyntax
  | some matcher =>
    let event :=
      if matcher text then
        (setPassed event).setMessage (utf16 "Received expected output: " ++ display expectedOutput)
      else (setFailed event).setMessage (utf16 "Received unexpected output")
    return setServiceSender event

/-! ## URL results -/

/-- `==` on two references: both `null`, or one object. -/
def sameObject (left right : Option StringRef) : Bool :=
  left.map StringRef.object == right.map StringRef.object

/-- `UrlServiceModel.isHealthly`: the verdict, and the model with its flags
set. -/
def UrlServiceModel.isHealthly (model : UrlServiceModel) (result : UrlResult) :
    Bool × UrlServiceModel :=
  let model := { model with responseTimeMet := decide (result.responseTime ≤ model.responseTime) }
  let model := { model with responseCodeMatched := result.responseCode == model.responseCode }
  let model :=
    { model with
      responseBodyMatched :=
        sameObject result.responseBody model.responseBody || model.responseIgnoreBody == false }
  (model.responseTimeMet && model.responseCodeMatched && model.responseBodyMatched, model)

/-- `UrlResultToEventProcessor.getYesNo`. -/
def getYesNo (b : Bool) : JString :=
  if b then utf16 "YES" else utf16 "NO"

/-- `UrlResultToEventProcessor.urlResultToEvent`, on a new event. -/
def urlResultToEvent (serviceTest : ServiceTest UrlConfiguration UrlServiceModel)
    (result : UrlResult) : OwnedEvent :=
  let hostname := result.host
  let serviceName := serviceTest.serviceName
  let serviceTestName := serviceTest.name
  let serviceModel := serviceTest.model
  let url := display (result.url.map Url.text)
  let event := setHostSource RawEvent.new hostname
  let event := event.addProperty (utf16 "hostname") (stringObj hostname)
  let event :=
    event.addProperty (utf16 "target-response-time") (some (.number serviceModel.responseTime))
  let event := event.addProperty (utf16 "service-test") (stringObj serviceTestName)
  let event := event.addProperty (utf16 "service-test-type") (stringObj serviceTest.serviceTestType)
  let event := event.addProperty (utf16 "service") (stringObj serviceName)
  let event := event.addProperty (utf16 "response-time") (some (.number result.responseTime))
  let event := event.addProperty (utf16 "response-code") (some (.number result.responseCode))
  let event :=
    event.addProperty (utf16 "response-body") (stringObj (result.responseBody.map StringRef.text))
  let event :=
    event.addProperty (utf16 "url-target") (result.url.map fun url => .object url.object)
  let event := (event.addTag serviceName).addTag hostname
  let healthy := (serviceModel.isHealthly result).1
  let serviceModel := (serviceModel.isHealthly result).2
  let event :=
    if healthy then
      setPassed ((event.setTitle (display serviceTestName ++ utf16 " - PASS")).setMessage
        (utf16 "Connected to: " ++ url))
    else
      setFailed ((event.setTitle (display serviceTestName ++ utf16 " - FAIL")).setMessage
        (utf16 "Failed to connect to: " ++ url))
  let event := event.addProperty (utf16 "response-body-matched")
    (some (.string (getYesNo serviceModel.responseBodyMatched)))
  let event := event.addProperty (utf16 "response-code-matched")
    (some (.string (getYesNo serviceModel.responseCodeMatched)))
  let event := event.addProperty (utf16 "response-time-met")
    (some (.string (getYesNo serviceModel.responseTimeMet)))
  setServiceSender (addFingerprint event)

/-! ## The four processors together -/

/-- The event that the processor of a check puts into the message, or what it
throws.  The SSH processor reads the clock. -/
def ServiceCheck.toEvent (compile : JString → Option (JString → Bool)) (now : Date) :
    ServiceCheck → Except Throwable OwnedEvent
  | ping serviceTest result => .ok (pingStatusToEvent serviceTest result)
  | port serviceTest result => .ok (portInfoToEvent serviceTest result)
  | ssh serviceTest result => sshResultToEvent compile now serviceTest result
  | url serviceTest result => .ok (urlResultToEvent serviceTest result)

end BoundaryEventSdk.Service
