import BoundaryEventSdk.Event.RawEvent
import BoundaryEventSdk.Java.Heap

/-!
# Service tests and their results

A `ServiceTest` says what is checked: a configuration for the component that
runs the check, and a model of what a good result is.  The component answers
with a result object.

The configurations and the results are classes of the Camel components, which
are not part of this repository.  Each is modelled by the properties that this
repository sets or reads.  Two of their types matter here only as objects that
print as a text: a `ServiceStatus`, of which the code knows `FAIL`, and a `URL`.
-/

namespace BoundaryEventSdk.Service

open BoundaryEventSdk.Java
open BoundaryEventSdk.Event (Date Obj)

/-- `ServiceTest<C,M>`. -/
structure ServiceTest (C M : Type) where
  name : Option JString
  serviceTestType : Option JString
  serviceName : Option JString
  requestId : Option JString
  configuration : C
  model : M
  deriving DecidableEq

/-- A reference to a `String` object: its identity and its contents. -/
structure StringRef where
  object : Ref
  text : JString
  deriving DecidableEq, Repr

/-- `java.net.URL`: the identity of the object and the text it prints as. -/
structure Url where
  object : Ref
  text : JString
  deriving DecidableEq, Repr

/-- The status of a result. -/
inductive ServiceStatus where
  | FAIL
  | other (ordinal : Nat)
  deriving DecidableEq, Repr

/-- The enumeration constant, as a property value. -/
def ServiceStatus.constant : ServiceStatus → Obj
  | .FAIL => .object 0
  | .other ordinal => .object (ordinal + 1)

/-! ## Configurations and models -/

structure PingConfiguration where
  host : Option JString
  timeout : Int
  deriving DecidableEq, Repr

structure PortConfiguration where
  host : Option JString
  port : Int
  timeout : Int
  deriving DecidableEq, Repr

structure SshxConfiguration where
  host : Option JString
  port : Int
  timeout : Int
  username : Option JString
  password : Option JString
  command : Option JString
  deriving DecidableEq, Repr

structure UrlConfiguration where
  url : Option Url
  requestMethod : Option JString
  requestBody : Option JString
  timeout : Int
  user : Option JString
  password : Option JString
  deriving DecidableEq, Repr

structure PingServiceModel where
  deriving DecidableEq, Repr

structure PortServiceModel where
  deriving DecidableEq, Repr

/-- The default value is that of `new SshxServiceModel()`. -/
structure SshxServiceModel where
  expectedOutput : Option JString := some []
  deriving DecidableEq, Repr

/-- The default values are those of `new UrlServiceModel()`.  The empty string
literal is one object, with the identity `0`. -/
structure UrlServiceModel where
  responseBody : Option StringRef := some ⟨0, []⟩
  responseIgnoreBody : Bool := false
  responseCode : Int := 0
  responseTime : Int := 0
  responseTimeMet : Bool := false
  responseBodyMatched : Bool := false
  responseCodeMatched : Bool := false
  deriving DecidableEq, Repr

/-! ## Results -/

structure PingResult where
  host : Option JString
  status : Option ServiceStatus
  rttAvg : Option Obj
  rttMax : Option Obj
  rttMin : Option Obj
  message : Option JString
  timestamp : Option Date
  deriving DecidableEq, Repr

structure PortResult where
  host : Option JString
  port : Int
  portStatus : Option Obj
  timeout : Int
  status : Option ServiceStatus
  message : Option JString
  timestamp : Option Date
  deriving DecidableEq, Repr

structure SshxResult where
  output : Option JString
  deriving DecidableEq, Repr

structure UrlResult where
  host : Option JString
  responseTime : Int
  responseCode : Int
  responseBody : Option StringRef
  url : Option Url
  deriving DecidableEq, Repr

/-! ## The four kinds together -/

/-- `ServiceTest<?,?>`: a service test of one of the four kinds. -/
inductive AnyServiceTest where
  | ping (serviceTest : ServiceTest PingConfiguration PingServiceModel)
  | port (serviceTest : ServiceTest PortConfiguration PortServiceModel)
  | ssh (serviceTest : ServiceTest SshxConfiguration SshxServiceModel)
  | url (serviceTest : ServiceTest UrlConfiguration UrlServiceModel)
  deriving DecidableEq

namespace AnyServiceTest

def name : AnyServiceTest → Option JString
  | ping serviceTest => serviceTest.name
  | port serviceTest => serviceTest.name
  | ssh serviceTest => serviceTest.name
  | url serviceTest => serviceTest.name

def serviceTestType : AnyServiceTest → Option JString
  | ping serviceTest => serviceTest.serviceTestType
  | port serviceTest => serviceTest.serviceTestType
  | ssh serviceTest => serviceTest.serviceTestType
  | url serviceTest => serviceTest.serviceTestType

def serviceName : AnyServiceTest → Option JString
  | ping serviceTest => serviceTest.serviceName
  | port serviceTest => serviceTest.serviceName
  | ssh serviceTest => serviceTest.serviceName
  | url serviceTest => serviceTest.serviceName

def requestId : AnyServiceTest → Option JString
  | ping serviceTest => serviceTest.requestId
  | port serviceTest => serviceTest.requestId
  | ssh serviceTest => serviceTest.requestId
  | url serviceTest => serviceTest.requestId

end AnyServiceTest

/-- A service test with the result that the component of its kind reports. -/
inductive ServiceCheck where
  | ping (serviceTest : ServiceTest PingConfiguration PingServiceModel) (result : PingResult)
  | port (serviceTest : ServiceTest PortConfiguration PortServiceModel) (result : PortResult)
  | ssh (serviceTest : ServiceTest SshxConfiguration SshxServiceModel) (result : SshxResult)
  | url (serviceTest : ServiceTest UrlConfiguration UrlServiceModel) (result : UrlResult)

/-- The service test of a check. -/
def ServiceCheck.serviceTest : ServiceCheck → AnyServiceTest
  | ping serviceTest _ => .ping serviceTest
  | port serviceTest _ => .port serviceTest
  | ssh serviceTest _ => .ssh serviceTest
  | url serviceTest _ => .url serviceTest

end BoundaryEventSdk.Service
