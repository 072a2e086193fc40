import BoundaryEventSdk.Java.LinkedHashMap
import BoundaryEventSdk.Service.ServiceTest

/-!
# `ServiceChecksDatabase`: from rows to a request

A query returns a list of rows, and `process` makes one `ServiceCheckRequest`
out of it.  The column `serviceTypeName` selects one of four builders, and each
builder reads its own columns, as texts or as numbers, before it adds a service
test to the request.  A missing column is a `null`, and reading it throws.

A row holds objects, of which the code uses the text only.  `Environment` is
that text, and the two things the URL builder takes from classes that are not
part of this repository.
-/

namespace BoundaryEventSdk.Service

open BoundaryEventSdk.Java

/-- A row: a map from column names to objects. -/
abbrev Row (ω : Type) := LinkedHashMap JString (Option ω)

/-- What the builders take from other classes. -/
structure Environment (ω : Type) where
  /-- `Object.toString`. -/
  toString : ω → StringRef
  /-- `new URL(spec)`, or `none` for a `MalformedURLException`. -/
  newURL : JString → Option Url
  /-- `new UrlConfiguration()`. -/
  newUrlConfiguration : UrlConfiguration

/-- Rows of strings, none of which is the text of a URL. -/
def Environment.ofStrings : Environment StringRef where
  toString string := string
  newURL _ := none
  newUrlConfiguration := ⟨none, none, none, 0, none, none⟩

/-- `ServiceCheckRequest`. -/
structure ServiceCheckRequest where
  requestId : JString
  serviceTests : List AnyServiceTest := []
  deriving DecidableEq

/-- `ServiceCheckRequest.addServiceTest`. -/
def ServiceCheckRequest.addServiceTest (request : ServiceCheckRequest) (test : AnyServiceTest) :
    ServiceCheckRequest :=
  { request with serviceTests := request.serviceTests ++ [test] }

/-- The body of a message: the rows of a query, or the request made of them. -/
inductive Body (ω : Type) where
  | rows (list : List (Row ω))
  | request (request : ServiceCheckRequest)

/-! ## Columns -/

section Builders

variable {ω : Type} (environment : Environment ω)

/-- `row.get(name).toString()`, as a string object. -/
def stringColumn (row : Row ω) (name : JString) : Except Throwable StringRef :=
  (deref (row.get name).join).map environment.toString

/-- `row.get(name).toString()`, as a text. -/
def textColumn (row : Row ω) (name : JString) : Except Throwable JString :=
  (stringColumn environment row name).map StringRef.text

/-- `row.get(name) != null ? row.get(name).toString() : null`. -/
def optionalColumn (row : Row ω) (name : JString) : Option JString :=
  (row.get name).join.map fun object => (environment.toString object).text

/-- `Integer.parseInt(row.get(name).toString())`. -/
def intColumn (row : Row ω) (name : JString) : Except Throwable Int := do
  let text ← textColumn environment row name
  match parseInt text with
  | some n => .ok n
  | none => .error .numberFormat

/-- The lower case of an ASCII letter.  No other letter has the lower or the
upper case of a letter of `true`. -/
def toLowerCase (unit : UInt16) : UInt16 :=
  if 65 ≤ unit ∧ unit ≤ 90 then unit + 32 else unit

/-- `Boolean.valueOf(String)`: `true` in any case. -/
def booleanValueOf (text : JString) : Bool :=
  text.map toLowerCase == utf16 "true"

/-! ## `UrlServiceDatabase` -/

/-- `UrlServiceDatabase.populate`.  A malformed URL is caught and leaves the
default; the request body and the timeout are read and not used. -/
def UrlServiceDatabase.populate (request : ServiceCheckRequest) (row : Row ω) :
    Except Throwable ServiceCheckRequest := do
  let url ← textColumn environment row (utf16 "urlUrl")
  let requestMethod ← textColumn environment row (utf16 "urlRequestMethod")
  let _requestBody ← textColumn environment row (utf16 "urlRequestBody")
  let responseCode ← intColumn environment row (utf16 "urlResponseCode")
  let responseBody ← stringColumn environment row (utf16 "urlResponseBody")
  let responseIgnoreBody ← textColumn environment row (utf16 "urlResponseIgnoreBody")
  let responseTime ← intColumn environment row (utf16 "urlResponseTime")
  let _urlTimeout ← intColumn environment row (utf16 "urlRequestTimeout")
  let user := optionalColumn environment row (utf16 "urlUser")
  let password := optionalColumn environment row (utf16 "urlPassword")
  let serviceName ← textColumn environment row (utf16 "serviceName")
  let serviceTestName ← textColumn environment row (utf16 "serviceTestName")
  let serviceTypeName ← textColumn environment row (utf16 "serviceTypeName")
  let configuration := environment.newUrlConfiguration
  let configuration :=
    match environment.newURL url with
    | some url => { configuration with url := some url }
    | none => configuration
  let configuration := { configuration with requestMethod := some requestMethod }
  let configuration := { configuration with user := user }
  -- The setter of the password is given the user.
  let configuration := { configuration with password := if password.isSome then user else none }
  let serviceModel : UrlServiceModel :=
    { responseBody := some responseBody
      responseIgnoreBody := booleanValueOf responseIgnoreBody
      responseTime := responseTime
      responseCode := responseCode }
  return request.addServiceTest (.url
    { name := some serviceTestName
      serviceTestType := some serviceTypeName
      serviceName := some serviceName
      requestId := some request.requestId
      configuration := configuration
      model := serviceModel })

/-! ## `ServiceChecksDatabase` -/

namespace ServiceChecksDatabase

/-- `ServiceChecksDatabase.createPingServiceTest`. -/
def createPingServiceTest (request : ServiceCheckRequest) (row : Row ω) :
    Except Throwable ServiceCheckRequest := do
  let pingHost ← textColumn environment row (utf16 "pingHost")
  let pingTimeout ← intColumn environment row (utf16 "pingTimeout")
  let pingConfiguration : PingConfiguration := { host := some pingHost, timeout := pingTimeout }
  let serviceName ← textColumn environment row (utf16 "serviceName")
  let serviceTestName ← textColumn environment row (utf16 "serviceTestName")
  let serviceTypeName ← textColumn environment row (utf16 "serviceTypeName")
  return request.addServiceTest (.ping
    { name := some serviceTestName
      serviceTestType := some serviceTypeName
      serviceName := some serviceName
      requestId := some request.requestId
      configuration := pingConfiguration
      model := {} })

/-- `ServiceChecksDatabase.createPortServiceTest`. -/
def createPortServiceTest (request : ServiceCheckRequest) (row : Row ω) :
    Except Throwable ServiceCheckRequest := do
  let portHost ← textColumn environment row (utf16 "portHost")
  let port ← intColumn environment row (utf16 "portPort")
  let portTimeout ← intColumn environment row (utf16 "portTimeout")
  let portConfiguration : PortConfiguration :=
    { host := some portHost, port := port, timeout := portTimeout }
  let serviceName ← textColumn environment row (utf16 "serviceName")
  let serviceTestName ← textColumn environment row (utf16 "serviceTestName")
  let serviceTypeName ← textColumn environment row (utf16 "serviceTypeName")
  return request.addServiceTest (.port
    { name := some serviceTestName
      serviceTestType := some serviceTypeName
      serviceName := some serviceName
      requestId := some request.requestId
      configuration := portConfiguration
      model := {} })

/-- `ServiceChecksDatabase.createSshServiceTest`. -/
def createSshServiceTest (request : ServiceCheckRequest) (row : Row ω) :
    Except Throwable ServiceCheckRequest := do
  let sshHost ← textColumn environment row (utf16 "sshHost")
  let sshPort ← intColumn environment row (utf16 "sshPort")
  let sshTimeout ← intColumn environment row (utf16 "sshTimeout")
  let sshUserName ← textColumn environment row (utf16 "sshUserName")
  let sshPassword ← textColumn environment row (utf16 "sshPassword")
  let sshCommand ← textColumn environment row (utf16 "sshCommand")
  let sshConfiguration : SshxConfiguration :=
    { host := some sshHost
      port := sshPort
      timeout := sshTimeout
      username := some sshUserName
      password := some sshPassword
      command := some sshCommand }
  let serviceName ← textColumn environment row (utf16 "serviceName")
  let serviceTestName ← textColumn environment row (utf16 "serviceTestName")
  let serviceTypeName ← textColumn environment row (utf16 "serviceTypeName")
  let expectedOutput ← textColumn environment row (utf16 "sshExpectedOutput")
  return request.addServiceTest (.ssh
    { name := some serviceTestName
      serviceTestType := some serviceTypeName
      serviceName := some serviceName
      requestId := some request.requestId
      configuration := sshConfiguration
      model := { expectedOutput := some expectedOutput } })

/-- The body of the loop in `ServiceChecksDatabase.process`. -/
def addRow (request : ServiceCheckRequest) (row : Row ω) :
    Except Throwable ServiceCheckRequest := do
  let serviceTestType ← textColumn environment row (utf16 "serviceTypeName")
  if serviceTestType = utf16 "ping" then createPingServiceTest environment request row
  else if serviceTestType = utf16 "port" then createPortServiceTest environment request row
  else if serviceTestType = utf16 "ssh" then createSshServiceTest environment request row
  else if serviceTestType = utf16 "url" then UrlServiceDatabase.populate environment request row
  else return request

/-- `ServiceChecksDatabase.process`, on a message with a list of rows.  The new
request has the given identifier. -/
def process (requestId : JString) (list : List (Row ω)) : Outcome (Body ω) :=
  match list.foldlM (addRow environment) { requestId } with
  | .ok request => { state := .request request }
  | .error e => { state := .rows list, thrown := some e }

end ServiceChecksDatabase

end Builders

end BoundaryEventSdk.Service
