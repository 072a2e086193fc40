import BoundaryEventSdk.Service.RowCoverage

/-!
# The check that a URL row describes

`UrlCheck` is what the columns of a URL row say, after the conversions.  The
builder reads all of them and passes most of them on.  It never sets the request
body and the timeout, so these two stay as `new UrlConfiguration()` leaves them,
and it sets the password to the user.

`populate_ok` says which checks survive that.  The rest of the module carries it
through the loop of `process`, where the other rows add their own service tests
or make it throw.
-/

namespace BoundaryEventSdk.Service

open BoundaryEventSdk.Java
open ServiceChecksDatabase (addRow process)

/-- A URL check: the request, and what its response should be. -/
structure UrlCheck where
  url : Url
  requestMethod : JString
  requestBody : JString
  requestTimeout : Int
  user : Option JString
  password : Option JString
  responseBody : JString
  responseIgnoreBody : Bool
  responseTime : Int
  responseCode : Int
  deriving DecidableEq

/-- The configuration and the model of the service test carry the check. -/
structure Carries (test : ServiceTest UrlConfiguration UrlServiceModel) (check : UrlCheck) :
    Prop where
  url : test.configuration.url = some check.url
  requestMethod : test.configuration.requestMethod = some check.requestMethod
  requestBody : test.configuration.requestBody = some check.requestBody
  requestTimeout : test.configuration.timeout = check.requestTimeout
  user : test.configuration.user = check.user
  password : test.configuration.password = check.password
  responseBody : test.model.responseBody.map StringRef.text = some check.responseBody
  responseIgnoreBody : test.model.responseIgnoreBody = check.responseIgnoreBody
  responseTime : test.model.responseTime = check.responseTime
  responseCode : test.model.responseCode = check.responseCode

/-- A service test carries one check. -/
theorem Carries.unique {test : ServiceTest UrlConfiguration UrlServiceModel}
    {check other : UrlCheck} (h : Carries test check) (hother : Carries test other) :
    check = other := by
  have hbody := h.responseBody.symm.trans hother.responseBody
  have hurl := h.url.symm.trans hother.url
  have hmethod := h.requestMethod.symm.trans hother.requestMethod
  have hrequest := h.requestBody.symm.trans hother.requestBody
  cases check
  cases other
  simp only [UrlCheck.mk.injEq]
  exact ⟨Option.some.inj hurl, Option.some.inj hmethod, Option.some.inj hrequest,
    h.requestTimeout.symm.trans hother.requestTimeout, h.user.symm.trans hother.user,
    h.password.symm.trans hother.password, Option.some.inj hbody,
    h.responseIgnoreBody.symm.trans hother.responseIgnoreBody,
    h.responseTime.symm.trans hother.responseTime, h.responseCode.symm.trans hother.responseCode⟩

/-- What the builder does not set is right by default, and the password is that
of the user by luck. -/
structure UrlCheck.FitsDefault (check : UrlCheck) (default : UrlConfiguration) : Prop where
  requestBody : default.requestBody = some check.requestBody
  requestTimeout : default.timeout = check.requestTimeout
  password : check.password = none ∨ check.password = check.user

/-- The service test that the builder makes of a check. -/
def UrlCheck.serviceTest (check : UrlCheck) (default : UrlConfiguration)
    (serviceTestName serviceName requestId : JString) (responseBody : StringRef) :
    ServiceTest UrlConfiguration UrlServiceModel where
  name := some serviceTestName
  serviceTestType := some (utf16 "url")
  serviceName := some serviceName
  requestId := some requestId
  configuration :=
    { default with
      url := some check.url
      requestMethod := some check.requestMethod
      user := check.user
      password := if check.password.isSome then check.user else none }
  model :=
    { responseBody := some responseBody
      responseIgnoreBody := check.responseIgnoreBody
      responseTime := check.responseTime
      responseCode := check.responseCode }

/-- The service test carries the check exactly when the check fits the
default. -/
theorem UrlCheck.carries_iff (check : UrlCheck) (default : UrlConfiguration)
    (serviceTestName serviceName requestId : JString) {responseBody : StringRef}
    (hbody : responseBody.text = check.responseBody) :
    Carries (check.serviceTest default serviceTestName serviceName requestId responseBody) check ↔
      check.FitsDefault default := by
  have hpassword : (if check.password.isSome then check.user else none) = check.password ↔
      check.password = none ∨ check.password = check.user := by
    cases check.password with
    | none => simp
    | some text => simp [eq_comm]
  constructor
  · intro h
    exact ⟨h.requestBody, h.requestTimeout, hpassword.mp h.password⟩
  · intro h
    exact ⟨rfl, rfl, h.requestBody, h.requestTimeout, rfl, hpassword.mpr h.password,
      congrArg some hbody, rfl, rfl, rfl⟩

section Rows

variable {ω : Type} {environment : Environment ω}

/-- The row is a URL row with all columns of its type, and they say this. -/
structure DescribesUrl (environment : Environment ω) (row : Row ω) (check : UrlCheck) : Prop where
  serviceTypeName : textColumn environment row (utf16 "serviceTypeName") = .ok (utf16 "url")
  serviceName : ∃ text, textColumn environment row (utf16 "serviceName") = .ok text
  serviceTestName : ∃ text, textColumn environment row (utf16 "serviceTestName") = .ok text
  url : ∃ spec, textColumn environment row (utf16 "urlUrl") = .ok spec ∧
    environment.newURL spec = some check.url
  requestMethod : textColumn environment row (utf16 "urlRequestMethod") = .ok check.requestMethod
  requestBody : textColumn environment row (utf16 "urlRequestBody") = .ok check.requestBody
  requestTimeout : intColumn environment row (utf16 "urlRequestTimeout") = .ok check.requestTimeout
  user : optionalColumn environment row (utf16 "urlUser") = check.user
  password : optionalColumn environment row (utf16 "urlPassword") = check.password
  responseBody : textColumn environment row (utf16 "urlResponseBody") = .ok check.responseBody
  responseIgnoreBody : ∃ text,
    textColumn environment row (utf16 "urlResponseIgnoreBody") = .ok text ∧
      booleanValueOf text = check.responseIgnoreBody
  responseTime : intColumn environment row (utf16 "urlResponseTime") = .ok check.responseTime
  responseCode : intColumn environment row (utf16 "urlResponseCode") = .ok check.responseCode

/-- The object in the column of the response body has the text of the check. -/
theorem DescribesUrl.exists_responseBody {row : Row ω} {check : UrlCheck}
    (h : DescribesUrl environment row check) :
    ∃ body, stringColumn environment row (utf16 "urlResponseBody") = .ok body ∧
      body.text = check.responseBody := by
  have hread := h.responseBody
  rw [textColumn] at hread
  cases hstring : stringColumn environment row (utf16 "urlResponseBody") with
  | error e =>
    rw [hstring] at hread
    cases hread
  | ok body =>
    rw [hstring] at hread
    exact ⟨body, rfl, Except.ok.inj hread⟩

/-- The builder adds one service test for a URL row, and it carries the check
exactly when the check fits the default. -/
theorem populate_ok {row : Row ω} {check : UrlCheck} (h : DescribesUrl environment row check)
    (request : ServiceCheckRequest) :
    ∃ test, UrlServiceDatabase.populate environment request row =
        .ok (request.addServiceTest (.url test)) ∧
      (Carries test check ↔ check.FitsDefault environment.newUrlConfiguration) := by
  obtain ⟨serviceName, hservice⟩ := h.serviceName
  obtain ⟨serviceTestName, hname⟩ := h.serviceTestName
  obtain ⟨spec, hspec, hurl⟩ := h.url
  obtain ⟨ignore, hignore, hvalue⟩ := h.responseIgnoreBody
  obtain ⟨body, hbody, htext⟩ := h.exists_responseBody
  refine ⟨check.serviceTest environment.newUrlConfiguration serviceTestName serviceName
    request.requestId body, ?_, check.carries_iff _ _ _ _ htext⟩
  rw [UrlServiceDatabase.populate]
  simp only [hspec, h.requestMethod, h.requestBody, h.responseCode, hbody, hignore,
    h.responseTime, h.requestTimeout, hservice, hname, h.serviceTypeName, ok_bind, hurl,
    h.user, h.password, hvalue]
  rfl

/-- A URL row adds one service test to any request. -/
theorem addRow_url {row : Row ω} {check : UrlCheck} (h : DescribesUrl environment row check)
    (request : ServiceCheckRequest) :
    ∃ test, addRow environment request row = .ok (request.addServiceTest (.url test)) ∧
      (Carries test check ↔ check.FitsDefault environment.newUrlConfiguration) := by
  have hadd : addRow environment request row =
      UrlServiceDatabase.populate environment request row := by
    rw [addRow, h.serviceTypeName, ok_bind, if_neg (by decide), if_neg (by decide),
      if_neg (by decide), if_pos rfl]
  rw [hadd]
  exact populate_ok h request

/-! ## The whole list -/

theorem process_eq_request_iff {requestId : JString} {list : List (Row ω)}
    {request : ServiceCheckRequest} :
    process environment requestId list = { state := .request request } ↔
      list.foldlM (addRow environment) { requestId } = .ok request := by
  rw [process]
  cases list.foldlM (addRow environment) { requestId } <;> simp

/-- `process` makes a request of the list, and the row behind `front` has given
it this service test. -/
def AddsTest (environment : Environment ω) (requestId : JString) (list front : List (Row ω))
    (test : ServiceTest UrlConfiguration UrlServiceModel) : Prop :=
  ∃ request, process environment requestId list = { state := .request request } ∧
    request.serviceTests[(front.filter fun row => KnownType environment row).length]? =
      some (.url test)

theorem AddsTest.unique {requestId : JString} {list front : List (Row ω)}
    {test other : ServiceTest UrlConfiguration UrlServiceModel}
    (h : AddsTest environment requestId list front test)
    (hother : AddsTest environment requestId list front other) : test = other := by
  obtain ⟨request, hprocess, htest⟩ := h
  obtain ⟨request', hprocess', htest'⟩ := hother
  have hrequest : request = request' := by
    rw [hprocess] at hprocess'
    cases hprocess'
    rfl
  rw [hrequest, htest'] at htest
  cases htest
  rfl

/-- The service test of a URL row stands behind those of the rows before it,
unless a row makes `process` throw. -/
theorem exists_addsTest {requestId : JString} {front back : List (Row ω)} {row : Row ω}
    {check : UrlCheck} (h : DescribesUrl environment row check)
    (hreturns : ∀ other ∈ front ++ row :: back, ¬ RowFails environment other) :
    ∃ test, AddsTest environment requestId (front ++ row :: back) front test ∧
      (Carries test check ↔ check.FitsDefault environment.newUrlConfiguration) := by
  obtain ⟨request, hrequest⟩ := (foldlM_ok_iff (s := { requestId }) addRow_ok_iff).mpr hreturns
  have hprocess := process_eq_request_iff.mpr hrequest
  rw [List.foldlM_append, bind_eq_ok] at hrequest
  obtain ⟨current, hfront, hrest⟩ := hrequest
  obtain ⟨test, hadd, hcarries⟩ := addRow_url h current
  rw [List.foldlM_cons, hadd, ok_bind] at hrest
  obtain ⟨_, before, hbefore, hdescribes⟩ := foldlM_addRow_ok hfront
  obtain ⟨_, after, hafter, _⟩ := foldlM_addRow_ok hrest
  refine ⟨test, ⟨request, hprocess, ?_⟩, hcarries⟩
  rw [hafter, ServiceCheckRequest.addServiceTest, hbefore, hdescribes.length_eq]
  simp

/-- Each URL row of the list adds a service test that carries its check, and
rows with different checks never add the same service test. -/
structure UrlRowsCarried (environment : Environment ω) (requestId : JString)
    (list : List (Row ω)) : Prop where
  carries : ∀ front row back check, list = front ++ row :: back →
    DescribesUrl environment row check →
      ∃ test, AddsTest environment requestId list front test ∧ Carries test check
  distinct : ∀ front row back check front' row' back' check', list = front ++ row :: back →
    list = front' ++ row' :: back' → DescribesUrl environment row check →
      DescribesUrl environment row' check' → check ≠ check' →
        ∀ test, AddsTest environment requestId list front test →
          ¬ AddsTest environment requestId list front' test

/-- A check that is carried fits the default, and no row made `process` throw. -/
theorem UrlRowsCarried.fitsDefault {requestId : JString} {list : List (Row ω)} {row : Row ω}
    {check : UrlCheck} (hcarried : UrlRowsCarried environment requestId list) (hrow : row ∈ list)
    (h : DescribesUrl environment row check) :
    (∀ other ∈ list, ¬ RowFails environment other) ∧
      check.FitsDefault environment.newUrlConfiguration := by
  obtain ⟨front, back, rfl⟩ := List.append_of_mem hrow
  obtain ⟨test, hadds, hcarries⟩ := hcarried.carries front row back check rfl h
  have hreturns : ∀ other ∈ front ++ row :: back, ¬ RowFails environment other := by
    obtain ⟨request, hprocess, _⟩ := hadds
    exact (foldlM_ok_iff addRow_ok_iff).mp ⟨request, process_eq_request_iff.mp hprocess⟩
  obtain ⟨built, hbuilt, hiff⟩ := exists_addsTest h hreturns
  rw [hadds.unique hbuilt] at hcarries
  exact ⟨hreturns, hiff.mp hcarries⟩

/-- The URL rows of a list are run as they say exactly when, if there is one, no
row of the list makes `process` throw and each of their checks fits the
default. -/
theorem urlRowsCarried_iff (environment : Environment ω) (requestId : JString)
    (list : List (Row ω)) :
    UrlRowsCarried environment requestId list ↔
      ∀ row ∈ list, ∀ check, DescribesUrl environment row check →
        (∀ other ∈ list, ¬ RowFails environment other) ∧
          check.FitsDefault environment.newUrlConfiguration := by
  constructor
  · intro hcarried row hrow check h
    exact hcarried.fitsDefault hrow h
  · intro hfits
    have hcarries : ∀ front row back check, list = front ++ row :: back →
        DescribesUrl environment row check →
          ∃ test, AddsTest environment requestId list front test ∧ Carries test check := by
      intro front row back check hlist h
      obtain ⟨hreturns, hdefault⟩ := hfits row (by simp [hlist]) check h
      rw [hlist] at hreturns ⊢
      obtain ⟨test, hadds, hiff⟩ := exists_addsTest h hreturns
      exact ⟨test, hadds, hiff.mpr hdefault⟩
    refine ⟨hcarries, ?_⟩
    intro front row back check front' row' back' check' hlist hlist' h h' hne test hadds hadds'
    obtain ⟨built, hbuilt, hcheck⟩ := hcarries front row back check hlist h
    obtain ⟨built', hbuilt', hcheck'⟩ := hcarries front' row' back' check' hlist' h'
    rw [hbuilt.unique hadds] at hcheck
    rw [hbuilt'.unique hadds'] at hcheck'
    exact hne (hcheck.unique hcheck')

end Rows

/-- Rows of strings, and a `URL` class that takes any specification.  A new
configuration is a `GET` without a body and with a timeout. -/
def Environment.ofUrls : Environment StringRef where
  toString string := string
  newURL spec := some ⟨0, spec⟩
  newUrlConfiguration := ⟨none, some (utf16 "GET"), some [], 10000, none, none⟩

/-- A row of a check that posts a text, with a user and a password. -/
def postRow (body : String) : Row StringRef :=
  ⟨[(utf16 "serviceTypeName", some ⟨1, utf16 "url"⟩),
    (utf16 "serviceName", some ⟨2, utf16 "Shop"⟩),
    (utf16 "serviceTestName", some ⟨3, utf16 "Order"⟩),
    (utf16 "urlUrl", some ⟨4, utf16 "http://shop/order"⟩),
    (utf16 "urlRequestMethod", some ⟨5, utf16 "POST"⟩),
    (utf16 "urlRequestBody", some ⟨6, utf16 body⟩),
    (utf16 "urlRequestTimeout", some ⟨7, utf16 "5000"⟩),
    (utf16 "urlUser", some ⟨8, utf16 "bob"⟩),
    (utf16 "urlPassword", some ⟨9, utf16 "secret"⟩),
    (utf16 "urlResponseBody", some ⟨10, utf16 "ok"⟩),
    (utf16 "urlResponseIgnoreBody", some ⟨11, utf16 "false"⟩),
    (utf16 "urlResponseTime", some ⟨12, utf16 "300"⟩),
    (utf16 "urlResponseCode", some ⟨13, utf16 "200"⟩)], by
    simp only [List.map_cons, List.map_nil]
    decide⟩

/-- What the row says. -/
def postCheck (body : String) : UrlCheck where
  url := ⟨0, utf16 "http://shop/order"⟩
  requestMethod := utf16 "POST"
  requestBody := utf16 body
  requestTimeout := 5000
  user := some (utf16 "bob")
  password := some (utf16 "secret")
  responseBody := utf16 "ok"
  responseIgnoreBody := false
  responseTime := 300
  responseCode := 200

theorem postRow_describes (body : String) :
    DescribesUrl .ofUrls (postRow body) (postCheck body) :=
  ⟨rfl, ⟨_, rfl⟩, ⟨_, rfl⟩, ⟨_, rfl, rfl⟩, rfl, rfl, rfl, rfl, rfl, rfl, ⟨_, rfl, rfl⟩, rfl,
    rfl⟩

/-- The check is not run as the row says, and a row with another request body
adds the same service test. -/
theorem postRow_not_carried :
    ¬ UrlRowsCarried .ofUrls (utf16 "id") [postRow "2 apples"] ∧
      ServiceChecksDatabase.process .ofUrls (utf16 "id") [postRow "2 apples"] =
        ServiceChecksDatabase.process .ofUrls (utf16 "id") [postRow "3 pears"] := by
  refine ⟨?_, rfl⟩
  intro hcarried
  have hfits := (hcarried.fitsDefault List.mem_cons_self (postRow_describes _)).2
  exact absurd hfits.requestTimeout (by decide)

end BoundaryEventSdk.Service
