import BoundaryEventSdk.Service.ServiceChecksDatabase

/-!
# What becomes of each row

`addRow` does one of three things with a row.  A row whose type it knows goes to
the builder of that type, which adds one service test or throws.  A row without
a type makes it throw.  A row of any other type is passed over, and the request
does not show that it was there.

`ServiceType.columns` lists what each builder reads, in its order.  A builder
returns exactly when these columns can be read.
-/

namespace BoundaryEventSdk.Service

open BoundaryEventSdk.Java
open ServiceChecksDatabase (createPingServiceTest createPortServiceTest createSshServiceTest addRow)

/-- The service types that `process` knows. -/
inductive ServiceType where
  | ping
  | port
  | ssh
  | url
  deriving DecidableEq, Repr

/-- The kind of a service test. -/
def AnyServiceTest.type : AnyServiceTest → ServiceType
  | ping _ => .ping
  | port _ => .port
  | ssh _ => .ssh
  | url _ => .url

/-- How a column is read. -/
inductive Column where
  | text (name : JString)
  | number (name : JString)
  deriving DecidableEq, Repr

namespace ServiceType

/-- The value of `serviceTypeName`. -/
def name : ServiceType → JString
  | ping => utf16 "ping"
  | port => utf16 "port"
  | ssh => utf16 "ssh"
  | url => utf16 "url"

/-- The type of that name. -/
def ofName (name : JString) : Option ServiceType :=
  if name = ping.name then some ping
  else if name = port.name then some port
  else if name = ssh.name then some ssh
  else if name = url.name then some url
  else none

/-- The columns that must be there, in the order in which the builder reads
them. -/
def columns : ServiceType → List Column
  | ping =>
    [.text (utf16 "pingHost"), .number (utf16 "pingTimeout"), .text (utf16 "serviceName"),
      .text (utf16 "serviceTestName"), .text (utf16 "serviceTypeName")]
  | port =>
    [.text (utf16 "portHost"), .number (utf16 "portPort"), .number (utf16 "portTimeout"),
      .text (utf16 "serviceName"), .text (utf16 "serviceTestName"),
      .text (utf16 "serviceTypeName")]
  | ssh =>
    [.text (utf16 "sshHost"), .number (utf16 "sshPort"), .number (utf16 "sshTimeout"),
      .text (utf16 "sshUserName"), .text (utf16 "sshPassword"), .text (utf16 "sshCommand"),
      .text (utf16 "serviceName"), .text (utf16 "serviceTestName"),
      .text (utf16 "serviceTypeName"), .text (utf16 "sshExpectedOutput")]
  | url =>
    [.text (utf16 "urlUrl"), .text (utf16 "urlRequestMethod"), .text (utf16 "urlRequestBody"),
      .number (utf16 "urlResponseCode"), .text (utf16 "urlResponseBody"),
      .text (utf16 "urlResponseIgnoreBody"), .number (utf16 "urlResponseTime"),
      .number (utf16 "urlRequestTimeout"), .text (utf16 "serviceName"),
      .text (utf16 "serviceTestName"), .text (utf16 "serviceTypeName")]

/-- The builder of a type. -/
def build {ω : Type} (environment : Environment ω) :
    ServiceType → ServiceCheckRequest → Row ω → Except Throwable ServiceCheckRequest
  | ping => createPingServiceTest environment
  | port => createPortServiceTest environment
  | ssh => createSshServiceTest environment
  | url => UrlServiceDatabase.populate environment

end ServiceType

section Rows

variable {ω : Type} {environment : Environment ω}

/-! ## Reading a column -/

/-- The row has an object in the column. -/
def Present (row : Row ω) (name : JString) : Prop :=
  (row.get name).join.isSome = true

/-- The row has an object in the column, and the text of it is a number. -/
def Numeric (environment : Environment ω) (row : Row ω) (name : JString) : Prop :=
  ∃ object, (row.get name).join = some object ∧
    (parseInt (environment.toString object).text).isSome = true

/-- The column can be read. -/
def Readable (environment : Environment ω) (row : Row ω) : Column → Prop
  | .text name => Present row name
  | .number name => Numeric environment row name

theorem stringColumn_ok_iff {row : Row ω} {name : JString} :
    (∃ string, stringColumn environment row name = .ok string) ↔ Present row name := by
  rw [stringColumn, Present]
  cases (row.get name).join <;> simp [Except.map]

theorem textColumn_ok_iff {row : Row ω} {name : JString} :
    (∃ text, textColumn environment row name = .ok text) ↔ Present row name := by
  rw [textColumn, stringColumn, Present]
  cases (row.get name).join <;> simp [Except.map]

theorem intColumn_ok_iff {row : Row ω} {name : JString} :
    (∃ n, intColumn environment row name = .ok n) ↔ Numeric environment row name := by
  rw [intColumn, textColumn, stringColumn, Numeric]
  cases (row.get name).join with
  | none => simp [Except.map]
  | some object =>
    simp only [deref_some, Except.map, ok_bind, Option.some.injEq, exists_eq_left']
    cases parseInt (environment.toString object).text <;> simp

/-! ## Builders -/

/-- A builder returns exactly when the columns of its type can be read. -/
theorem ServiceType.build_ok_iff {type : ServiceType} {request : ServiceCheckRequest}
    {row : Row ω} :
    (∃ request', type.build environment request row = .ok request') ↔
      ∀ column ∈ type.columns, Readable environment row column := by
  cases type with
  | ping =>
    simp [build, columns, createPingServiceTest, exists_bind_eq_ok, textColumn_ok_iff,
      intColumn_ok_iff, Readable, pure, Except.pure]
  | port =>
    simp [build, columns, createPortServiceTest, exists_bind_eq_ok, textColumn_ok_iff,
      intColumn_ok_iff, Readable, pure, Except.pure]
  | ssh =>
    simp [build, columns, createSshServiceTest, exists_bind_eq_ok, textColumn_ok_iff,
      intColumn_ok_iff, Readable, pure, Except.pure]
  | url =>
    simp [build, columns, UrlServiceDatabase.populate, exists_bind_eq_ok, textColumn_ok_iff,
      stringColumn_ok_iff, intColumn_ok_iff, Readable, pure, Except.pure]

/-- The type of a row, or nothing for a type that `process` does not know. -/
def rowType (environment : Environment ω) (row : Row ω) : Except Throwable (Option ServiceType) :=
  (textColumn environment row (utf16 "serviceTypeName")).map ServiceType.ofName

/-- What a service test owes to its row: it belongs to the request, it has the
names of the row, and it is of the kind that the type names. -/
structure Describes (environment : Environment ω) (requestId : JString) (row : Row ω)
    (test : AnyServiceTest) : Prop where
  requestId : test.requestId = some requestId
  serviceName : ∃ text, textColumn environment row (utf16 "serviceName") = .ok text ∧
    test.serviceName = some text
  name : ∃ text, textColumn environment row (utf16 "serviceTestName") = .ok text ∧
    test.name = some text
  serviceTestType : ∃ text, textColumn environment row (utf16 "serviceTypeName") = .ok text ∧
    test.serviceTestType = some text
  type : rowType environment row = .ok (some test.type)

/-- A builder that returns has added one service test, which describes the
row. -/
theorem ServiceType.build_ok {type : ServiceType} {request request' : ServiceCheckRequest}
    {row : Row ω} (htype : rowType environment row = .ok (some type))
    (h : type.build environment request row = .ok request') :
    ∃ test, request' = request.addServiceTest test ∧
      Describes environment request.requestId row test := by
  cases type with
  | ping =>
    simp only [build, createPingServiceTest, bind_eq_ok] at h
    obtain ⟨_, _, _, _, _, hservice, _, hname, _, htext, h⟩ := h
    cases h
    exact ⟨_, rfl, rfl, ⟨_, hservice, rfl⟩, ⟨_, hname, rfl⟩, ⟨_, htext, rfl⟩, htype⟩
  | port =>
    simp only [build, createPortServiceTest, bind_eq_ok] at h
    obtain ⟨_, _, _, _, _, _, _, hservice, _, hname, _, htext, h⟩ := h
    cases h
    exact ⟨_, rfl, rfl, ⟨_, hservice, rfl⟩, ⟨_, hname, rfl⟩, ⟨_, htext, rfl⟩, htype⟩
  | ssh =>
    simp only [build, createSshServiceTest, bind_eq_ok] at h
    obtain ⟨_, _, _, _, _, _, _, _, _, _, _, _, _, hservice, _, hname, _, htext, _, _, h⟩ := h
    cases h
    exact ⟨_, rfl, rfl, ⟨_, hservice, rfl⟩, ⟨_, hname, rfl⟩, ⟨_, htext, rfl⟩, htype⟩
  | url =>
    simp only [build, UrlServiceDatabase.populate, bind_eq_ok] at h
    obtain ⟨_, _, _, _, _, _, _, _, _, _, _, _, _, _, _, _, _, hservice, _, hname, _, htext, h⟩ := h
    cases h
    exact ⟨_, rfl, rfl, ⟨_, hservice, rfl⟩, ⟨_, hname, rfl⟩, ⟨_, htext, rfl⟩, htype⟩

/-! ## One row -/

/-- The three things that happen to a row. -/
theorem addRow_eq (request : ServiceCheckRequest) (row : Row ω) :
    addRow environment request row =
      match rowType environment row with
      | .error e => .error e
      | .ok none => .ok request
      | .ok (some type) => type.build environment request row := by
  rw [addRow, rowType]
  cases textColumn environment row (utf16 "serviceTypeName") with
  | error e => rfl
  | ok text =>
    simp only [ok_bind, Except.map, ServiceType.ofName, ServiceType.name]
    split_ifs <;> simp +decide [*, ServiceType.build, pure, Except.pure]

/-- The row has a type that `process` knows. -/
def KnownType (environment : Environment ω) (row : Row ω) : Prop :=
  ∃ type, rowType environment row = .ok (some type)

/-- The row has no type, or a column that the builder of its type needs cannot
be read. -/
def RowFails (environment : Environment ω) (row : Row ω) : Prop :=
  ¬ Present row (utf16 "serviceTypeName") ∨
    ∃ type, rowType environment row = .ok (some type) ∧
      ¬ ∀ column ∈ type.columns, Readable environment row column

theorem rowType_ok_iff {row : Row ω} :
    (∃ type, rowType environment row = .ok type) ↔ Present row (utf16 "serviceTypeName") := by
  rw [← textColumn_ok_iff, rowType]
  cases textColumn environment row (utf16 "serviceTypeName") <;> simp [Except.map]

/-- Whether a row throws does not depend on the rows before it. -/
theorem addRow_ok_iff (request : ServiceCheckRequest) (row : Row ω) :
    (∃ request', addRow environment request row = .ok request') ↔ ¬ RowFails environment row := by
  rw [addRow_eq, RowFails, ← rowType_ok_iff]
  cases hrow : rowType environment row with
  | error e => simp
  | ok type =>
    cases type with
    | none => simp
    | some type => simp [ServiceType.build_ok_iff]

/-! ## The whole list -/

instance : DecidablePred (KnownType environment) := fun row =>
  match hrow : rowType environment row with
  | .ok (some type) => isTrue ⟨type, hrow⟩
  | .ok none => isFalse (by simp [KnownType, hrow])
  | .error e => isFalse (by simp [KnownType, hrow])

/-- A request has one service test for each row of a known type, in the order
of the rows. -/
theorem foldlM_addRow_ok {request request' : ServiceCheckRequest} {list : List (Row ω)}
    (h : list.foldlM (addRow environment) request = .ok request') :
    request'.requestId = request.requestId ∧ ∃ tests,
      request'.serviceTests = request.serviceTests ++ tests ∧
        List.Forall₂ (Describes environment request.requestId)
          (list.filter fun row => KnownType environment row) tests := by
  refine foldlM_invariant (fun front current => current.requestId = request.requestId ∧ ∃ tests,
    current.serviceTests = request.serviceTests ++ tests ∧
      List.Forall₂ (Describes environment request.requestId)
        (front.filter fun row => KnownType environment row) tests)
    ⟨rfl, [], by simp, .nil⟩ ?_ h
  intro front row current next ⟨hid, tests, htests, hdescribes⟩ hnext
  rw [addRow_eq] at hnext
  rw [List.filter_append]
  cases hrow : rowType environment row with
  | error e =>
    rw [hrow] at hnext
    cases hnext
  | ok type =>
    rw [hrow] at hnext
    cases type with
    | none =>
      have hunknown : ¬ KnownType environment row := by simp [KnownType, hrow]
      cases hnext
      exact ⟨hid, tests, htests, by simpa [hunknown] using hdescribes⟩
    | some type =>
      have hknown : KnownType environment row := ⟨type, hrow⟩
      obtain ⟨test, rfl, htest⟩ := ServiceType.build_ok hrow hnext
      rw [hid] at htest
      refine ⟨hid, tests ++ [test], ?_, ?_⟩
      · rw [ServiceCheckRequest.addServiceTest, htests, List.append_assoc]
      · simpa [hknown] using List.rel_append hdescribes (List.Forall₂.cons htest .nil)

/-- No row gets lost: `process` throws and leaves the rows in the message, or the
message becomes a request with one service test for each row, in their
order. -/
def NoRowLost (environment : Environment ω) (requestId : JString) (list : List (Row ω)) : Prop :=
  (∃ e, ServiceChecksDatabase.process environment requestId list =
    { state := .rows list, thrown := some e }) ∨
  ∃ request, ServiceChecksDatabase.process environment requestId list =
      { state := .request request } ∧
    request.requestId = requestId ∧
      List.Forall₂ (Describes environment requestId) list request.serviceTests

/-- No row gets lost exactly when some row makes `process` throw, or every row
has a type that it knows. -/
theorem no_row_lost (environment : Environment ω) (requestId : JString) (list : List (Row ω)) :
    NoRowLost environment requestId list ↔
      (∃ row ∈ list, RowFails environment row) ∨ ∀ row ∈ list, KnownType environment row := by
  have hloop : (∃ request, list.foldlM (addRow environment) { requestId } = .ok request) ↔
      ∀ row ∈ list, ¬ RowFails environment row := foldlM_ok_iff addRow_ok_iff
  rw [NoRowLost, ServiceChecksDatabase.process]
  cases hresult : list.foldlM (addRow environment) { requestId } with
  | error e =>
    have hfails : ∃ row ∈ list, RowFails environment row := by
      by_contra hnone
      obtain ⟨request, hrequest⟩ := hloop.mpr fun row hrow hfails => hnone ⟨row, hrow, hfails⟩
      rw [hresult] at hrequest
      cases hrequest
    exact iff_of_true (Or.inl ⟨e, rfl⟩) (Or.inl hfails)
  | ok request =>
    have hno : ¬ ∃ row ∈ list, RowFails environment row := by
      intro hsome
      obtain ⟨row, hrow, hfails⟩ := hsome
      exact hloop.mp ⟨request, hresult⟩ row hrow hfails
    obtain ⟨hid, tests, htests, hdescribes⟩ := foldlM_addRow_ok hresult
    rw [List.nil_append] at htests
    rw [or_iff_right hno]
    constructor
    · intro hnotLost
      rcases hnotLost with ⟨e, he⟩ | ⟨request', heq, _, hall⟩
      · cases he
      · cases heq
        have hlength : (list.filter fun row => KnownType environment row).length = list.length := by
          rw [hdescribes.length_eq, ← htests, hall.length_eq]
        simpa using List.length_filter_eq_length_iff.mp hlength
    · intro hknown
      rw [List.filter_eq_self.mpr (by simpa using hknown), ← htests] at hdescribes
      exact Or.inr ⟨request, rfl, hid, hdescribes⟩

end Rows

/-- A row of a type that no branch of `process` handles. -/
def httpRow : Row StringRef :=
  LinkedHashMap.empty.put (utf16 "serviceTypeName") (some ⟨1, utf16 "http"⟩)

/-- The row becomes a request without service tests. -/
theorem httpRow_lost :
    ServiceChecksDatabase.process .ofStrings (utf16 "id") [httpRow] =
        { state := .request { requestId := utf16 "id" } } ∧
      ¬ NoRowLost .ofStrings (utf16 "id") [httpRow] := by
  have hprocess : ServiceChecksDatabase.process .ofStrings (utf16 "id") [httpRow] =
      { state := .request { requestId := utf16 "id" } } := rfl
  refine ⟨hprocess, ?_⟩
  intro hnotLost
  rcases hnotLost with ⟨e, he⟩ | ⟨request, heq, _, hall⟩
  · rw [hprocess] at he
    cases he
  · rw [hprocess] at heq
    cases heq
    cases hall

end BoundaryEventSdk.Service
