import BoundaryEventSdk.Service.ResultProcessors
import BoundaryEventSdk.Service.ServiceChecksDatabase

/-!
# The verdict of a URL check

A response is good when it came in time, with the right code, and with the
right body unless the model says to ignore the body.  `isHealthly` compares the
bodies with `==`, which compares references, and accepts any body when the
ignore flag is *not* set.  `url_verdict` says which checks get the right verdict
nevertheless.
-/

namespace BoundaryEventSdk.Service

open BoundaryEventSdk.Java
open BoundaryEventSdk.Event (OwnedEvent RawEvent Severity Status Obj truncateToMaximumLength)

/-! ## What the verdict should be -/

/-- Two strings have the same contents, or both are `null`. -/
def SameText (left right : Option StringRef) : Prop :=
  left.map StringRef.text = right.map StringRef.text

instance (left right : Option StringRef) : Decidable (SameText left right) :=
  inferInstanceAs (Decidable (_ = _))

/-- The body is ignored, or it is the expected one. -/
def BodyAccepted (model : UrlServiceModel) (result : UrlResult) : Prop :=
  model.responseIgnoreBody = true ∨ SameText result.responseBody model.responseBody

/-- The three criteria of a URL check. -/
structure MeetsCriteria (model : UrlServiceModel) (result : UrlResult) : Prop where
  time : result.responseTime ≤ model.responseTime
  code : result.responseCode = model.responseCode
  body : BodyAccepted model result

/-- The event says that the test passed. -/
structure Passed (event : OwnedEvent) (name : Option JString) : Prop where
  status : event.status = some .CLOSED
  severity : event.severity = some .INFO
  title : event.title = truncateToMaximumLength (some (display name ++ utf16 " - PASS"))

/-- The event says that the test failed. -/
structure Failed (event : OwnedEvent) (name : Option JString) : Prop where
  status : event.status = some .OPEN
  severity : event.severity = some .WARN
  title : event.title = truncateToMaximumLength (some (display name ++ utf16 " - FAIL"))

/-- The property is `YES` where the criterion holds, and `NO` elsewhere. -/
structure Tells (event : OwnedEvent) (name : JString) (criterion : Prop) : Prop where
  yes : criterion → event.property name = some (some (.string (utf16 "YES")))
  no : ¬ criterion → event.property name = some (some (.string (utf16 "NO")))

/-- The event has the verdict that the criteria give, and tells which of them
were met. -/
structure SoundVerdict (serviceTest : ServiceTest UrlConfiguration UrlServiceModel)
    (result : UrlResult) (event : OwnedEvent) : Prop where
  passed : MeetsCriteria serviceTest.model result → Passed event serviceTest.name
  failed : ¬ MeetsCriteria serviceTest.model result → Failed event serviceTest.name
  time : Tells event (utf16 "response-time-met")
    (result.responseTime ≤ serviceTest.model.responseTime)
  code : Tells event (utf16 "response-code-matched")
    (result.responseCode = serviceTest.model.responseCode)
  body : Tells event (utf16 "response-body-matched") (BodyAccepted serviceTest.model result)

/-! ## What the code does -/

section Code

variable {serviceTest : ServiceTest UrlConfiguration UrlServiceModel} {result : UrlResult}

theorem isHealthly_iff {model : UrlServiceModel} :
    (model.isHealthly result).1 = true ↔
      result.responseTime ≤ model.responseTime ∧ result.responseCode = model.responseCode ∧
        (model.isHealthly result).2.responseBodyMatched = true := by
  simp [UrlServiceModel.isHealthly, and_assoc]

/-- The verdict of the event is that of `isHealthly`. -/
theorem urlResultToEvent_verdict :
    if (serviceTest.model.isHealthly result).1 = true then
      Passed (urlResultToEvent serviceTest result) serviceTest.name
    else Failed (urlResultToEvent serviceTest result) serviceTest.name := by
  unfold urlResultToEvent
  dsimp only
  split
  · exact ⟨rfl, rfl, rfl⟩
  · exact ⟨rfl, rfl, rfl⟩

/-- A flag that is printed as a property tells a criterion exactly when it
decides it. -/
theorem tells_iff {event : OwnedEvent} {name : JString} {flag : Bool} {criterion : Prop}
    (h : event.property name = some (some (.string (getYesNo flag)))) :
    Tells event name criterion ↔ (flag = true ↔ criterion) := by
  constructor
  · intro htells
    by_cases hcriterion : criterion
    · have hyes := htells.yes hcriterion
      rw [h] at hyes
      cases flag with
      | false => exact absurd hyes (by decide)
      | true => exact iff_of_true rfl hcriterion
    · have hno := htells.no hcriterion
      rw [h] at hno
      cases flag with
      | false => exact iff_of_false Bool.false_ne_true hcriterion
      | true => exact absurd hno (by decide)
  · intro hflag
    refine ⟨fun hcriterion => ?_, fun hcriterion => ?_⟩
    · rw [h, hflag.mpr hcriterion]
      rfl
    · rw [h, Bool.eq_false_iff.mpr fun htrue => hcriterion (hflag.mp htrue)]
      rfl

theorem urlResultToEvent_time :
    (urlResultToEvent serviceTest result).property (utf16 "response-time-met") =
      some (some (.string (getYesNo (serviceTest.model.isHealthly result).2.responseTimeMet))) := by
  unfold urlResultToEvent
  simp [RawEvent.property_addProperty]

theorem urlResultToEvent_code :
    (urlResultToEvent serviceTest result).property (utf16 "response-code-matched") =
      some (some (.string
        (getYesNo (serviceTest.model.isHealthly result).2.responseCodeMatched))) := by
  unfold urlResultToEvent
  simp +decide [RawEvent.property_addProperty]

theorem urlResultToEvent_body :
    (urlResultToEvent serviceTest result).property (utf16 "response-body-matched") =
      some (some (.string
        (getYesNo (serviceTest.model.isHealthly result).2.responseBodyMatched))) := by
  unfold urlResultToEvent
  simp +decide [RawEvent.property_addProperty]

/-- The verdict is right exactly when the flag of the body is. -/
theorem soundVerdict_iff :
    SoundVerdict serviceTest result (urlResultToEvent serviceTest result) ↔
      ((serviceTest.model.isHealthly result).2.responseBodyMatched = true ↔
        BodyAccepted serviceTest.model result) := by
  constructor
  · intro h
    exact (tells_iff urlResultToEvent_body).mp h.body
  · intro hbody
    have hhealthly : (serviceTest.model.isHealthly result).1 = true ↔
        MeetsCriteria serviceTest.model result := by
      rw [isHealthly_iff, hbody]
      exact ⟨fun ⟨htime, hcode, hbody⟩ => ⟨htime, hcode, hbody⟩,
        fun ⟨htime, hcode, hbody⟩ => ⟨htime, hcode, hbody⟩⟩
    have hverdict := @urlResultToEvent_verdict serviceTest result
    exact
      { passed := fun hmeets => by rwa [if_pos (hhealthly.mpr hmeets)] at hverdict
        failed := fun hmeets => by rwa [if_neg fun h => hmeets (hhealthly.mp h)] at hverdict
        time := (tells_iff urlResultToEvent_time).mpr (by simp [UrlServiceModel.isHealthly])
        code := (tells_iff urlResultToEvent_code).mpr (by simp [UrlServiceModel.isHealthly])
        body := (tells_iff urlResultToEvent_body).mpr hbody }

end Code

/-- The verdict is right exactly when the model does not ignore the body and the
body is the expected one, or the model ignores the body and the body happens to
be the very object that the model holds. -/
theorem url_verdict (serviceTest : ServiceTest UrlConfiguration UrlServiceModel)
    (result : UrlResult) :
    SoundVerdict serviceTest result (urlResultToEvent serviceTest result) ↔
      serviceTest.model.responseIgnoreBody = false ∧
          SameText result.responseBody serviceTest.model.responseBody ∨
        serviceTest.model.responseIgnoreBody = true ∧
          sameObject result.responseBody serviceTest.model.responseBody = true := by
  rw [soundVerdict_iff, BodyAccepted]
  have hflag : (serviceTest.model.isHealthly result).2.responseBodyMatched =
      (sameObject result.responseBody serviceTest.model.responseBody ||
        serviceTest.model.responseIgnoreBody == false) := rfl
  rw [hflag]
  cases serviceTest.model.responseIgnoreBody <;> simp

/-- A row that describes a page. -/
def pageRow (ignoreBody : JString) : Row StringRef :=
  [("urlUrl", ⟨1, utf16 "http://a/"⟩), ("urlRequestMethod", ⟨2, utf16 "GET"⟩),
    ("urlRequestBody", ⟨3, []⟩), ("urlResponseCode", ⟨4, utf16 "200"⟩),
    ("urlResponseBody", ⟨5, utf16 "OK"⟩), ("urlResponseIgnoreBody", ⟨6, ignoreBody⟩),
    ("urlResponseTime", ⟨7, utf16 "1000"⟩), ("urlRequestTimeout", ⟨8, utf16 "5000"⟩),
    ("serviceName", ⟨9, utf16 "Web"⟩), ("serviceTestName", ⟨10, utf16 "page"⟩),
    ("serviceTypeName", ⟨11, utf16 "url"⟩)].foldl
      (fun row entry => row.put (utf16 entry.1) (some entry.2)) .empty

/-- The service test of the page. -/
def pageTest (ignoreBody : Bool) : ServiceTest UrlConfiguration UrlServiceModel where
  name := some (utf16 "page")
  serviceTestType := some (utf16 "url")
  serviceName := some (utf16 "Web")
  requestId := some (utf16 "id")
  configuration := ⟨none, some (utf16 "GET"), none, 0, none, none⟩
  model :=
    { responseBody := some ⟨5, utf16 "OK"⟩
      responseIgnoreBody := ignoreBody
      responseCode := 200
      responseTime := 1000 }

/-- A response in time and with the right code. -/
def pageResult (body : StringRef) : UrlResult :=
  ⟨some (utf16 "a"), 10, 200, some body, none⟩

/-- A page with the wrong body passes, and a page whose body is to be ignored
fails. -/
theorem url_verdict_page :
    (UrlServiceDatabase.populate .ofStrings { requestId := utf16 "id" } (pageRow (utf16 "false")) =
        .ok { requestId := utf16 "id", serviceTests := [.url (pageTest false)] } ∧
      ¬ SoundVerdict (pageTest false) (pageResult ⟨12, utf16 "Error"⟩)
        (urlResultToEvent (pageTest false) (pageResult ⟨12, utf16 "Error"⟩))) ∧
    (UrlServiceDatabase.populate .ofStrings { requestId := utf16 "id" } (pageRow (utf16 "true")) =
        .ok { requestId := utf16 "id", serviceTests := [.url (pageTest true)] } ∧
      ¬ SoundVerdict (pageTest true) (pageResult ⟨12, utf16 "Error"⟩)
        (urlResultToEvent (pageTest true) (pageResult ⟨12, utf16 "Error"⟩))) := by
  refine ⟨⟨rfl, fun h => ?_⟩, ⟨rfl, fun h => ?_⟩⟩
  · have hbody : ¬ BodyAccepted (pageTest false).model (pageResult ⟨12, utf16 "Error"⟩) := by
      intro haccepted
      rcases haccepted with hignore | htext
      · exact absurd hignore (by decide)
      · exact absurd htext (by decide)
    exact absurd (h.failed fun hmeets => hbody hmeets.body).status (by decide)
  · exact absurd (h.passed ⟨by decide, rfl, Or.inl rfl⟩).status (by decide)

end BoundaryEventSdk.Service
