import BoundaryEventSdk.Service.ResultProcessors

/-!
# A recovery closes the failure it recovers from

Boundary takes two events for the same incident when their sources and the
values of their fingerprint fields agree.  `Incident` is what identifies an
incident of a service check, and `Reports` is what an event owes to it.  Each
of the four processors has one lemma: whatever its result is, its event reports
the incident of the service test.  What two events have to do with each other
then follows from `Reports` alone, whichever processor made them.
-/

namespace BoundaryEventSdk.Service

open BoundaryEventSdk.Java
open BoundaryEventSdk.Event (Date OwnedEvent RawEvent Source Severity Status Obj
  truncateToMaximumLength)

/-! ## Incidents -/

/-- What identifies the incident of a service check. -/
structure Incident where
  service : JString
  test : JString
  host : JString
  deriving DecidableEq, Repr

/-- The fingerprint fields of a service check. -/
def fingerprintFields : List (Option JString) :=
  [some (utf16 "service"), some (utf16 "service-test"), some (utf16 "hostname")]

/-- The values under the fingerprint fields. -/
def Incident.key (incident : Incident) : List (Option (Option Obj)) :=
  [some (some (.string incident.service)), some (some (.string incident.test)),
    some (some (.string incident.host))]

theorem Incident.key_injective : Function.Injective Incident.key := by
  intro a b h
  cases a
  cases b
  simpa [Incident.key] using h

theorem Incident.isSome_of_mem_key {incident : Incident} {value : Option (Option Obj)}
    (h : value ∈ incident.key) : value.isSome = true := by
  simp only [Incident.key, List.mem_cons, List.not_mem_nil, or_false] at h
  rcases h with rfl | rfl | rfl <;> rfl

/-- The values that an event stores under its fingerprint fields. -/
def fingerprintValues (event : OwnedEvent) : List (Option (Option Obj)) :=
  (event.fingerprintFields.getD []).map event.property

/-- A closed event is informational, an open one is a warning, and there is no
third kind. -/
def Verdict (event : OwnedEvent) : Prop :=
  event.status = some .CLOSED ∧ event.severity = some .INFO ∨
    event.status = some .OPEN ∧ event.severity = some .WARN

/-- What an event owes to the incident that it reports. -/
structure Reports (event : OwnedEvent) (incident : Incident) : Prop where
  source : ∃ source, event.source = some source ∧
    source.ref = truncateToMaximumLength incident.host ∧ source.type = some (utf16 "host")
  fields : event.fingerprintFields = some fingerprintFields
  values : fingerprintFields.map event.property = incident.key
  verdict : Verdict event

theorem Reports.fingerprintValues_eq {event : OwnedEvent} {incident : Incident}
    (h : Reports event incident) : fingerprintValues event = incident.key := by
  rw [fingerprintValues, h.fields, Option.getD_some, h.values]

/-! ## The four processors -/

section Processors

variable {incident : Incident}

theorem pingStatusToEvent_reports {serviceTest : ServiceTest PingConfiguration PingServiceModel}
    {result : PingResult} (hservice : serviceTest.serviceName = some incident.service)
    (htest : serviceTest.name = some incident.test) (hhost : result.host = some incident.host) :
    Reports (pingStatusToEvent serviceTest result) incident where
  source := by
    rw [← hhost]
    unfold pingStatusToEvent
    split <;> exact ⟨_, rfl, rfl, rfl⟩
  fields := by
    unfold pingStatusToEvent
    split <;> rfl
  values := by
    unfold pingStatusToEvent
    split <;>
      simp +decide [fingerprintFields, Incident.key, RawEvent.property_addProperty, stringObj,
        hservice, htest, hhost]
  verdict := by
    unfold pingStatusToEvent
    split
    · exact Or.inr ⟨rfl, rfl⟩
    · exact Or.inl ⟨rfl, rfl⟩

theorem portInfoToEvent_reports {serviceTest : ServiceTest PortConfiguration PortServiceModel}
    {result : PortResult} (hservice : serviceTest.serviceName = some incident.service)
    (htest : serviceTest.name = some incident.test) (hhost : result.host = some incident.host) :
    Reports (portInfoToEvent serviceTest result) incident where
  source := by
    rw [← hhost]
    unfold portInfoToEvent
    split <;> exact ⟨_, rfl, rfl, rfl⟩
  fields := by
    unfold portInfoToEvent
    split <;> rfl
  values := by
    unfold portInfoToEvent
    split <;>
      simp +decide [fingerprintFields, Incident.key, RawEvent.property_addProperty, stringObj,
        hservice, htest, hhost]
  verdict := by
    unfold portInfoToEvent
    split
    · exact Or.inr ⟨rfl, rfl⟩
    · exact Or.inl ⟨rfl, rfl⟩

/-- With an output and an expected output, the SSH processor throws on a
malformed pattern only. -/
theorem sshResultToEvent_ok_iff {compile : JString → Option (JString → Bool)} {now : Date}
    {serviceTest : ServiceTest SshxConfiguration SshxServiceModel} {result : SshxResult}
    {text regex : JString} (htext : result.output = some text)
    (hregex : serviceTest.model.expectedOutput = some regex) :
    (∃ event, sshResultToEvent compile now serviceTest result = .ok event) ↔
      (compile regex).isSome = true := by
  unfold sshResultToEvent
  simp only [htext, hregex, deref_some, ok_bind]
  cases compile regex with
  | none => simp
  | some matcher => exact ⟨fun _ => rfl, fun _ => ⟨_, rfl⟩⟩

theorem sshResultToEvent_reports {compile : JString → Option (JString → Bool)} {now : Date}
    {serviceTest : ServiceTest SshxConfiguration SshxServiceModel} {result : SshxResult}
    {event : OwnedEvent} (hservice : serviceTest.serviceName = some incident.service)
    (htest : serviceTest.name = some incident.test)
    (hhost : serviceTest.configuration.host = some incident.host)
    (h : sshResultToEvent compile now serviceTest result = .ok event) :
    Reports event incident := by
  unfold sshResultToEvent at h
  obtain ⟨text, _, h⟩ := bind_eq_ok.mp h
  obtain ⟨regex, _, h⟩ := bind_eq_ok.mp h
  cases hcompile : compile regex with
  | none =>
    rw [hcompile] at h
    cases h
  | some matcher =>
    rw [hcompile] at h
    cases h
    refine ⟨?_, ?_, ?_, ?_⟩
    · rw [← hhost]
      split <;> exact ⟨_, rfl, rfl, rfl⟩
    · split <;> rfl
    · split <;>
        simp +decide [fingerprintFields, Incident.key, RawEvent.property_addProperty, stringObj,
          hservice, htest, hhost]
    · split
      · exact Or.inl ⟨rfl, rfl⟩
      · exact Or.inr ⟨rfl, rfl⟩

theorem urlResultToEvent_reports {serviceTest : ServiceTest UrlConfiguration UrlServiceModel}
    {result : UrlResult} (hservice : serviceTest.serviceName = some incident.service)
    (htest : serviceTest.name = some incident.test) (hhost : result.host = some incident.host) :
    Reports (urlResultToEvent serviceTest result) incident where
  source := by
    rw [← hhost]
    unfold urlResultToEvent
    dsimp only
    split <;> exact ⟨_, rfl, rfl, rfl⟩
  fields := by
    unfold urlResultToEvent
    dsimp only
    split <;> rfl
  values := by
    unfold urlResultToEvent
    dsimp only
    split <;>
      simp +decide [fingerprintFields, Incident.key, RawEvent.property_addProperty, stringObj,
        hservice, htest, hhost]
  verdict := by
    unfold urlResultToEvent
    dsimp only
    split
    · exact Or.inl ⟨rfl, rfl⟩
    · exact Or.inr ⟨rfl, rfl⟩

end Processors

/-! ## Two events of one service test -/

/-- The host that a service test configures.  For a URL it is whatever the
component derives from its configuration. -/
def AnyServiceTest.host (urlHost : UrlConfiguration → Option JString) :
    AnyServiceTest → Option JString
  | ping serviceTest => serviceTest.configuration.host
  | port serviceTest => serviceTest.configuration.host
  | ssh serviceTest => serviceTest.configuration.host
  | url serviceTest => urlHost serviceTest.configuration

/-- What the result of the component owes to the service test: the configured
host, or an output to compare. -/
def ServiceCheck.Answers (urlHost : UrlConfiguration → Option JString) : ServiceCheck → Prop
  | ping serviceTest result => result.host = serviceTest.configuration.host
  | port serviceTest result => result.host = serviceTest.configuration.host
  | ssh serviceTest result =>
    result.output.isSome = true ∧ serviceTest.model.expectedOutput.isSome = true
  | url serviceTest result => result.host = urlHost serviceTest.configuration

/-- A check of the service, the test and the host of an incident. -/
structure ServiceCheck.Checks (urlHost : UrlConfiguration → Option JString) (check : ServiceCheck)
    (incident : Incident) : Prop where
  service : check.serviceTest.serviceName = some incident.service
  test : check.serviceTest.name = some incident.test
  host : check.serviceTest.host urlHost = some incident.host
  answers : check.Answers urlHost

/-- The expected output of an SSH test is a pattern.  The other tests have
none. -/
def AnyServiceTest.PatternCompiles (compile : JString → Option (JString → Bool)) :
    AnyServiceTest → Prop
  | ssh serviceTest => ∃ regex, serviceTest.model.expectedOutput = some regex ∧
      (compile regex).isSome = true
  | _ => True

/-- Boundary takes the two events for one incident: the source, the list of
fingerprint fields, and the values under them are the same. -/
structure SameIncident (event₁ event₂ : OwnedEvent) : Prop where
  source : ∃ source₁ source₂, event₁.source = some source₁ ∧ event₂.source = some source₂ ∧
    source₁.ref = source₂.ref ∧ source₁.type = source₂.type
  fields : ∃ fields, event₁.fingerprintFields = some fields ∧
    event₂.fingerprintFields = some fields ∧ ∀ field ∈ fields,
      (event₁.property field).isSome = true ∧ event₁.property field = event₂.property field

/-- Two events that report one incident belong together. -/
theorem Reports.sameIncident {event₁ event₂ : OwnedEvent} {incident : Incident}
    (h₁ : Reports event₁ incident) (h₂ : Reports event₂ incident) : SameIncident event₁ event₂ where
  source := by
    obtain ⟨source₁, hsource₁, href₁, htype₁⟩ := h₁.source
    obtain ⟨source₂, hsource₂, href₂, htype₂⟩ := h₂.source
    exact ⟨source₁, source₂, hsource₁, hsource₂, href₁.trans href₂.symm, htype₁.trans htype₂.symm⟩
  fields := by
    refine ⟨fingerprintFields, h₁.fields, h₂.fields, fun field hfield => ?_⟩
    have hkey : event₁.property field ∈ incident.key := by
      rw [← h₁.values]
      exact List.mem_map_of_mem hfield
    exact ⟨Incident.isSome_of_mem_key hkey,
      List.map_inj_left.mp (h₁.values.trans h₂.values.symm) field hfield⟩

section Checks

variable {urlHost : UrlConfiguration → Option JString} {compile : JString → Option (JString → Bool)}

/-- The event of a check reports the incident of the check. -/
theorem ServiceCheck.toEvent_reports {check : ServiceCheck} {incident : Incident} {now : Date}
    {event : OwnedEvent} (hchecks : check.Checks urlHost incident)
    (hevent : check.toEvent compile now = .ok event) : Reports event incident := by
  obtain ⟨hservice, htest, hhost, hanswers⟩ := hchecks
  cases check with
  | ping serviceTest result =>
    cases hevent
    exact pingStatusToEvent_reports hservice htest (hanswers.trans hhost)
  | port serviceTest result =>
    cases hevent
    exact portInfoToEvent_reports hservice htest (hanswers.trans hhost)
  | ssh serviceTest result => exact sshResultToEvent_reports hservice htest hhost hevent
  | url serviceTest result =>
    cases hevent
    exact urlResultToEvent_reports hservice htest (hanswers.trans hhost)

/-- A check makes an event, unless its pattern is malformed. -/
theorem ServiceCheck.toEvent_ok_iff {check : ServiceCheck} {incident : Incident} {now : Date}
    (hchecks : check.Checks urlHost incident) :
    (∃ event, check.toEvent compile now = .ok event) ↔
      check.serviceTest.PatternCompiles compile := by
  cases check with
  | ping serviceTest result => exact ⟨fun _ => trivial, fun _ => ⟨_, rfl⟩⟩
  | port serviceTest result => exact ⟨fun _ => trivial, fun _ => ⟨_, rfl⟩⟩
  | ssh serviceTest result =>
    obtain ⟨text, htext⟩ := Option.isSome_iff_exists.mp hchecks.answers.1
    obtain ⟨regex, hregex⟩ := Option.isSome_iff_exists.mp hchecks.answers.2
    refine (sshResultToEvent_ok_iff htext hregex).trans ?_
    simp [AnyServiceTest.PatternCompiles, ServiceCheck.serviceTest, hregex]
  | url serviceTest result => exact ⟨fun _ => trivial, fun _ => ⟨_, rfl⟩⟩

end Checks

/-- A check makes an event unless its pattern is malformed.  Two events of one
service, test and host belong together and each has a verdict, and events of different
services, tests or hosts have different fingerprint values. -/
theorem recovery_closes_failure (urlHost : UrlConfiguration → Option JString)
    (compile : JString → Option (JString → Bool)) :
    (∀ check incident now, ServiceCheck.Checks urlHost check incident →
      ((∃ event, check.toEvent compile now = .ok event) ↔
        check.serviceTest.PatternCompiles compile)) ∧
    (∀ check₁ check₂ incident now₁ now₂ event₁ event₂,
      ServiceCheck.Checks urlHost check₁ incident → ServiceCheck.Checks urlHost check₂ incident →
      check₁.toEvent compile now₁ = .ok event₁ → check₂.toEvent compile now₂ = .ok event₂ →
        SameIncident event₁ event₂ ∧ Verdict event₁ ∧ Verdict event₂) ∧
    (∀ check₁ check₂ incident₁ incident₂ now₁ now₂ event₁ event₂, incident₁ ≠ incident₂ →
      ServiceCheck.Checks urlHost check₁ incident₁ → ServiceCheck.Checks urlHost check₂ incident₂ →
      check₁.toEvent compile now₁ = .ok event₁ → check₂.toEvent compile now₂ = .ok event₂ →
        fingerprintValues event₁ ≠ fingerprintValues event₂) := by
  refine ⟨fun _ _ _ hchecks => ServiceCheck.toEvent_ok_iff hchecks, ?_, ?_⟩
  · intro check₁ check₂ incident now₁ now₂ event₁ event₂ hchecks₁ hchecks₂ hevent₁ hevent₂
    have h₁ := ServiceCheck.toEvent_reports hchecks₁ hevent₁
    have h₂ := ServiceCheck.toEvent_reports hchecks₂ hevent₂
    exact ⟨h₁.sameIncident h₂, h₁.verdict, h₂.verdict⟩
  · intro check₁ check₂ incident₁ incident₂ now₁ now₂ event₁ event₂ hne hchecks₁ hchecks₂ hevent₁
      hevent₂ hvalues
    have h₁ := ServiceCheck.toEvent_reports hchecks₁ hevent₁
    have h₂ := ServiceCheck.toEvent_reports hchecks₂ hevent₂
    rw [h₁.fingerprintValues_eq, h₂.fingerprintValues_eq] at hvalues
    exact hne (Incident.key_injective hvalues)

/-- A ping test of a host. -/
def hostStatus (host : JString) : ServiceTest PingConfiguration PingServiceModel where
  name := some (utf16 "host status")
  serviceTestType := some (utf16 "ping")
  serviceName := some (utf16 "SDN Director")
  requestId := none
  configuration := ⟨some host, 10⟩
  model := {}

/-- A ping result of a host. -/
def pingResult (host : JString) (status : Option ServiceStatus) : PingResult :=
  ⟨some host, status, none, none, none, none, none⟩

/-- A host that is up again closes the event of its own failure, and not that
of another host. -/
theorem recovery_closes_failure_hostStatus :
    SameIncident
        (pingStatusToEvent (hostStatus (utf16 "a")) (pingResult (utf16 "a") ServiceStatus.FAIL))
        (pingStatusToEvent (hostStatus (utf16 "a")) (pingResult (utf16 "a") none)) ∧
      fingerprintValues
          (pingStatusToEvent (hostStatus (utf16 "b")) (pingResult (utf16 "b") ServiceStatus.FAIL)) ≠
        fingerprintValues
          (pingStatusToEvent (hostStatus (utf16 "a")) (pingResult (utf16 "a") none)) :=
  ⟨((recovery_closes_failure (fun _ => none) fun _ => none).2.1
      (.ping (hostStatus (utf16 "a")) (pingResult (utf16 "a") ServiceStatus.FAIL))
      (.ping (hostStatus (utf16 "a")) (pingResult (utf16 "a") none))
      ⟨utf16 "SDN Director", utf16 "host status", utf16 "a"⟩ 0 0 _ _
      ⟨rfl, rfl, rfl, rfl⟩ ⟨rfl, rfl, rfl, rfl⟩ rfl rfl).1,
    (recovery_closes_failure (fun _ => none) fun _ => none).2.2
      (.ping (hostStatus (utf16 "b")) (pingResult (utf16 "b") ServiceStatus.FAIL))
      (.ping (hostStatus (utf16 "a")) (pingResult (utf16 "a") none))
      ⟨utf16 "SDN Director", utf16 "host status", utf16 "b"⟩
      ⟨utf16 "SDN Director", utf16 "host status", utf16 "a"⟩ 0 0 _ _ (by decide)
      ⟨rfl, rfl, rfl, rfl⟩ ⟨rfl, rfl, rfl, rfl⟩ rfl rfl⟩

end BoundaryEventSdk.Service
