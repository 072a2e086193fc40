import BoundaryEventSdk.Event.RawEvent

/-!
# The two syslog translators

`SyslogToEventProcessor` either translates a syslog message itself, with the
severity and the status taken from two property files, or wraps the message in
a `SyslogMessageEvent`, which the script `syslog-to-event.js` translates with
its own tables.

The facility and the severity are constants of enumerations of Camel.  The code
stores the facility as an object and reads the names of both, so a constant is
its identity and its name.  Nothing is assumed about which names there are: a
severity without an entry in the tables is an exception on both sides.

* `getEventSeverity_eq` and `getEventStatus_eq`: the chains of the script are
  the property files, with a text of no constant for every other name.
* `translators_agree`: the script builds the event of the processor, with the
  name for the facility and the remote address on top.
-/

namespace BoundaryEventSdk.Syslog

open BoundaryEventSdk.Java
open BoundaryEventSdk.Event (Date OwnedEvent RawEvent Source Severity Status Obj)

/-- A constant of an enumeration: the object, and its `toString`. -/
structure EnumConstant where
  identity : Nat
  name : JString
  deriving DecidableEq, Repr

/-- The fields of a `SyslogMessage`.  The timestamp is the time of the
calendar. -/
structure SyslogMessage where
  facility : Option EnumConstant
  severity : Option EnumConstant
  hostname : Option JString
  localAddress : Option JString
  remoteAddress : Option JString
  logMessage : Option JString
  timestamp : Option Date
  deriving DecidableEq, Repr

/-- `SyslogMessageEvent`. -/
structure SyslogMessageEvent where
  facility : JString
  hostname : Option JString
  localAddress : Option JString
  logMessage : Option JString
  remoteAddress : Option JString
  severity : JString
  timestamp : Date
  deriving DecidableEq, Repr

/-- `new SyslogMessageEvent(message)`. -/
def SyslogMessageEvent.new (message : SyslogMessage) : Except Throwable SyslogMessageEvent := do
  let facility ← deref message.facility
  let severity ← deref message.severity
  let timestamp ← deref message.timestamp
  return {
    facility := facility.name
    hostname := message.hostname
    localAddress := message.localAddress
    logMessage := message.logMessage
    remoteAddress := message.remoteAddress
    severity := severity.name
    timestamp := timestamp }

/-! ## `SyslogToEventProcessor` -/

/-- `Properties`: the entries of a property file. -/
abbrev PropertyFile := List (JString × JString)

/-- `Properties.getProperty`. -/
def getProperty (properties : PropertyFile) (key : JString) : Option JString :=
  (properties.find? fun entry => entry.1 = key).map Prod.snd

/-- `syslog.severity.properties`. -/
def severityMap : PropertyFile :=
  [(utf16 "EMERG", utf16 "CRITICAL"), (utf16 "ALERT", utf16 "CRITICAL"),
    (utf16 "CRIT", utf16 "CRITICAL"), (utf16 "ERR", utf16 "ERROR"),
    (utf16 "WARNING", utf16 "WARN"), (utf16 "NOTICE", utf16 "INFO"),
    (utf16 "INFO", utf16 "INFO"), (utf16 "DEBUG", utf16 "INFO")]

/-- `syslog.status.properties`. -/
def statusMap : PropertyFile :=
  [(utf16 "EMERG", utf16 "OPEN"), (utf16 "ALERT", utf16 "OPEN"),
    (utf16 "CRIT", utf16 "OPEN"), (utf16 "ERR", utf16 "OPEN"),
    (utf16 "WARNING", utf16 "OPEN"), (utf16 "NOTICE", utf16 "OK"),
    (utf16 "INFO", utf16 "OK"), (utf16 "DEBUG", utf16 "OK")]

namespace SyslogToEventProcessor

def getEventSeverity (severity : EnumConstant) : Except Throwable Severity :=
  let strSeverity := getProperty severityMap severity.name
  Severity.valueOf strSeverity

def getEventStatus (severity : EnumConstant) : Except Throwable Status :=
  let strStatus := getProperty statusMap severity.name
  Status.valueOf strStatus

/-- `syslogMessageToEvent`, on a new event.  A `put` into `getProperties()` is
an `addProperty`. -/
def syslogMessageToEvent (sm : SyslogMessage) : Except Throwable OwnedEvent := do
  let e : OwnedEvent := RawEvent.new
  let e := e.addProperty (utf16 "facility") (sm.facility.map fun f => Obj.object f.identity)
  let facility ← deref sm.facility
  let e := e.addTag facility.name
  let e := e.updateSource fun source => (source.setRef sm.hostname).setType (utf16 "host")
  let e := e.addProperty (utf16 "hostname") (sm.hostname.map Obj.string)
  let e := e.addTag sm.hostname
  let e := e.setMessage sm.logMessage
  let e := e.addProperty (utf16 "message") (sm.logMessage.map Obj.string)
  let smSeverity ← deref sm.severity
  let severity ← getEventSeverity smSeverity
  let e := e.setSeverity severity
  let status ← getEventStatus smSeverity
  let e := e.setStatus status
  let e := e.addFingerprintField (utf16 "hostname")
  let e := e.addFingerprintField (utf16 "facility")
  let e := e.addFingerprintField (utf16 "message")
  let timestamp ← deref sm.timestamp
  let e := e.setCreatedAt timestamp
  let e := e.setTitle (utf16 "Syslog message from: " ++ display sm.hostname)
  let e := e.updateSender fun sender => sender.setRef (utf16 "Syslog")
  let e := e.updateSender fun sender => sender.setType (utf16 "Boundary Event SDK")
  return e

/-- The new body of the message. -/
inductive Body where
  | event (event : OwnedEvent)
  | syslogEvent (syslogEvent : SyslogMessageEvent)
  deriving DecidableEq

/-- `SyslogToEventProcessor.process`. -/
def process (convertToEvent : Bool) (syslogMessage : SyslogMessage) : Except Throwable Body :=
  if convertToEvent then (syslogMessageToEvent syslogMessage).map Body.event
  else (SyslogMessageEvent.new syslogMessage).map Body.syslogEvent

end SyslogToEventProcessor

/-! ## `syslog-to-event.js` -/

/-- `getEventSeverity` of the script. -/
def getEventSeverity (severity : JString) : JString :=
  if severity = utf16 "EMERG" ∨ severity = utf16 "ALERT" ∨ severity = utf16 "CRIT" then
    utf16 "CRITICAL"
  else if severity = utf16 "ERR" then utf16 "ERROR"
  else if severity = utf16 "WARNING" then utf16 "WARN"
  else if severity = utf16 "NOTICE" ∨ severity = utf16 "INFO" ∨ severity = utf16 "DEBUG" then
    utf16 "INFO"
  else utf16 "UNKNOWN"

/-- `getEventStatus` of the script. -/
def getEventStatus (severity : JString) : JString :=
  if severity = utf16 "EMERG" ∨ severity = utf16 "ALERT" ∨ severity = utf16 "CRIT" ∨
      severity = utf16 "ERR" ∨ severity = utf16 "WARNING" then
    utf16 "OPEN"
  else if severity = utf16 "NOTICE" ∨ severity = utf16 "INFO" ∨ severity = utf16 "DEBUG" then
    utf16 "OK"
  else utf16 "UNKNOWN"

/-- The script, whose `result` is the event.  `setSeverity` and `setStatus` get
strings here, so they are the overloads that parse. -/
def syslogToEvent (sm : SyslogMessageEvent) : Except Throwable OwnedEvent := do
  let e : OwnedEvent := RawEvent.new
  let e := e.addProperty (utf16 "facility") (Obj.string sm.facility)
  let e := e.addTag sm.facility
  let e := e.updateSource fun source => (source.setRef sm.hostname).setType (utf16 "host")
  let e := e.addProperty (utf16 "hostname") (sm.hostname.map Obj.string)
  let e := e.addTag sm.hostname
  let e := e.setMessage sm.logMessage
  let e := e.addProperty (utf16 "message") (sm.logMessage.map Obj.string)
  let e := e.addProperty (utf16 "remote_address") (sm.remoteAddress.map Obj.string)
  let e := e.addTag sm.remoteAddress
  let severity ← Severity.valueOf (getEventSeverity sm.severity)
  let e := e.setSeverity severity
  let status ← Status.valueOf (getEventStatus sm.severity)
  let e := e.setStatus status
  let e := e.addFingerprintField (utf16 "hostname")
  let e := e.addFingerprintField (utf16 "facility")
  let e := e.addFingerprintField (utf16 "message")
  let e := e.setCreatedAt sm.timestamp
  let e := e.setTitle (utf16 "Syslog message from: " ++ display sm.hostname)
  let e := e.updateSender fun sender => sender.setRef (utf16 "Syslog")
  let e := e.updateSender fun sender => sender.setType (utf16 "Boundary Event SDK")
  return e

/-! ## The two severity tables -/

/-- The severities that the tables know. -/
def severityNames : List JString :=
  [utf16 "EMERG", utf16 "ALERT", utf16 "CRIT", utf16 "ERR", utf16 "WARNING", utf16 "NOTICE",
    utf16 "INFO", utf16 "DEBUG"]

theorem getProperty_severityMap_of_unknown {severity : JString} (h : severity ∉ severityNames) :
    getProperty severityMap severity = none := by
  simp only [severityNames, List.mem_cons, List.not_mem_nil, or_false, not_or] at h
  simp [getProperty, severityMap, eq_comm, h]

theorem getProperty_statusMap_of_unknown {severity : JString} (h : severity ∉ severityNames) :
    getProperty statusMap severity = none := by
  simp only [severityNames, List.mem_cons, List.not_mem_nil, or_false, not_or] at h
  simp [getProperty, statusMap, eq_comm, h]

/-- The chain of the script is the property file, with a text of no constant
for a severity that the file does not list. -/
theorem getEventSeverity_eq (severity : JString) :
    getEventSeverity severity = (getProperty severityMap severity).getD (utf16 "UNKNOWN") := by
  have hknown : ∀ name ∈ severityNames,
      getEventSeverity name = (getProperty severityMap name).getD (utf16 "UNKNOWN") := by decide
  by_cases h : severity ∈ severityNames
  · exact hknown severity h
  · rw [getProperty_severityMap_of_unknown h]
    simp only [severityNames, List.mem_cons, List.not_mem_nil, or_false, not_or] at h
    simp [getEventSeverity, h]

/-- The same for the status. -/
theorem getEventStatus_eq (severity : JString) :
    getEventStatus severity = (getProperty statusMap severity).getD (utf16 "UNKNOWN") := by
  have hknown : ∀ name ∈ severityNames,
      getEventStatus name = (getProperty statusMap name).getD (utf16 "UNKNOWN") := by decide
  by_cases h : severity ∈ severityNames
  · exact hknown severity h
  · rw [getProperty_statusMap_of_unknown h]
    simp only [severityNames, List.mem_cons, List.not_mem_nil, or_false, not_or] at h
    simp [getEventStatus, h]

/-- The entry of a severity in a table whose entries all name a constant. -/
theorem exists_constant {α : Type} (properties : PropertyFile)
    (valueOf : Option JString → Except Throwable α)
    (hall : ∀ name ∈ severityNames,
      ((getProperty properties name).map fun text => (valueOf (some text)).toBool) = some true)
    {name : JString} (h : name ∈ severityNames) :
    ∃ text constant, getProperty properties name = some text ∧
      valueOf (some text) = .ok constant := by
  obtain ⟨text, htext, hok⟩ := Option.map_eq_some_iff.mp (hall name h)
  cases hvalue : valueOf (some text) with
  | error e =>
    rw [hvalue] at hok
    cases hok
  | ok constant => exact ⟨text, constant, htext, hvalue⟩

/-- A severity with an entry means the same constants on both sides. -/
theorem severity_agrees {severity : EnumConstant} (h : severity.name ∈ severityNames) :
    ∃ eventSeverity eventStatus,
      SyslogToEventProcessor.getEventSeverity severity = .ok eventSeverity ∧
      SyslogToEventProcessor.getEventStatus severity = .ok eventStatus ∧
      Severity.valueOf (getEventSeverity severity.name) = .ok eventSeverity ∧
      Status.valueOf (getEventStatus severity.name) = .ok eventStatus := by
  obtain ⟨text, eventSeverity, htext, hok⟩ :=
    exists_constant severityMap Severity.valueOf (by decide) h
  obtain ⟨statusText, eventStatus, hstatusText, hstatusOk⟩ :=
    exists_constant statusMap Status.valueOf (by decide) h
  refine ⟨eventSeverity, eventStatus, ?_, ?_, ?_, ?_⟩
  · rw [SyslogToEventProcessor.getEventSeverity, htext, hok]
  · rw [SyslogToEventProcessor.getEventStatus, hstatusText, hstatusOk]
  · rw [getEventSeverity_eq, htext]
    exact hok
  · rw [getEventStatus_eq, hstatusText]
    exact hstatusOk

/-- A severity without an entry is an exception on both sides. -/
theorem severity_unknown {severity : EnumConstant} (h : severity.name ∉ severityNames) :
    SyslogToEventProcessor.getEventSeverity severity = .error .nullPointer ∧
      Severity.valueOf (getEventSeverity severity.name) = .error .illegalArgument := by
  rw [SyslogToEventProcessor.getEventSeverity, getEventSeverity_eq,
    getProperty_severityMap_of_unknown h]
  exact ⟨rfl, rfl⟩

/-! ## The two events -/

/-- The event of the processor as the script builds it: the facility is its
name, and the remote address comes on top as a property and as a tag. -/
def scriptForm (facility : EnumConstant) (remoteAddress : Option JString) (event : OwnedEvent) :
    OwnedEvent :=
  let event := event.addProperty (utf16 "facility") (Obj.string facility.name)
  let event := event.addProperty (utf16 "remote_address") (remoteAddress.map Obj.string)
  event.addTag remoteAddress

/-- The fields that a `SyslogMessageEvent` copies from a complete message. -/
def copied (message : SyslogMessage) (facility severity : EnumConstant) (timestamp : Date) :
    SyslogMessageEvent where
  facility := facility.name
  hostname := message.hostname
  localAddress := message.localAddress
  logMessage := message.logMessage
  remoteAddress := message.remoteAddress
  severity := severity.name
  timestamp := timestamp

section Translation

variable {message : SyslogMessage} {facility severity : EnumConstant} {timestamp : Date}

theorem new_eq_copied (hfacility : message.facility = some facility)
    (hseverity : message.severity = some severity)
    (htimestamp : message.timestamp = some timestamp) :
    SyslogMessageEvent.new message = .ok (copied message facility severity timestamp) := by
  rw [SyslogMessageEvent.new, hfacility, hseverity, htimestamp]
  rfl

/-- The two translations side by side.  The severity goes through two tables,
and every other call is the same on both sides up to the facility object and
the remote address. -/
theorem syslogToEvent_eq_scriptForm (hfacility : message.facility = some facility)
    (hseverity : message.severity = some severity) (htimestamp : message.timestamp = some timestamp)
    (hname : severity.name ∈ severityNames) :
    ∃ event, SyslogToEventProcessor.syslogMessageToEvent message = .ok event ∧
      syslogToEvent (copied message facility severity timestamp) =
        .ok (scriptForm facility message.remoteAddress event) := by
  obtain ⟨eventSeverity, eventStatus, hsev, hstat, hscriptSev, hscriptStat⟩ :=
    severity_agrees hname
  rw [SyslogToEventProcessor.syslogMessageToEvent, hfacility, hseverity, htimestamp]
  simp only [deref_some, ok_bind, hsev, hstat]
  refine ⟨_, rfl, ?_⟩
  simp only [syslogToEvent, copied, hscriptSev, hscriptStat, ok_bind]
  refine congrArg Except.ok ?_
  simp only [scriptForm, RawEvent.addProperty, RawEvent.addTag, RawEvent.setMessage,
    RawEvent.setSeverity, RawEvent.setStatus, RawEvent.addFingerprintField, RawEvent.setCreatedAt,
    RawEvent.setTitle, RawEvent.updateSource, RawEvent.updateSender, RawEvent.new]
  simp +decide [LinkedHashMap.put, LinkedHashMap.putEntries]

theorem translations_throw (hfacility : message.facility = some facility)
    (hseverity : message.severity = some severity) (hname : severity.name ∉ severityNames) :
    SyslogToEventProcessor.syslogMessageToEvent message = .error .nullPointer ∧
      syslogToEvent (copied message facility severity timestamp) = .error .illegalArgument := by
  obtain ⟨hsev, hscriptSev⟩ := severity_unknown hname
  rw [SyslogToEventProcessor.syslogMessageToEvent, hfacility, hseverity]
  simp only [syslogToEvent, copied, deref_some, ok_bind, hsev, hscriptSev, error_bind, and_self]

/-- The wrapped message goes through the script to the event of the processor,
with the facility by name and the remote address on top.  For a severity that
no table lists, neither translator makes an event. -/
theorem translators_agree (hfacility : message.facility = some facility)
    (hseverity : message.severity = some severity)
    (htimestamp : message.timestamp = some timestamp) :
    ∃ syslogEvent, SyslogToEventProcessor.process false message = .ok (.syslogEvent syslogEvent) ∧
      (severity.name ∈ severityNames →
        ∃ event, SyslogToEventProcessor.process true message = .ok (.event event) ∧
          syslogToEvent syslogEvent = .ok (scriptForm facility message.remoteAddress event)) ∧
      (severity.name ∉ severityNames →
        SyslogToEventProcessor.process true message = .error .nullPointer ∧
          syslogToEvent syslogEvent = .error .illegalArgument) := by
  refine ⟨copied message facility severity timestamp, ?_, ?_, ?_⟩
  · rw [SyslogToEventProcessor.process, new_eq_copied hfacility hseverity htimestamp]
    rfl
  · intro hname
    obtain ⟨event, hevent, hscript⟩ :=
      syslogToEvent_eq_scriptForm hfacility hseverity htimestamp hname
    refine ⟨event, ?_, hscript⟩
    rw [SyslogToEventProcessor.process, hevent]
    rfl
  · intro hname
    obtain ⟨hthrown, hscript⟩ := translations_throw hfacility hseverity hname
    refine ⟨?_, hscript⟩
    rw [SyslogToEventProcessor.process, hthrown]
    rfl

end Translation

/-- An alert of a daemon on a host without a name, in which the agreement is
about events that exist. -/
theorem translators_agree_alert :
    ∃ syslogEvent event,
      SyslogToEventProcessor.process true
        ⟨some ⟨3, utf16 "DAEMON"⟩, some ⟨1, utf16 "ALERT"⟩, none, none, some (utf16 "10.0.0.1:514"),
          some (utf16 "disk"), some 0⟩ = .ok (.event event) ∧
      syslogToEvent syslogEvent =
        .ok (scriptForm ⟨3, utf16 "DAEMON"⟩ (some (utf16 "10.0.0.1:514")) event) := by
  obtain ⟨syslogEvent, _, hknown, _⟩ := @translators_agree
    ⟨some ⟨3, utf16 "DAEMON"⟩, some ⟨1, utf16 "ALERT"⟩, none, none, some (utf16 "10.0.0.1:514"),
      some (utf16 "disk"), some 0⟩ ⟨3, utf16 "DAEMON"⟩ ⟨1, utf16 "ALERT"⟩ 0 rfl rfl rfl
  obtain ⟨event, hevent, hscript⟩ := hknown (by decide)
  exact ⟨syslogEvent, event, hevent, hscript⟩

end BoundaryEventSdk.Syslog
