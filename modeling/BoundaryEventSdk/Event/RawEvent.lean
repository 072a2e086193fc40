import BoundaryEventSdk.Event.Source

/-!
# `RawEvent`

The event that is sent to Boundary.  Every field starts as `null`.  The getter
of a list, a map, a severity or a status stores the default it returns when it
finds `null`, so a getter may change the event.

The type is generic in what stands in the `source` and `sender` fields.  Code
that builds one event owns its two sources, and `OwnedEvent` holds them by value.
Where several objects share a source, the fields hold references
(`BoundaryEventSdk.Event.ObjectGraph`).

The setters for lists and maps name their parameter like the field.  Their
`if (x == null) initX()` therefore tests the argument and resets the field, and
the truncation then throws on the `null` argument.
-/

namespace BoundaryEventSdk.Event

open BoundaryEventSdk.Java

/-- `Severity`. -/
inductive Severity where
  | INFO
  | WARN
  | ERROR
  | CRITICAL
  deriving DecidableEq, Repr

/-- `Status`. -/
inductive Status where
  | OPEN
  | CLOSED
  | ACKNOWLEDGED
  | OK
  deriving DecidableEq, Repr

/-- `Severity.valueOf`: the constant of that name, or what is thrown. -/
def Severity.valueOf (name : Option JString) : Except Throwable Severity := do
  let name ← deref name
  if name = utf16 "INFO" then return .INFO
  else if name = utf16 "WARN" then return .WARN
  else if name = utf16 "ERROR" then return .ERROR
  else if name = utf16 "CRITICAL" then return .CRITICAL
  else throw .illegalArgument

/-- `Status.valueOf`: the constant of that name, or what is thrown. -/
def Status.valueOf (name : Option JString) : Except Throwable Status := do
  let name ← deref name
  if name = utf16 "OPEN" then return .OPEN
  else if name = utf16 "CLOSED" then return .CLOSED
  else if name = utf16 "ACKNOWLEDGED" then return .ACKNOWLEDGED
  else if name = utf16 "OK" then return .OK
  else throw .illegalArgument

/-- A `java.util.Date`, in milliseconds. -/
abbrev Date := Int

/-- The fields of a `RawEvent` over sources `S`.  The default values are those
of `new RawEvent()`. -/
structure RawEvent (S : Type) where
  createdAt : Option Date := none
  fingerprintFields : Option (List (Option JString)) := none
  message : Option JString := none
  organizationId : Option JString := none
  properties : Option Properties := none
  receivedAt : Option Date := none
  sender : Option S := none
  severity : Option Severity := none
  source : Option S := none
  status : Option Status := none
  tags : Option (List (Option JString)) := none
  title : Option JString := none
  deriving DecidableEq, Inhabited

/-- An event that owns its source and its sender. -/
abbrev OwnedEvent := RawEvent Source

namespace RawEvent

variable {S : Type}

/-- `new RawEvent()`. -/
def new : RawEvent S := {}

def setCreatedAt (event : RawEvent S) (createdAt : Option Date) : RawEvent S :=
  { event with createdAt := createdAt }

/-! ## Fingerprint fields -/

def initFingerprintFields (event : RawEvent S) : RawEvent S :=
  { event with fingerprintFields := some [] }

def getFingerprintFields (event : RawEvent S) : List (Option JString) × RawEvent S :=
  let fields := event.fingerprintFields.getD []
  (fields, { event with fingerprintFields := some fields })

def addFingerprintField (event : RawEvent S) (fingerPrintFieldName : Option JString) :
    RawEvent S :=
  let fields := event.fingerprintFields.getD []
  { event with
    fingerprintFields := some (fields ++ [truncateToMaximumLength fingerPrintFieldName]) }

/-- `List.remove(Object)` drops the first equal element. -/
def removeFingerprintField (event : RawEvent S) (fieldName : Option JString) : RawEvent S :=
  { event with
    fingerprintFields := event.fingerprintFields.map fun fields => fields.erase fieldName }

def setFingerprintFields (event : RawEvent S) (fingerprintFields : Option (List (Option JString))) :
    Outcome (RawEvent S) :=
  match fingerprintFields with
  | some fields => { state := { event with fingerprintFields := some (truncateList fields) } }
  | none => { state := event.initFingerprintFields, thrown := some .nullPointer }

/-! ## Message, organization and properties -/

def setMessage (event : RawEvent S) (message : Option JString) : RawEvent S :=
  { event with message := truncateToMaximumLength message }

def setOrganizationId (event : RawEvent S) (organizationId : Option JString) : RawEvent S :=
  { event with organizationId := organizationId }

def initProperties (event : RawEvent S) : RawEvent S :=
  { event with properties := some .empty }

/-- `RawEvent.addProperty` stores the name and the value as they are. -/
def addProperty (event : RawEvent S) (propertyName : Option JString) (propertyValue : Option Obj) :
    RawEvent S :=
  let properties := event.properties.getD .empty
  { event with properties := some (properties.put propertyName propertyValue) }

def removeProperty (event : RawEvent S) (propertyName : Option JString) : RawEvent S :=
  { event with properties := event.properties.map fun properties => properties.remove propertyName }

def getProperties (event : RawEvent S) : Properties × RawEvent S :=
  let properties := event.properties.getD .empty
  (properties, { event with properties := some properties })

def setProperties (event : RawEvent S) (properties : Option Properties) : Outcome (RawEvent S) :=
  match properties with
  | some properties => { state := { event with properties := some (truncateMap properties) } }
  | none => { state := event.initProperties, thrown := some .nullPointer }

def setReceivedAt (event : RawEvent S) (receivedAt : Option Date) : RawEvent S :=
  { event with receivedAt := receivedAt }

/-! ## Sender, severity, source and status

A `null` argument of these setters first creates a default, and the assignment
that follows overwrites it with the `null`. -/

def setSender (event : RawEvent S) (sender : Option S) : RawEvent S :=
  { event with sender := sender }

def getSeverity (event : RawEvent S) : Severity × RawEvent S :=
  let severity := event.severity.getD .INFO
  (severity, { event with severity := some severity })

def setSeverity (event : RawEvent S) (severity : Option Severity) : RawEvent S :=
  { event with severity := severity }

/-- `RawEvent.setSeverity(String)`. -/
def setSeverityString (event : RawEvent S) (severity : Option JString) : Outcome (RawEvent S) :=
  match Severity.valueOf severity with
  | .ok enumSeverity => { state := event.setSeverity enumSeverity }
  | .error e => { state := event, thrown := some e }

def setSource (event : RawEvent S) (source : Option S) : RawEvent S :=
  { event with source := source }

def getStatus (event : RawEvent S) : Status × RawEvent S :=
  let status := event.status.getD .OK
  (status, { event with status := some status })

def setStatus (event : RawEvent S) (status : Option Status) : RawEvent S :=
  { event with status := status }

/-- `RawEvent.setStatus(String)`. -/
def setStatusString (event : RawEvent S) (status : Option JString) : Outcome (RawEvent S) :=
  match Status.valueOf status with
  | .ok enumStatus => { state := event.setStatus enumStatus }
  | .error e => { state := event, thrown := some e }

/-! ## Title and tags -/

def setTitle (event : RawEvent S) (title : Option JString) : RawEvent S :=
  { event with title := truncateToMaximumLength title }

def initializeTags (event : RawEvent S) : RawEvent S :=
  { event with tags := some [] }

def setTags (event : RawEvent S) (tags : Option (List (Option JString))) : Outcome (RawEvent S) :=
  match tags with
  | some tags => { state := { event with tags := some (truncateList tags) } }
  | none => { state := event.initializeTags, thrown := some .nullPointer }

def addTag (event : RawEvent S) (tag : Option JString) : RawEvent S :=
  let tags := event.tags.getD []
  { event with tags := some (tags ++ [truncateToMaximumLength tag]) }

def removeTag (event : RawEvent S) (tag : Option JString) : RawEvent S :=
  { event with tags := event.tags.map fun tags => tags.erase tag }

def getTags (event : RawEvent S) : List (Option JString) × RawEvent S :=
  let tags := event.tags.getD []
  (tags, { event with tags := some tags })

/-! ## Calls

`getSender` and `getSource` may create an object, so they are calls of the
object graph and not of one event. -/

/-- The methods of an existing event, each with its arguments. -/
inductive Call (S : Type) where
  | setCreatedAt (createdAt : Option Date)
  | getFingerprintFields
  | addFingerprintField (fingerPrintFieldName : Option JString)
  | removeFingerprintField (fieldName : Option JString)
  | setFingerprintFields (fingerprintFields : Option (List (Option JString)))
  | setMessage (message : Option JString)
  | setOrganizationId (organizationId : Option JString)
  | addProperty (propertyName : Option JString) (propertyValue : Option Obj)
  | removeProperty (propertyName : Option JString)
  | getProperties
  | setProperties (properties : Option Properties)
  | setReceivedAt (receivedAt : Option Date)
  | setSender (sender : Option S)
  | getSeverity
  | setSeverity (severity : Option Severity)
  | setSeverityString (severity : Option JString)
  | setSource (source : Option S)
  | getStatus
  | setStatus (status : Option Status)
  | setStatusString (status : Option JString)
  | setTitle (title : Option JString)
  | setTags (tags : Option (List (Option JString)))
  | addTag (tag : Option JString)
  | removeTag (tag : Option JString)
  | getTags

/-- What a method call does to the event. -/
def apply (event : RawEvent S) : Call S → Outcome (RawEvent S)
  | .setCreatedAt createdAt => { state := event.setCreatedAt createdAt }
  | .getFingerprintFields => { state := event.getFingerprintFields.2 }
  | .addFingerprintField name => { state := event.addFingerprintField name }
  | .removeFingerprintField name => { state := event.removeFingerprintField name }
  | .setFingerprintFields fields => event.setFingerprintFields fields
  | .setMessage message => { state := event.setMessage message }
  | .setOrganizationId organizationId => { state := event.setOrganizationId organizationId }
  | .addProperty name value => { state := event.addProperty name value }
  | .removeProperty name => { state := event.removeProperty name }
  | .getProperties => { state := event.getProperties.2 }
  | .setProperties properties => event.setProperties properties
  | .setReceivedAt receivedAt => { state := event.setReceivedAt receivedAt }
  | .setSender sender => { state := event.setSender sender }
  | .getSeverity => { state := event.getSeverity.2 }
  | .setSeverity severity => { state := event.setSeverity severity }
  | .setSeverityString severity => event.setSeverityString severity
  | .setSource source => { state := event.setSource source }
  | .getStatus => { state := event.getStatus.2 }
  | .setStatus status => { state := event.setStatus status }
  | .setStatusString status => event.setStatusString status
  | .setTitle title => { state := event.setTitle title }
  | .setTags tags => event.setTags tags
  | .addTag tag => { state := event.addTag tag }
  | .removeTag tag => { state := event.removeTag tag }
  | .getTags => { state := event.getTags.2 }

/-- A name of no severity leaves the event as it was. -/
theorem setSeverityString_state (event : RawEvent S) (name : Option JString) :
    ∃ severity, (event.setSeverityString name).state = event.setSeverity severity := by
  unfold setSeverityString
  split
  · exact ⟨_, rfl⟩
  · exact ⟨event.severity, rfl⟩

/-- A name of no status leaves the event as it was. -/
theorem setStatusString_state (event : RawEvent S) (name : Option JString) :
    ∃ status, (event.setStatusString name).state = event.setStatus status := by
  unfold setStatusString
  split
  · exact ⟨_, rfl⟩
  · exact ⟨event.status, rfl⟩

/-! ## The two sources of an event that owns them -/

/-- `event.getSource()` followed by calls on the source it returns. -/
def updateSource (event : OwnedEvent) (f : Source → Source) : OwnedEvent :=
  { event with source := some (f (event.source.getD Source.new)) }

/-- `event.getSender()` followed by calls on the sender it returns. -/
def updateSender (event : OwnedEvent) (f : Source → Source) : OwnedEvent :=
  { event with sender := some (f (event.sender.getD Source.new)) }

/-! ## Reading a property -/

/-- `event.getProperties().get(name)`, with `none` for an absent name. -/
def property (event : RawEvent S) (name : Option JString) : Option (Option Obj) :=
  (event.properties.getD .empty).get name

/-- What Boundary deduplicates an event by: its fingerprint fields, each with
the value of the property that it names. -/
def fingerprint (event : RawEvent S) : List (Option JString × Option (Option Obj)) :=
  (event.fingerprintFields.getD []).map fun field => (field, event.property field)

theorem property_addProperty (event : RawEvent S) (propertyName name : Option JString)
    (propertyValue : Option Obj) :
    (event.addProperty propertyName propertyValue).property name =
      if name = propertyName then some propertyValue else event.property name :=
  LinkedHashMap.get_put _ _ _ _

@[simp] theorem property_setTitle (event : RawEvent S) (title name : Option JString) :
    (event.setTitle title).property name = event.property name := rfl

@[simp] theorem property_setMessage (event : RawEvent S) (message name : Option JString) :
    (event.setMessage message).property name = event.property name := rfl

@[simp] theorem property_setSeverity (event : RawEvent S) (severity : Option Severity)
    (name : Option JString) : (event.setSeverity severity).property name = event.property name :=
  rfl

@[simp] theorem property_setStatus (event : RawEvent S) (status : Option Status)
    (name : Option JString) : (event.setStatus status).property name = event.property name :=
  rfl

@[simp] theorem property_setCreatedAt (event : RawEvent S) (createdAt : Option Date)
    (name : Option JString) : (event.setCreatedAt createdAt).property name = event.property name :=
  rfl

@[simp] theorem property_addTag (event : RawEvent S) (tag name : Option JString) :
    (event.addTag tag).property name = event.property name := rfl

@[simp] theorem property_addFingerprintField (event : RawEvent S) (field name : Option JString) :
    (event.addFingerprintField field).property name = event.property name := rfl

@[simp] theorem property_setSource (event : RawEvent S) (source : Option S)
    (name : Option JString) : (event.setSource source).property name = event.property name := rfl

@[simp] theorem property_setSender (event : RawEvent S) (sender : Option S)
    (name : Option JString) : (event.setSender sender).property name = event.property name := rfl

@[simp] theorem property_updateSource (event : OwnedEvent) (f : Source → Source)
    (name : Option JString) : (event.updateSource f).property name = event.property name := rfl

@[simp] theorem property_updateSender (event : OwnedEvent) (f : Source → Source)
    (name : Option JString) : (event.updateSender f).property name = event.property name := rfl

end RawEvent

end BoundaryEventSdk.Event
