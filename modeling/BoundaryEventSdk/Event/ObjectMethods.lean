import BoundaryEventSdk.Event.RawEvent
import BoundaryEventSdk.Java.Equality

/-!
# `equals`, `hashCode` and `toString` of events and sources

The three methods read the fields of an event and of its two sources and write
none.  All of them tell a field that is `null` from one that holds an empty
collection or a default.

An enumeration constant and an object without a `hashCode` of its own hash to a
number that the virtual machine chooses, and the text of a date depends on the
time zone.  `HashCodes` and `Texts` stand for these.
-/

namespace BoundaryEventSdk.Event

open BoundaryEventSdk.Java

/-- The hash codes that the code does not fix. -/
structure HashCodes where
  severity : Severity → UInt32
  status : Status → UInt32
  number : Int → UInt32
  object : Nat → UInt32

/-- The texts that the code does not fix. -/
structure Texts where
  date : Date → JString
  object : Nat → JString

/-- `hashCode` of a property value. -/
def Obj.hashCode (hashes : HashCodes) : Obj → UInt32
  | .string text => Java.hashCode text
  | .number value => hashes.number value
  | .object identity => hashes.object identity

/-- `toString` of a property value. -/
def Obj.toString (texts : Texts) : Obj → JString
  | .string text => text
  | .number value => decimal value
  | .object identity => texts.object identity

/-- `Date.hashCode`. -/
def dateHashCode (date : Date) : UInt32 :=
  longHashCode (Int64.ofInt date)

/-- `hashCode` of a list of strings. -/
def listHashCode (list : List (Option JString)) : UInt32 :=
  combineHashes (list.map hashOf)

/-- `hashCode` of a map of properties. -/
def propertiesHashCode (hashes : HashCodes) (properties : Properties) : UInt32 :=
  properties.hashCode hashOf (fieldHash (Obj.hashCode hashes))

/-- `toString` of a list of strings. -/
def listToString (list : List (Option JString)) : JString :=
  utf16 "[" ++ (utf16 ", ").intercalate (list.map display) ++ utf16 "]"

/-- `toString` of a map of properties. -/
def propertiesToString (texts : Texts) (properties : Properties) : JString :=
  utf16 "\x7b" ++
    (utf16 ", ").intercalate (properties.entries.map fun entry =>
      display entry.1 ++ utf16 "=" ++ display (entry.2.map (Obj.toString texts))) ++
    utf16 "\x7d"

/-- `name == null ? "" : label + name`. -/
def labelled {α : Type} (label : String) (toString : α → JString) (field : Option α) : JString :=
  field.elim [] fun a => utf16 label ++ toString a

namespace Source

/-- `Source.equals`, for another source. -/
def equals (source other : Source) : Bool :=
  fieldEquals (· == ·) source.name other.name &&
    fieldEquals LinkedHashMap.equals source.properties other.properties &&
    fieldEquals (· == ·) source.ref other.ref &&
    fieldEquals (· == ·) source.type other.type

/-- `Source.hashCode`. -/
def hashCode (hashes : HashCodes) (source : Source) : UInt32 :=
  combineHashes [hashOf source.name, fieldHash (propertiesHashCode hashes) source.properties,
    hashOf source.ref, hashOf source.type]

/-- `Source.toString`. -/
def toString (texts : Texts) (source : Source) : JString :=
  labelled "ref: " id source.ref ++ labelled ",type: " id source.type ++
    labelled ",name: " id source.name ++
    labelled ",properties: " (propertiesToString texts) source.properties

@[simp] theorem equals_refl (source : Source) : source.equals source = true := by
  have hproperties := fieldEquals_refl LinkedHashMap.equals_refl source.properties
  simp [equals, hproperties]

end Source

/-- The name of a severity. -/
def Severity.toString : Severity → JString
  | .INFO => utf16 "INFO"
  | .WARN => utf16 "WARN"
  | .ERROR => utf16 "ERROR"
  | .CRITICAL => utf16 "CRITICAL"

/-- The name of a status. -/
def Status.toString : Status → JString
  | .OPEN => utf16 "OPEN"
  | .CLOSED => utf16 "CLOSED"
  | .ACKNOWLEDGED => utf16 "ACKNOWLEDGED"
  | .OK => utf16 "OK"

namespace RawEvent

/-- `RawEvent.equals`, for another event. -/
def equals (event other : OwnedEvent) : Bool :=
  fieldEquals (· == ·) event.createdAt other.createdAt &&
    fieldEquals (· == ·) event.fingerprintFields other.fingerprintFields &&
    fieldEquals (· == ·) event.message other.message &&
    fieldEquals (· == ·) event.organizationId other.organizationId &&
    fieldEquals LinkedHashMap.equals event.properties other.properties &&
    fieldEquals (· == ·) event.receivedAt other.receivedAt &&
    fieldEquals Source.equals event.sender other.sender &&
    event.severity == other.severity &&
    fieldEquals Source.equals event.source other.source &&
    event.status == other.status &&
    fieldEquals (· == ·) event.tags other.tags &&
    fieldEquals (· == ·) event.title other.title

/-- `RawEvent.hashCode`. -/
def hashCode (hashes : HashCodes) (event : OwnedEvent) : UInt32 :=
  combineHashes [
    fieldHash dateHashCode event.createdAt,
    fieldHash listHashCode event.fingerprintFields,
    hashOf event.message,
    hashOf event.organizationId,
    fieldHash (propertiesHashCode hashes) event.properties,
    fieldHash dateHashCode event.receivedAt,
    fieldHash (Source.hashCode hashes) event.sender,
    fieldHash hashes.severity event.severity,
    fieldHash (Source.hashCode hashes) event.source,
    fieldHash hashes.status event.status,
    fieldHash listHashCode event.tags,
    hashOf event.title]

/-- `RawEvent.toString`. -/
def toString (texts : Texts) (event : OwnedEvent) : JString :=
  labelled "createdAt: " texts.date event.createdAt ++
    labelled ",fingerprintFields: " listToString event.fingerprintFields ++
    labelled ",message: " id event.message ++
    labelled ",organizationId: " id event.organizationId ++
    labelled ",properties => " (propertiesToString texts) event.properties ++
    labelled ",receivedAt: " texts.date event.receivedAt ++
    labelled ",sender => " (Source.toString texts) event.sender ++
    labelled ",severity: " Severity.toString event.severity ++
    labelled ",source => " (Source.toString texts) event.source ++
    labelled ",status: " Status.toString event.status ++
    labelled ",tags: " listToString event.tags ++
    labelled ",title: " id event.title

theorem equals_refl (event : OwnedEvent) : event.equals event = true := by
  have hproperties := fieldEquals_refl LinkedHashMap.equals_refl event.properties
  have hsender := fieldEquals_refl Source.equals_refl event.sender
  have hsource := fieldEquals_refl Source.equals_refl event.source
  simp [equals, hproperties, hsender, hsource]

end RawEvent

end BoundaryEventSdk.Event
