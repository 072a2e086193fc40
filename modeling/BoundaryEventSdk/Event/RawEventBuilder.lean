import Mathlib.Data.List.ReduceOption
import BoundaryEventSdk.Event.RawEvent

/-!
# `RawEventBuilder`

The builder stores its arguments as they are and truncates nothing.  `build`
makes a new event and calls the event's setter for each argument that is not
`null`.

The builder keeps the lists and the map it was given, not copies of them.  The
model stores their contents, so a caller that changes such a list before
`build` shows as one more call of the same setter with the new contents.
-/

namespace BoundaryEventSdk.Event

open BoundaryEventSdk.Java

/-- The fields of a `RawEventBuilder` over sources `S`.  The default values are
those of `new RawEventBuilder()`. -/
structure RawEventBuilder (S : Type) where
  createdAt : Option Date := none
  fingerprintFields : Option (List (Option JString)) := none
  message : Option JString := none
  organizationId : Option JString := none
  properties : Option Properties := none
  receivedAt : Option Date := none
  sender : Option S := none
  severity : Option Severity := none
  source : Option S := none
  status : Option Status := none
  tags : Option (List (Option JString)) := none
  title : Option JString := none
  deriving DecidableEq, Inhabited

namespace RawEventBuilder

variable {S : Type}

/-- `new RawEventBuilder()` and `RawEventBuilder.builder()`. -/
def new : RawEventBuilder S := {}

/-- The `set…` methods of the builder, each with its argument. -/
inductive Call (S : Type) where
  | setCreatedAt (createdAt : Option Date)
  | setFingerprintFields (fingerprintFields : Option (List (Option JString)))
  | setMessage (message : Option JString)
  | setOrganizationId (organizationId : Option JString)
  | setProperties (properties : Option Properties)
  | setReceivedAt (receivedAt : Option Date)
  | setSender (sender : Option S)
  | setSeverity (severity : Option Severity)
  | setSource (source : Option S)
  | setStatus (status : Option Status)
  | setTags (tags : Option (List (Option JString)))
  | setTitle (title : Option JString)

/-- A `set…` method stores its argument. -/
def apply (builder : RawEventBuilder S) : Call S → RawEventBuilder S
  | .setCreatedAt createdAt => { builder with createdAt := createdAt }
  | .setFingerprintFields fields => { builder with fingerprintFields := fields }
  | .setMessage message => { builder with message := message }
  | .setOrganizationId organizationId => { builder with organizationId := organizationId }
  | .setProperties properties => { builder with properties := properties }
  | .setReceivedAt receivedAt => { builder with receivedAt := receivedAt }
  | .setSender sender => { builder with sender := sender }
  | .setSeverity severity => { builder with severity := severity }
  | .setSource source => { builder with source := source }
  | .setStatus status => { builder with status := status }
  | .setTags tags => { builder with tags := tags }
  | .setTitle title => { builder with title := title }

/-- The setters that `build` calls on the new event, in order: one for each
argument that is not `null`. -/
def buildCalls (builder : RawEventBuilder S) : List (RawEvent.Call S) :=
  [builder.createdAt.map fun createdAt => .setCreatedAt createdAt,
    builder.fingerprintFields.map fun fields => .setFingerprintFields fields,
    builder.message.map fun message => .setMessage message,
    builder.organizationId.map fun organizationId => .setOrganizationId organizationId,
    builder.properties.map fun properties => .setProperties properties,
    builder.receivedAt.map fun receivedAt => .setReceivedAt receivedAt,
    builder.sender.map fun sender => .setSender sender,
    builder.severity.map fun severity => .setSeverity severity,
    builder.source.map fun source => .setSource source,
    builder.status.map fun status => .setStatus status,
    builder.tags.map fun tags => .setTags tags,
    builder.title.map fun title => .setTitle title].reduceOption

/-- `RawEventBuilder.build`. -/
def build (builder : RawEventBuilder S) : RawEvent S :=
  run (fun event call => (event.apply call).state) RawEvent.new builder.buildCalls

end RawEventBuilder

end BoundaryEventSdk.Event
