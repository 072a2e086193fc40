import BoundaryEventSdk.Event.Truncation
import BoundaryEventSdk.Java.Outcome

/-!
# `Source`

The source or the sender of an event.  The three string fields go through the
truncation helper, in the constructors as well, since each constructor calls
the setters.  `setProperties` and `addProperty` treat names and values
differently: the first truncates the values only, the second the name only.
-/

namespace BoundaryEventSdk.Event

open BoundaryEventSdk.Java

/-- `Source.DEFAULT_SOURCE_TYPE`. -/
def defaultSourceType : JString := utf16 "host"

/-- The fields of a `Source`.  The default values are those of `new Source()`. -/
structure Source where
  ref : Option JString := none
  type : Option JString := none
  name : Option JString := none
  properties : Option Properties := none
  deriving DecidableEq, Inhabited

namespace Source

/-- `new Source()`. -/
def new : Source := {}

def setRef (source : Source) (ref : Option JString) : Source :=
  { source with ref := truncateToMaximumLength ref }

def setType (source : Source) (type : Option JString) : Source :=
  { source with type := truncateToMaximumLength type }

def setName (source : Source) (name : Option JString) : Source :=
  { source with name := truncateToMaximumLength name }

/-- `Source.initializeProperties`. -/
def initializeProperties (source : Source) : Source :=
  { source with properties := some .empty }

/-- `Source.getProperties`: the map, created when there is none. -/
def getProperties (source : Source) : Properties × Source :=
  let properties := source.properties.getD .empty
  (properties, { source with properties := some properties })

/-- `Source.setProperties`.  The parameter shadows the field, so `null` empties
the field before the truncation dereferences it. -/
def setProperties (source : Source) (properties : Option Properties) : Outcome Source :=
  match properties with
  | some properties => { state := { source with properties := some (truncateMap properties) } }
  | none => { state := source.initializeProperties, thrown := some .nullPointer }

/-- `Source.addProperty`. -/
def addProperty (source : Source) (key : Option JString) (value : Option Obj) : Source :=
  let properties := source.properties.getD .empty
  { source with properties := some (properties.put (truncateToMaximumLength key) value) }

/-! ## Constructors -/

/-- `new Source(ref)`. -/
def ofRef (ref : Option JString) : Source :=
  (new.setRef ref).setType defaultSourceType

/-- `new Source(ref, type)`. -/
def ofRefType (ref type : Option JString) : Source :=
  (new.setRef ref).setType type

/-- `new Source(ref, type, name)`. -/
def ofRefTypeName (ref type name : Option JString) : Source :=
  ((new.setRef ref).setType type).setName name

/-- `new Source(ref, type, name, properties)`. -/
def ofRefTypeNameProperties (ref type name : Option JString) (properties : Option Properties) :
    Outcome Source :=
  (((new.setRef ref).setType type).setName name).setProperties properties

/-! ## Calls -/

/-- The methods of an existing source, each with its arguments. -/
inductive Call where
  | setRef (ref : Option JString)
  | setType (type : Option JString)
  | setName (name : Option JString)
  | getProperties
  | setProperties (properties : Option Properties)
  | addProperty (key : Option JString) (value : Option Obj)

/-- What a method call does to the source. -/
def apply (source : Source) : Call → Outcome Source
  | .setRef ref => { state := source.setRef ref }
  | .setType type => { state := source.setType type }
  | .setName name => { state := source.setName name }
  | .getProperties => { state := source.getProperties.2 }
  | .setProperties properties => source.setProperties properties
  | .addProperty key value => { state := source.addProperty key value }

end Source

end BoundaryEventSdk.Event
