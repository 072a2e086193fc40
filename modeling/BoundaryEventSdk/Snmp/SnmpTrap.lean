import BoundaryEventSdk.Event.RawEvent
import BoundaryEventSdk.Snmp.VariableBinding

/-!
# `SnmpTrap`: from a trap to an event

`SnmpMessageToTrap` wraps the variable bindings of a trap in a `SnmpTrap` and
gives it a name, and the script `snmp-trap-to-event.js` makes the event.

Both ask a MIB for objects.  The MIB is whatever modules are loaded, so the
lookup is a parameter: any partial function from OIDs to objects.  The texts
that SNMP4J prints for an OID and for a value depend on the installed formats
and are parameters of the script.
-/

namespace BoundaryEventSdk.Snmp

open BoundaryEventSdk.Java
open BoundaryEventSdk.Event (Date OwnedEvent RawEvent Source Severity Status Obj)

/-- The types of MIB objects, as far as the code compares them. -/
inductive SmiType where
  | NOTIFICATION_TYPE
  | OBJECT_TYPE_SCALAR
  | other (ordinal : Nat)
  deriving DecidableEq, Repr

/-- An object of a MIB. -/
structure SmiObject where
  type : SmiType
  objectName : JString
  deriving DecidableEq, Repr

/-- `SmiManager.findSmiObject`. -/
abbrev SmiManager := Oid → Option SmiObject

/-- The fields of an `SnmpTrap` that the code reads.  The default values are
those of `new SnmpTrap()`. -/
structure SnmpTrap where
  variableBindings : List VariableBinding := []
  trapName : Option JString := some []
  host : Option JString := some (utf16 "localhost")
  raw : Bool := true
  deriving DecidableEq, Repr

/-! ## `SnmpMessageToTrap` -/

/-- The name of the object with this OID, if it is a notification. -/
def notificationName (smiManager : SmiManager) (oid : Oid) : Option JString :=
  match smiManager oid with
  | some object => if object.type = .NOTIFICATION_TYPE then some object.objectName else none
  | none => none

/-- `SnmpMessageToTrap.setTrapName`. -/
def setTrapName (smiManager : SmiManager) (snmpTrap : SnmpTrap) (varBinds : List VariableBinding) :
    SnmpTrap :=
  varBinds.foldl (fun snmpTrap vb =>
    match notificationName smiManager vb.oid with
    | some objectName => { snmpTrap with trapName := some objectName }
    | none => snmpTrap) snmpTrap

/-- `SnmpExchangeUtils.extractHost`, from the `peerAddress` header.  `split`
drops trailing empty parts, so a header of slashes alone has no part at all. -/
def extractHost (peerAddress : Option JString) : Except Throwable JString := do
  let header ← deref peerAddress
  if header ≠ [] ∧ header.all (· == 47) then .error .arrayIndexOutOfBounds
  else .ok (header.takeWhile (· ≠ 47))

/-- `SnmpMessageToTrap.process`: the new body of the message. -/
def messageToTrap (smiManager : SmiManager) (varBinds : List VariableBinding)
    (peerAddress : Option JString) : Except Throwable SnmpTrap := do
  let snmpTrap := setTrapName smiManager {} varBinds
  let snmpTrap := { snmpTrap with variableBindings := varBinds }
  let host ← extractHost peerAddress
  return { snmpTrap with host := some host }

/-! ## `snmp-trap-to-event.js` -/

/-- The texts that SNMP4J prints. -/
structure TextFormat where
  /-- `OID.toString`. -/
  oid : Oid → JString
  /-- `VariableBinding.toValueString`. -/
  value : VariableBinding → JString

/-- The property name of a variable binding. -/
def propertyName (smiManager : SmiManager) (format : TextFormat) (oid : Oid) : JString :=
  match smiManager oid with
  | some obj => obj.objectName
  | none => format.oid oid

/-- The body of the loop in `trapToEvent`. -/
def addVarBind (smiManager : SmiManager) (format : TextFormat) (event : OwnedEvent)
    (vb : VariableBinding) : OwnedEvent :=
  let name := propertyName smiManager format vb.oid
  (event.addProperty name (some (.string (format.value vb)))).addFingerprintField name

/-- `trapToEvent`, on a new event. -/
def trapToEvent (smiManager : SmiManager) (format : TextFormat) (now : Date) (trap : SnmpTrap) :
    OwnedEvent :=
  let event := (RawEvent.new : OwnedEvent).setCreatedAt (some now)
  let event := trap.variableBindings.foldl (addVarBind smiManager format) event
  let event := event.setMessage
    (some (utf16 "Received " ++ display trap.trapName ++ utf16 " trap"))
  let source := (Source.new.setRef trap.host).setType (some (utf16 "host"))
  let event := event.setSource (some source)
  let sender :=
    (Source.new.setRef (some (utf16 "Boundary Event SDK"))).setType
      (some (utf16 "Boundary Event SDK"))
  let event := event.setSender (some sender)
  let event := event.setSeverity (some .WARN)
  let event := event.setStatus (some .OPEN)
  let event := event.addTag trap.host
  let event := event.addTag trap.trapName
  let event := if trap.raw then event.addTag (some (utf16 "raw")) else event
  event.setTitle
    (some (display trap.trapName ++ utf16 " trap received from " ++ display trap.host))

end BoundaryEventSdk.Snmp
