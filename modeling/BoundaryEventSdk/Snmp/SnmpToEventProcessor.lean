import BoundaryEventSdk.Snmp.TrapName

/-!
# `SnmpToEventProcessor`: from a PDU to an event

The processor turns a trap into an event without any script.  A V1 trap has
fixed fields.  The variable bindings of any other PDU are read by a loop, and
the trap is the one whose OID lies under `snmpTraps` or `snmpTrapOID`.

The loop writes the title's trap, the message, the properties and the
fingerprint fields.  Each has one lemma about one variable binding and one about
a list of them.  The property of a variable binding is `propertyEntry`, and the
loop is a loop of `put` over these.
-/

namespace BoundaryEventSdk.Snmp

open BoundaryEventSdk.Java
open BoundaryEventSdk.Event (Date OwnedEvent RawEvent Source Severity Status Obj Properties
  truncateText truncateToMaximumLength)

/-- What the code reads of a V1 trap.  The address of the agent is read as the
text that it prints as. -/
structure PDUv1 where
  enterprise : Oid
  agentAddress : JString
  genericTrap : Int32
  specificTrap : Int32
  timestamp : UInt32
  deriving DecidableEq, Repr

/-- What the code reads of any other PDU. -/
structure PDU where
  errorStatusText : JString
  variableBindings : List VariableBinding
  deriving DecidableEq, Repr

/-- The PDU of an `SnmpMessage`. -/
inductive SnmpPdu where
  | v1trap (pdu : PDUv1)
  | other (pdu : PDU)

/-- `SnmpConstants.snmpTraps`. -/
def snmpTraps : Oid := [1, 3, 6, 1, 6, 3, 1, 1, 5]

/-- `oid.startsWith(SnmpConstants.snmpTraps)` or
`oid.startsWith(SnmpConstants.snmpTrapOID)`. -/
def isTrap (oid : Oid) : Bool :=
  snmpTraps.isPrefixOf oid || snmpTrapOID.isPrefixOf oid

namespace SnmpToEventProcessor

/-- `SnmpToEventProcessor.getPeerAddress`, the same code as in
`SnmpExchangeUtils`. -/
def getPeerAddress (peerAddress : Option JString) : Except Throwable JString :=
  extractHost peerAddress

/-- `SnmpToEventProcessor.mapVarbindToEvent`. -/
def mapVarbindToEvent (format : TextFormat) (event : OwnedEvent) (var : VariableBinding) :
    OwnedEvent :=
  if format.oid var.oid = utf16 "xTrapText" then event.setMessage (some (format.value var))
  else event

/-- The calls for sender, severity, source, status and tags. -/
def setTrapOrigin (event : OwnedEvent) (hostname : JString) : OwnedEvent :=
  let event := event.updateSender fun sender =>
    (sender.setRef (utf16 "Boundary Event SDK")).setType (utf16 "Boundary Event SDK")
  let event := event.setSeverity (some .WARN)
  let event := event.updateSource fun source => (source.setRef hostname).setType (utf16 "host")
  let event := event.setStatus (some .OPEN)
  event.addTag hostname

/-- `SnmpToEventProcessor.processV1Trap`. -/
def processV1Trap (format : TextFormat) (now : Date) (peerAddress : Option JString)
    (v1pdu : PDUv1) (event : OwnedEvent) : Except Throwable OwnedEvent := do
  let hostname ← getPeerAddress peerAddress
  let event := event.setCreatedAt (some now)
  let event := event.addFingerprintField (utf16 "hostname")
  let event := event.addFingerprintField (utf16 "enterprise")
  let event := event.addProperty (utf16 "hostname") (some (.string hostname))
  let event := event.addProperty (utf16 "enterprise") (some (.string (format.oid v1pdu.enterprise)))
  let event := event.addProperty (utf16 "agent-addr") (some (.string v1pdu.agentAddress))
  let event := event.addProperty (utf16 "generic-trap")
    (some (.string (decimal v1pdu.genericTrap.toInt)))
  let event := event.addProperty (utf16 "trap") (some (.string (decimal v1pdu.specificTrap.toInt)))
  let event := event.addProperty (utf16 "time-stamp")
    (some (.string (decimal v1pdu.timestamp.toNat)))
  let event := setTrapOrigin event hostname
  return event.setTitle
    (some (decimal v1pdu.specificTrap.toInt ++ utf16 " trap received from " ++ hostname))

/-- The body of the loop in `processV2Trap`, on `specificTrap` and the event. -/
def readVarBind (format : TextFormat) (loop : JString × OwnedEvent) (var : VariableBinding) :
    JString × OwnedEvent :=
  if isTrap var.oid then
    let specificTrap := format.value var
    let event := loop.2.addProperty (utf16 "trap") (some (.string specificTrap))
    let event := event.setMessage (some (format.value var))
    (specificTrap, mapVarbindToEvent format event var)
  else
    let event := loop.2.addProperty (format.oid var.oid) (some (.string (format.value var)))
    let event := event.addFingerprintField (format.oid var.oid)
    (loop.1, mapVarbindToEvent format event var)

/-- `processV2Trap` before its loop. -/
def beforeVarBinds (now : Date) (hostname : JString) (pdu : PDU) (event : OwnedEvent) :
    OwnedEvent :=
  let event := event.setCreatedAt (some now)
  let event := event.addFingerprintField (utf16 "hostname")
  let event := event.addProperty (utf16 "hostname") (some (.string hostname))
  event.addProperty (utf16 "error_status") (some (.string pdu.errorStatusText))

/-- `SnmpToEventProcessor.processV2Trap`. -/
def processV2Trap (format : TextFormat) (now : Date) (peerAddress : Option JString) (pdu : PDU)
    (event : OwnedEvent) : Except Throwable OwnedEvent := do
  let hostname ← getPeerAddress peerAddress
  let event := beforeVarBinds now hostname pdu event
  let loop := pdu.variableBindings.foldl (readVarBind format) ([], event)
  let event := setTrapOrigin loop.2 hostname
  return event.setTitle (some (loop.1 ++ utf16 " trap received from " ++ hostname))

/-- `SnmpToEventProcessor.process`: the new body of the message. -/
def process (format : TextFormat) (now : Date) (peerAddress : Option JString) :
    SnmpPdu → Except Throwable OwnedEvent
  | .v1trap pdu => processV1Trap format now peerAddress pdu RawEvent.new
  | .other pdu => processV2Trap format now peerAddress pdu RawEvent.new

/-! ## One variable binding -/

section Loop

variable (format : TextFormat)

/-- The property that the loop adds for a variable binding. -/
def propertyEntry (var : VariableBinding) : Option JString × Option Obj :=
  (some (if isTrap var.oid then utf16 "trap" else format.oid var.oid),
    some (.string (format.value var)))

/-- Whether the loop sets the message for a variable binding. -/
def writesMessage (var : VariableBinding) : Bool :=
  isTrap var.oid || format.oid var.oid = utf16 "xTrapText"

@[simp] theorem properties_mapVarbindToEvent (event : OwnedEvent) (var : VariableBinding) :
    (mapVarbindToEvent format event var).properties = event.properties := by
  unfold mapVarbindToEvent
  split <;> rfl

@[simp] theorem fingerprintFields_mapVarbindToEvent (event : OwnedEvent) (var : VariableBinding) :
    (mapVarbindToEvent format event var).fingerprintFields = event.fingerprintFields := by
  unfold mapVarbindToEvent
  split <;> rfl

@[simp] theorem tags_mapVarbindToEvent (event : OwnedEvent) (var : VariableBinding) :
    (mapVarbindToEvent format event var).tags = event.tags := by
  unfold mapVarbindToEvent
  split <;> rfl

@[simp] theorem source_mapVarbindToEvent (event : OwnedEvent) (var : VariableBinding) :
    (mapVarbindToEvent format event var).source = event.source := by
  unfold mapVarbindToEvent
  split <;> rfl

theorem message_mapVarbindToEvent (event : OwnedEvent) (var : VariableBinding) :
    (mapVarbindToEvent format event var).message =
      if format.oid var.oid = utf16 "xTrapText" then some (truncateText (format.value var))
      else event.message := by
  unfold mapVarbindToEvent
  split <;> rfl

theorem readVarBind_specificTrap (loop : JString × OwnedEvent) (var : VariableBinding) :
    (readVarBind format loop var).1 = if isTrap var.oid then format.value var else loop.1 := by
  unfold readVarBind
  split <;> rfl

theorem readVarBind_message (loop : JString × OwnedEvent) (var : VariableBinding) :
    (readVarBind format loop var).2.message =
      if writesMessage format var then some (truncateText (format.value var))
      else loop.2.message := by
  unfold readVarBind writesMessage
  split
  · rename_i htrap
    rw [message_mapVarbindToEvent, htrap, Bool.true_or, if_pos rfl]
    exact ite_id _
  · rename_i htrap
    rw [message_mapVarbindToEvent, Bool.eq_false_iff.mpr htrap, Bool.false_or]
    simp only [decide_eq_true_eq]
    rfl

theorem readVarBind_properties (loop : JString × OwnedEvent) (var : VariableBinding) :
    (readVarBind format loop var).2.properties =
      some ((loop.2.properties.getD .empty).put (propertyEntry format var).1
        (propertyEntry format var).2) := by
  unfold readVarBind propertyEntry
  split
  · rw [properties_mapVarbindToEvent]
    rfl
  · rw [properties_mapVarbindToEvent]
    rfl

theorem readVarBind_fingerprintFields (loop : JString × OwnedEvent) (var : VariableBinding) :
    (readVarBind format loop var).2.fingerprintFields.getD [] =
      loop.2.fingerprintFields.getD [] ++
        if isTrap var.oid then [] else [some (truncateText (format.oid var.oid))] := by
  unfold readVarBind
  split
  · rw [fingerprintFields_mapVarbindToEvent, List.append_nil]
    rfl
  · rw [fingerprintFields_mapVarbindToEvent]
    rfl

/-- The loop leaves tags and source alone. -/
theorem readVarBind_keeps (loop : JString × OwnedEvent) (var : VariableBinding) :
    (readVarBind format loop var).2.tags = loop.2.tags ∧
      (readVarBind format loop var).2.source = loop.2.source := by
  unfold readVarBind
  split
  · rw [tags_mapVarbindToEvent, source_mapVarbindToEvent]
    exact ⟨rfl, rfl⟩
  · rw [tags_mapVarbindToEvent, source_mapVarbindToEvent]
    exact ⟨rfl, rfl⟩

/-! ## All variable bindings -/

/-- Traps that print alike name the trap. -/
theorem specificTrap_loop {varBinds : List VariableBinding} {text : JString}
    (htraps : ∀ var ∈ varBinds, isTrap var.oid = true → format.value var = text)
    (hsome : ∃ var ∈ varBinds, isTrap var.oid = true) (loop : JString × OwnedEvent) :
    (varBinds.foldl (readVarBind format) loop).1 = text :=
  run_lastWriter Prod.fst (readVarBind_specificTrap format) htraps hsome loop

/-- Message writers that print alike give the message. -/
theorem message_loop {varBinds : List VariableBinding} {text : JString}
    (hwriters : ∀ var ∈ varBinds, writesMessage format var = true →
      some (truncateText (format.value var)) = some text)
    (hsome : ∃ var ∈ varBinds, writesMessage format var = true) (loop : JString × OwnedEvent) :
    (varBinds.foldl (readVarBind format) loop).2.message = some text :=
  run_lastWriter (fun loop => loop.2.message) (readVarBind_message format) hwriters hsome loop

theorem properties_loop (varBinds : List VariableBinding) (loop : JString × OwnedEvent) :
    (varBinds.foldl (readVarBind format) loop).2.properties.getD .empty =
      (varBinds.map (propertyEntry format)).foldl
        (fun properties entry => properties.put entry.1 entry.2)
        (loop.2.properties.getD .empty) := by
  induction varBinds generalizing loop with
  | nil => rfl
  | cons var varBinds ih =>
    rw [List.foldl_cons, ih, readVarBind_properties]
    rfl

theorem fingerprintFields_loop (varBinds : List VariableBinding) (loop : JString × OwnedEvent) :
    (varBinds.foldl (readVarBind format) loop).2.fingerprintFields.getD [] =
      loop.2.fingerprintFields.getD [] ++
        (varBinds.filter fun var => !isTrap var.oid).map fun var =>
          some (truncateText (format.oid var.oid)) := by
  induction varBinds generalizing loop with
  | nil => simp
  | cons var varBinds ih =>
    rw [List.foldl_cons, ih, readVarBind_fingerprintFields]
    by_cases htrap : isTrap var.oid = true
    · simp [htrap]
    · simp [htrap]

theorem keeps_loop (varBinds : List VariableBinding) (loop : JString × OwnedEvent) :
    (varBinds.foldl (readVarBind format) loop).2.tags = loop.2.tags ∧
      (varBinds.foldl (readVarBind format) loop).2.source = loop.2.source := by
  induction varBinds generalizing loop with
  | nil => exact ⟨rfl, rfl⟩
  | cons var varBinds ih =>
    obtain ⟨htags, hsource⟩ := readVarBind_keeps format loop var
    obtain ⟨htags', hsource'⟩ := ih (readVarBind format loop var)
    exact ⟨htags'.trans htags, hsource'.trans hsource⟩

end Loop

end SnmpToEventProcessor

end BoundaryEventSdk.Snmp
