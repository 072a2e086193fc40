import BoundaryEventSdk.Snmp.SnmpToEventProcessor

/-!
# The event of a V2 trap

`processV2Trap` keeps the peer address, the error status and the trap under
reserved names in the map that also takes the variable bindings, whose names the
agent and the MIBs choose.  So a variable binding of such a name replaces the
reserved property, or is replaced by it.

The loop also lets two kinds of variable bindings write the message, the trap
and the one that prints as `xTrapText`, and the last of them wins.

Both results rest on `v2Event`, the event in terms of the loop, and on one lemma
for each of its fields.
-/

namespace BoundaryEventSdk.Snmp

open BoundaryEventSdk.Java
open BoundaryEventSdk.Event (Date OwnedEvent RawEvent Source Severity Status Obj Properties
  truncateText truncateToMaximumLength)

namespace SnmpToEventProcessor

/-- The state after the loop of `processV2Trap`, on a new event. -/
def v2Loop (format : TextFormat) (now : Date) (hostname : JString) (pdu : PDU) :
    JString × OwnedEvent :=
  pdu.variableBindings.foldl (readVarBind format)
    ([], beforeVarBinds now hostname pdu RawEvent.new)

/-- The event of `processV2Trap` with this host name. -/
def v2Event (format : TextFormat) (now : Date) (hostname : JString) (pdu : PDU) : OwnedEvent :=
  (setTrapOrigin (v2Loop format now hostname pdu).2 hostname).setTitle
    (some ((v2Loop format now hostname pdu).1 ++ utf16 " trap received from " ++ hostname))

theorem processV2Trap_eq_ok {format : TextFormat} {now : Date} {peerAddress : Option JString}
    {pdu : PDU} {event : OwnedEvent} :
    processV2Trap format now peerAddress pdu RawEvent.new = .ok event ↔
      ∃ hostname, getPeerAddress peerAddress = .ok hostname ∧
        v2Event format now hostname pdu = event := by
  rw [processV2Trap, bind_eq_ok]
  refine exists_congr fun hostname => and_congr_right fun _ => ?_
  exact ⟨Except.ok.inj, congrArg Except.ok⟩

/-- The host name is the peer address up to the first slash. -/
theorem getPeerAddress_eq_ok {peerAddress : Option JString} {hostname : JString}
    (h : getPeerAddress peerAddress = .ok hostname) :
    ∃ header, peerAddress = some header ∧ hostname = header.takeWhile (· ≠ 47) := by
  rw [getPeerAddress, extractHost] at h
  cases peerAddress with
  | none => cases h
  | some header =>
    rw [deref_some, ok_bind] at h
    split at h
    · cases h
    · cases h
      exact ⟨header, rfl, rfl⟩

/-! ## The fields of the event -/

section Fields

variable (format : TextFormat) (now : Date) (hostname : JString) (pdu : PDU)

/-- All properties that the PDU asks for, in the order in which they are
added. -/
def v2Properties : List (Option JString × Option Obj) :=
  (some (utf16 "hostname"), some (.string hostname)) ::
    (some (utf16 "error_status"), some (.string pdu.errorStatusText)) ::
      pdu.variableBindings.map (propertyEntry format)

/-- The calls after the loop leave these three fields alone. -/
theorem v2Event_keeps :
    (v2Event format now hostname pdu).message = (v2Loop format now hostname pdu).2.message ∧
      (v2Event format now hostname pdu).properties =
        (v2Loop format now hostname pdu).2.properties ∧
      (v2Event format now hostname pdu).fingerprintFields =
        (v2Loop format now hostname pdu).2.fingerprintFields := by
  simp only [v2Event, setTrapOrigin, RawEvent.setTitle, RawEvent.addTag, RawEvent.setStatus,
    RawEvent.updateSource, RawEvent.setSeverity, RawEvent.updateSender, and_self]

theorem properties_v2Event :
    (v2Event format now hostname pdu).properties.getD .empty =
      (v2Properties format hostname pdu).foldl
        (fun properties entry => properties.put entry.1 entry.2) .empty := by
  rw [(v2Event_keeps format now hostname pdu).2.1, v2Loop, properties_loop, v2Properties,
    List.foldl_cons, List.foldl_cons]
  rfl

theorem fingerprintFields_v2Event :
    (v2Event format now hostname pdu).fingerprintFields.getD [] =
      some (utf16 "hostname") :: (pdu.variableBindings.filter fun var => !isTrap var.oid).map
        fun var => some (truncateText (format.oid var.oid)) := by
  rw [(v2Event_keeps format now hostname pdu).2.2, v2Loop, fingerprintFields_loop]
  rfl

theorem tags_v2Event :
    (v2Event format now hostname pdu).tags = some [truncateToMaximumLength hostname] := by
  have htags := (keeps_loop format pdu.variableBindings
    ([], beforeVarBinds now hostname pdu RawEvent.new)).1
  show some (((v2Loop format now hostname pdu).2.tags.getD []) ++ _) = _
  rw [v2Loop, htags]
  rfl

theorem source_v2Event :
    (v2Event format now hostname pdu).source =
      some ((Source.new.setRef hostname).setType (utf16 "host")) := by
  have hsource := (keeps_loop format pdu.variableBindings
    ([], beforeVarBinds now hostname pdu RawEvent.new)).2
  show some ((((v2Loop format now hostname pdu).2.source.getD Source.new).setRef _).setType _) = _
  rw [v2Loop, hsource]
  rfl

end Fields

/-- The variable bindings of a notification: their OIDs print differently, and
one of them is the trap. -/
structure Notification (format : TextFormat) (varBinds : List VariableBinding) : Prop where
  distinct : (varBinds.map fun var => format.oid var.oid).Nodup
  trap : ∃! var, var ∈ varBinds ∧ isTrap var.oid = true

section Notification

variable {format : TextFormat} {varBinds : List VariableBinding}

theorem Notification.eq_of_oid (h : Notification format varBinds) {var other : VariableBinding}
    (hvar : var ∈ varBinds) (hother : other ∈ varBinds)
    (hoid : format.oid var.oid = format.oid other.oid) : var = other :=
  List.inj_on_of_nodup_map h.distinct hvar hother hoid

theorem Notification.eq_of_trap (h : Notification format varBinds) {var other : VariableBinding}
    (hvar : var ∈ varBinds) (hother : other ∈ varBinds) (htrap : isTrap var.oid = true)
    (htrap' : isTrap other.oid = true) : var = other :=
  h.trap.unique ⟨hvar, htrap⟩ ⟨hother, htrap'⟩

theorem Notification.perm (h : Notification format varBinds) {others : List VariableBinding}
    (hperm : others.Perm varBinds) : Notification format others where
  distinct := (hperm.map _).nodup_iff.mpr h.distinct
  trap := by
    obtain ⟨trap, ⟨hmem, htrap⟩, hunique⟩ := h.trap
    refine ⟨trap, ⟨hperm.mem_iff.mpr hmem, htrap⟩, ?_⟩
    intro other hother
    exact hunique other ⟨hperm.mem_iff.mp hother.1, hother.2⟩

/-! ## Nothing is lost -/

/-- The names of the properties that `processV2Trap` sets itself. -/
def reservedNames : List JString :=
  [utf16 "hostname", utf16 "error_status", utf16 "trap"]

/-- The properties of the event are the ones that the PDU asks for, each
once. -/
def KeepsAll (format : TextFormat) (now : Date) (peerAddress : Option JString) (pdu : PDU) :
    Prop :=
  ∃ header event, peerAddress = some header ∧
    processV2Trap format now peerAddress pdu RawEvent.new = .ok event ∧
      (event.properties.getD .empty).entries.Perm
        (v2Properties format (header.takeWhile (· ≠ 47)) pdu)

/-- The trap has its property for itself exactly when no other variable binding
prints as `trap`. -/
theorem Notification.nodup_keys_iff (h : Notification format varBinds) :
    (varBinds.map fun var => (propertyEntry format var).1).Nodup ↔
      ∀ var ∈ varBinds, isTrap var.oid = false → format.oid var.oid ≠ utf16 "trap" := by
  rw [List.nodup_map_iff_inj_on (List.Nodup.of_map _ h.distinct)]
  constructor
  · intro hinj var hvar hother htext
    obtain ⟨trap, ⟨hmem, htrap⟩, _⟩ := h.trap
    have hsame := hinj var hvar trap hmem (by simp [propertyEntry, hother, htrap, htext])
    rw [hsame, htrap] at hother
    cases hother
  · intro hfree var hvar other hother hkey
    by_cases htrap : isTrap var.oid = true
    · by_cases htrap' : isTrap other.oid = true
      · exact h.eq_of_trap hvar hother htrap htrap'
      · simp only [propertyEntry, htrap, htrap', if_true, Option.some.injEq] at hkey
        exact absurd hkey.symm (hfree other hother (Bool.eq_false_iff.mpr htrap'))
    · by_cases htrap' : isTrap other.oid = true
      · simp only [propertyEntry, htrap, htrap', if_true, Option.some.injEq] at hkey
        exact absurd hkey (hfree var hvar (Bool.eq_false_iff.mpr htrap))
      · simp only [propertyEntry, htrap, htrap', Option.some.injEq] at hkey
        exact h.eq_of_oid hvar hother hkey

/-- A name that is not `trap` is the name of a property exactly when some other
variable binding prints so. -/
theorem mem_keys_iff {name : JString} (hname : name ≠ utf16 "trap") :
    some name ∈ varBinds.map (fun var => (propertyEntry format var).1) ↔
      ∃ var ∈ varBinds, isTrap var.oid = false ∧ format.oid var.oid = name := by
  rw [List.mem_map]
  refine exists_congr fun var => and_congr_right fun _ => ?_
  by_cases htrap : isTrap var.oid = true
  · simp [propertyEntry, htrap, hname.symm]
  · simp [propertyEntry, htrap]

/-- The names of the properties differ exactly when no other variable binding
prints as a reserved name. -/
theorem Notification.nodup_v2Properties_iff {pdu : PDU}
    (h : Notification format pdu.variableBindings) (hostname : JString) :
    ((v2Properties format hostname pdu).map Prod.fst).Nodup ↔
      ∀ var ∈ pdu.variableBindings, isTrap var.oid = false →
        format.oid var.oid ∉ reservedNames := by
  have hhost : utf16 "hostname" ≠ utf16 "trap" := by decide
  have herror : utf16 "error_status" ≠ utf16 "trap" := by decide
  have hother : (some (utf16 "hostname") : Option JString) ≠ some (utf16 "error_status") := by
    decide
  rw [v2Properties, List.map_cons, List.map_cons, List.map_map, List.nodup_cons, List.nodup_cons,
    List.mem_cons, not_or]
  show (_ ∧ some _ ∉ pdu.variableBindings.map fun var => (propertyEntry format var).1) ∧
    some _ ∉ pdu.variableBindings.map (fun var => (propertyEntry format var).1) ∧
      (pdu.variableBindings.map fun var => (propertyEntry format var).1).Nodup ↔ _
  rw [mem_keys_iff hhost, mem_keys_iff herror, h.nodup_keys_iff]
  constructor
  · intro hfree var hvar htrap hreserved
    obtain ⟨⟨_, hnoHost⟩, hnoError, hnoTrap⟩ := hfree
    simp only [reservedNames, List.mem_cons, List.not_mem_nil, or_false] at hreserved
    rcases hreserved with hname | hname | hname
    · exact hnoHost ⟨var, hvar, htrap, hname⟩
    · exact hnoError ⟨var, hvar, htrap, hname⟩
    · exact hnoTrap var hvar htrap hname
  · intro hfree
    have hno : ∀ name ∈ reservedNames, ¬ ∃ var ∈ pdu.variableBindings,
        isTrap var.oid = false ∧ format.oid var.oid = name := by
      intro name hname hsome
      obtain ⟨var, hvar, htrap, rfl⟩ := hsome
      exact hfree var hvar htrap hname
    refine ⟨⟨hother, hno _ (by simp [reservedNames])⟩, hno _ (by simp [reservedNames]), ?_⟩
    intro var hvar htrap hname
    exact hno _ (by simp [reservedNames]) ⟨var, hvar, htrap, hname⟩

end Notification

/-- An event with all properties had no other variable binding of a reserved
name, and its peer address had a host. -/
theorem Notification.free_of_keepsAll {format : TextFormat} {pdu : PDU}
    (h : Notification format pdu.variableBindings) {now : Date} {peerAddress : Option JString}
    (hkeeps : KeepsAll format now peerAddress pdu) :
    HasPeer peerAddress ∧ ∀ var ∈ pdu.variableBindings, isTrap var.oid = false →
      format.oid var.oid ∉ reservedNames := by
  obtain ⟨header, event, rfl, hevent, hperm⟩ := hkeeps
  obtain ⟨hostname, hhost, rfl⟩ := processV2Trap_eq_ok.mp hevent
  obtain ⟨_, hheader, rfl⟩ := getPeerAddress_eq_ok hhost
  cases hheader
  rw [properties_v2Event, LinkedHashMap.putAll_perm_iff, h.nodup_v2Properties_iff] at hperm
  exact ⟨extractHost_ok_iff.mp ⟨_, hhost⟩, hperm⟩

/-- Nothing is lost exactly when the peer address has a host and no other
variable binding prints as a reserved name. -/
theorem keepsAll_iff {format : TextFormat} {pdu : PDU}
    (h : Notification format pdu.variableBindings) (now : Date) (peerAddress : Option JString) :
    KeepsAll format now peerAddress pdu ↔
      HasPeer peerAddress ∧ ∀ var ∈ pdu.variableBindings, isTrap var.oid = false →
        format.oid var.oid ∉ reservedNames := by
  constructor
  · intro hkeeps
    exact h.free_of_keepsAll hkeeps
  · intro hfree
    obtain ⟨hpeer, hfree⟩ := hfree
    obtain ⟨hostname, hhost⟩ := extractHost_ok_iff.mpr hpeer
    obtain ⟨header, rfl, rfl⟩ := getPeerAddress_eq_ok hhost
    refine ⟨header, _, rfl, processV2Trap_eq_ok.mpr ⟨_, hhost, rfl⟩, ?_⟩
    rw [properties_v2Event, LinkedHashMap.putAll_perm_iff, h.nodup_v2Properties_iff]
    exact hfree

/-- The texts with a MIB of one object: its OID prints as its name, and any
other in dotted form. -/
def namedFormat (named : Oid) (name : JString) : TextFormat where
  oid oid := if oid = named then name else toDottedString oid
  value var :=
    match var.value with
    | .octetString value => value.map UInt8.toUInt16
    | .oid value => if value = named then name else toDottedString value
    | value => (value.number.map decimal).getD []

/-- A name that is more than digits and dots is no OID in dotted form. -/
theorem namedFormat_injective (named : Oid) (name : JString)
    (hname : ∃ unit ∈ name, 57 < unit.toNat) :
    Function.Injective (namedFormat named name).oid := by
  have hdotted : ∀ oid, toDottedString oid ≠ name := by
    intro oid h
    obtain ⟨unit, hunit, hlarge⟩ := hname
    rw [← h] at hunit
    have := mem_toDottedString hunit
    omega
  intro oid other h
  simp only [namedFormat] at h
  split_ifs at h with hoid hother hother
  · rw [hoid, hother]
  · exact absurd h.symm (hdotted other)
  · exact absurd h (hdotted oid)
  · exact toDottedString_injective h

/-- An object of an agent. -/
def agentObject : Oid := [1, 3, 6, 1, 4, 1, 99, 1]

/-- The notification `linkDown` with the text of the object. -/
def linkDownPdu (text : String) : PDU where
  errorStatusText := utf16 "Success"
  variableBindings :=
    [⟨snmpTrapOID, .oid linkDown⟩, ⟨agentObject, .octetString text.toUTF8.toList⟩]

theorem linkDownPdu_notification {format : TextFormat} (hinj : Function.Injective format.oid)
    (text : String) : Notification format (linkDownPdu text).variableBindings where
  distinct := by
    have hoids : snmpTrapOID ≠ agentObject := by decide
    simpa [linkDownPdu] using hinj.ne hoids
  trap := by
    refine ⟨⟨snmpTrapOID, .oid linkDown⟩, ⟨List.mem_cons_self, by decide⟩, ?_⟩
    intro var hvar
    obtain ⟨hmem, htrap⟩ := hvar
    rcases List.mem_cons.mp hmem with hvar | hvar
    · exact hvar
    · rw [List.mem_singleton.mp hvar] at htrap
      exact absurd htrap Bool.false_ne_true

/-- A notification whose object prints as `ifDescr` keeps everything. -/
theorem keepsAll_ifDescr :
    KeepsAll (namedFormat agentObject (utf16 "ifDescr")) 0 (some (utf16 "10.0.0.1/162"))
      (linkDownPdu "eth0") := by
  have hinj := namedFormat_injective agentObject (utf16 "ifDescr") ⟨105, by decide⟩
  refine (keepsAll_iff (linkDownPdu_notification hinj "eth0") 0 _).mpr ⟨?_, by decide⟩
  exact ⟨_, rfl, Or.inr ⟨49, by decide⟩⟩

/-- A notification whose object prints as `hostname` replaces the peer
address. -/
theorem keepsAll_hostname :
    Function.Injective (namedFormat agentObject (utf16 "hostname")).oid ∧
      Notification (namedFormat agentObject (utf16 "hostname"))
        (linkDownPdu "other").variableBindings ∧
      ¬ KeepsAll (namedFormat agentObject (utf16 "hostname")) 0 (some (utf16 "10.0.0.1/162"))
        (linkDownPdu "other") := by
  have hinj := namedFormat_injective agentObject (utf16 "hostname") ⟨104, by decide⟩
  have h := linkDownPdu_notification hinj "other"
  refine ⟨hinj, h, ?_⟩
  intro hkeeps
  exact absurd (h.free_of_keepsAll hkeeps).2 (by decide)

/-! ## The order of the variable bindings -/

/-- Two events with the same content, up to the time and to the order of their
properties and fingerprint fields. -/
structure SameEvent (event other : OwnedEvent) : Prop where
  title : event.title = other.title
  message : event.message = other.message
  source : event.source = other.source
  tags : event.tags = other.tags
  status : event.status = other.status
  severity : event.severity = other.severity
  properties : ∀ name, event.property name = other.property name
  fingerprintFields : ∀ field, field ∈ event.fingerprintFields.getD [] ↔
    field ∈ other.fingerprintFields.getD []

/-- The PDU gives the same event with its variable bindings in any order, and
its message is the text of the variable binding that prints as `xTrapText`. -/
def OrderIndependent (format : TextFormat) (peerAddress : Option JString) (pdu : PDU) : Prop :=
  ∀ varBinds, varBinds.Perm pdu.variableBindings → ∀ now later, ∃ event other,
    processV2Trap format now peerAddress pdu RawEvent.new = .ok event ∧
      processV2Trap format later peerAddress { pdu with variableBindings := varBinds }
          RawEvent.new = .ok other ∧
        SameEvent event other ∧
          ∀ var ∈ varBinds, format.oid var.oid = utf16 "xTrapText" →
            other.message = some (truncateText (format.value var))

/-- The trap agrees with the two other variable bindings that can interfere with
it. -/
structure TrapAgrees (format : TextFormat) (varBinds : List VariableBinding)
    (trap : VariableBinding) : Prop where
  mem : trap ∈ varBinds
  isTrap : isTrap trap.oid = true
  message : ∀ var ∈ varBinds, format.oid var.oid = utf16 "xTrapText" →
    truncateText (format.value var) = truncateText (format.value trap)
  property : ∀ var ∈ varBinds, Snmp.isTrap var.oid = false →
    format.oid var.oid = utf16 "trap" → format.value var = format.value trap

section Order

variable {format : TextFormat} {pdu : PDU}

/-- The variable bindings with one of them last. -/
theorem exists_perm_append {varBinds : List VariableBinding} {var : VariableBinding}
    (hvar : var ∈ varBinds) : ∃ front, (front ++ [var]).Perm varBinds := by
  obtain ⟨front, back, rfl⟩ := List.append_of_mem hvar
  refine ⟨front ++ back, ?_⟩
  rw [List.append_assoc]
  exact (List.perm_append_singleton var back).append_left front

/-- A last variable binding has the last word on its property. -/
theorem property_v2Event_append (now : Date) (hostname : JString) (front : List VariableBinding)
    (var : VariableBinding) :
    (v2Event format now hostname { pdu with variableBindings := front ++ [var] }).property
        (propertyEntry format var).1 = some (propertyEntry format var).2 := by
  rw [RawEvent.property, properties_v2Event, v2Properties, List.map_append, List.map_singleton,
    ← List.cons_append, ← List.cons_append, List.foldl_append, List.foldl_cons, List.foldl_nil,
    LinkedHashMap.get_put_self]

/-- A last variable binding that writes the message has the last word on it. -/
theorem message_v2Event_append (now : Date) (hostname : JString) (front : List VariableBinding)
    {var : VariableBinding} (hwrites : writesMessage format var = true) :
    (v2Event format now hostname { pdu with variableBindings := front ++ [var] }).message =
      some (truncateText (format.value var)) := by
  rw [(v2Event_keeps _ _ _ _).1, v2Loop, List.foldl_append, List.foldl_cons, List.foldl_nil,
    readVarBind_message, if_pos hwrites]

/-- An event that does not depend on the order has a trap that agrees with the
others, since each of them can be last. -/
theorem OrderIndependent.agrees {peerAddress : Option JString}
    (h : OrderIndependent format peerAddress pdu) {trap : VariableBinding}
    (htrap : trap ∈ pdu.variableBindings) (hisTrap : isTrap trap.oid = true) :
    TrapAgrees format pdu.variableBindings trap := by
  obtain ⟨event, _, hevent, _⟩ := h _ (List.Perm.refl _) 0 0
  have hlast : ∀ var ∈ pdu.variableBindings, ∃ hostname front, SameEvent event
      (v2Event format 0 hostname { pdu with variableBindings := front ++ [var] }) := by
    intro var hvar
    obtain ⟨front, hperm⟩ := exists_perm_append hvar
    obtain ⟨event', other, hevent', hother, hsame, _⟩ := h _ hperm 0 0
    obtain ⟨hostname, _, rfl⟩ := processV2Trap_eq_ok.mp hother
    rw [hevent] at hevent'
    cases hevent'
    exact ⟨hostname, front, hsame⟩
  obtain ⟨_, _, hsame⟩ := hlast trap htrap
  refine ⟨htrap, hisTrap, ?_, ?_⟩
  · intro var hvar htext
    obtain ⟨_, _, hsame'⟩ := hlast var hvar
    have hmessage := hsame'.message.symm.trans hsame.message
    rw [message_v2Event_append _ _ _ (by simp [writesMessage, htext]),
      message_v2Event_append _ _ _ (by simp [writesMessage, hisTrap])] at hmessage
    exact Option.some.inj hmessage
  · intro var hvar hother htext
    obtain ⟨_, _, hsame'⟩ := hlast var hvar
    have hkey : (propertyEntry format var).1 = (propertyEntry format trap).1 := by
      simp [propertyEntry, hother, hisTrap, htext]
    have hproperty := (hsame'.properties (propertyEntry format var).1).symm.trans
      (hsame.properties _)
    rw [property_v2Event_append, hkey, property_v2Event_append] at hproperty
    simpa [propertyEntry] using hproperty

/-! ### A trap that agrees -/

variable {trap : VariableBinding}

theorem TrapAgrees.perm {varBinds others : List VariableBinding}
    (h : TrapAgrees format varBinds trap) (hperm : others.Perm varBinds) :
    TrapAgrees format others trap where
  mem := hperm.mem_iff.mpr h.mem
  isTrap := h.isTrap
  message var hvar := h.message var (hperm.mem_iff.mp hvar)
  property var hvar := h.property var (hperm.mem_iff.mp hvar)

theorem TrapAgrees.message_v2Event (hagrees : TrapAgrees format pdu.variableBindings trap)
    (h : Notification format pdu.variableBindings) (now : Date) (hostname : JString) :
    (v2Event format now hostname pdu).message = some (truncateText (format.value trap)) := by
  have hwrites : writesMessage format trap = true := by simp [writesMessage, hagrees.isTrap]
  rw [(v2Event_keeps _ _ _ _).1, v2Loop]
  refine message_loop format ?_ ⟨trap, hagrees.mem, hwrites⟩ _
  intro var hvar hvar'
  rw [writesMessage, Bool.or_eq_true, decide_eq_true_eq] at hvar'
  rcases hvar' with hisTrap | htext
  · rw [h.eq_of_trap hvar hagrees.mem hisTrap hagrees.isTrap]
  · rw [hagrees.message var hvar htext]

theorem TrapAgrees.title_v2Event (hagrees : TrapAgrees format pdu.variableBindings trap)
    (h : Notification format pdu.variableBindings) (now : Date) (hostname : JString) :
    (v2Event format now hostname pdu).title = truncateToMaximumLength
      (some (format.value trap ++ utf16 " trap received from " ++ hostname)) := by
  have hname : (v2Loop format now hostname pdu).1 = format.value trap := by
    refine specificTrap_loop format ?_ ⟨trap, hagrees.mem, hagrees.isTrap⟩ _
    intro var hvar hisTrap
    rw [h.eq_of_trap hvar hagrees.mem hisTrap hagrees.isTrap]
  rw [v2Event, hname, RawEvent.setTitle]

/-- Properties of one name have one value. -/
theorem TrapAgrees.value_eq (hagrees : TrapAgrees format pdu.variableBindings trap)
    (h : Notification format pdu.variableBindings) {var other : VariableBinding}
    (hvar : var ∈ pdu.variableBindings) (hother : other ∈ pdu.variableBindings)
    (hname : (propertyEntry format var).1 = (propertyEntry format other).1) :
    (propertyEntry format var).2 = (propertyEntry format other).2 := by
  have hvalue : ∀ var ∈ pdu.variableBindings,
      (propertyEntry format var).1 = some (utf16 "trap") →
        format.value var = format.value trap := by
    intro var hvar hname
    by_cases hisTrap : Snmp.isTrap var.oid = true
    · rw [h.eq_of_trap hvar hagrees.mem hisTrap hagrees.isTrap]
    · simp only [propertyEntry, hisTrap, Option.some.injEq] at hname
      exact hagrees.property var hvar (Bool.eq_false_iff.mpr hisTrap) hname
  have hplain : ∀ var, (propertyEntry format var).1 ≠ some (utf16 "trap") →
      (propertyEntry format var).1 = some (format.oid var.oid) := by
    intro var hne
    by_cases hisTrap : Snmp.isTrap var.oid = true
    · exact absurd (by simp [propertyEntry, hisTrap]) hne
    · simp [propertyEntry, hisTrap]
  by_cases hreserved : (propertyEntry format var).1 = some (utf16 "trap")
  · have hother' := hvalue other hother (hname.symm.trans hreserved)
    exact congrArg (fun text => some (Obj.string text))
      ((hvalue var hvar hreserved).trans hother'.symm)
  · have hreserved' : (propertyEntry format other).1 ≠ some (utf16 "trap") := hname ▸ hreserved
    rw [hplain var hreserved, hplain other hreserved'] at hname
    rw [h.eq_of_oid hvar hother (Option.some.inj hname)]

/-- The order does not matter to an event whose trap agrees with the others. -/
theorem TrapAgrees.sameEvent (hagrees : TrapAgrees format pdu.variableBindings trap)
    (h : Notification format pdu.variableBindings) {varBinds : List VariableBinding}
    (hperm : varBinds.Perm pdu.variableBindings) (now later : Date) (hostname : JString) :
    SameEvent (v2Event format now hostname pdu)
      (v2Event format later hostname { pdu with variableBindings := varBinds }) where
  title := by
    rw [hagrees.title_v2Event h, TrapAgrees.title_v2Event (hagrees.perm hperm) (h.perm hperm)]
  message := by
    rw [hagrees.message_v2Event h, TrapAgrees.message_v2Event (hagrees.perm hperm) (h.perm hperm)]
  source := by rw [source_v2Event, source_v2Event]
  tags := by rw [tags_v2Event, tags_v2Event]
  status := rfl
  severity := rfl
  properties name := by
    rw [RawEvent.property, RawEvent.property, properties_v2Event, properties_v2Event]
    refine LinkedHashMap.get_putAll_perm (hperm.symm.map (propertyEntry format)) Prod.fst Prod.snd
      ?_ _ name
    simp only [List.forall_mem_map]
    exact fun var hvar other hother hname => hagrees.value_eq h hvar hother hname
  fingerprintFields field := by
    rw [fingerprintFields_v2Event, fingerprintFields_v2Event, List.mem_cons, List.mem_cons,
      ((hperm.filter _).map _).mem_iff]

/-- The order does not matter exactly when the peer address has a host and the
trap agrees with the others. -/
theorem orderIndependent_iff (h : Notification format pdu.variableBindings)
    (peerAddress : Option JString) :
    OrderIndependent format peerAddress pdu ↔
      HasPeer peerAddress ∧ ∃ trap, TrapAgrees format pdu.variableBindings trap := by
  constructor
  · intro horder
    obtain ⟨event, _, hevent, _⟩ := horder _ (List.Perm.refl _) 0 0
    obtain ⟨hostname, hhost, _⟩ := processV2Trap_eq_ok.mp hevent
    obtain ⟨trap, ⟨htrap, hisTrap⟩, _⟩ := h.trap
    exact ⟨extractHost_ok_iff.mp ⟨hostname, hhost⟩, trap, horder.agrees htrap hisTrap⟩
  · intro hagrees varBinds hperm now later
    obtain ⟨hpeer, trap, hagrees⟩ := hagrees
    obtain ⟨hostname, hhost⟩ := extractHost_ok_iff.mpr hpeer
    refine ⟨_, _, processV2Trap_eq_ok.mpr ⟨hostname, hhost, rfl⟩,
      processV2Trap_eq_ok.mpr ⟨hostname, hhost, rfl⟩,
      hagrees.sameEvent h hperm now later hostname, ?_⟩
    intro var hvar htext
    rw [TrapAgrees.message_v2Event (hagrees.perm hperm) (h.perm hperm),
      hagrees.message var (hperm.mem_iff.mp hvar) htext]

end Order

/-- A notification whose object prints as `ifDescr` gives the same event in any
order. -/
theorem orderIndependent_ifDescr :
    OrderIndependent (namedFormat agentObject (utf16 "ifDescr")) (some (utf16 "10.0.0.1/162"))
      (linkDownPdu "eth0") := by
  have hinj := namedFormat_injective agentObject (utf16 "ifDescr") ⟨105, by decide⟩
  refine (orderIndependent_iff (linkDownPdu_notification hinj "eth0") _).mpr ⟨?_, ?_⟩
  · exact ⟨_, rfl, Or.inr ⟨49, by decide⟩⟩
  · exact ⟨⟨snmpTrapOID, .oid linkDown⟩, by decide, by decide, by decide, by decide⟩

/-- A notification whose object prints as `xTrapText` depends on the order: with
the trap last, the message is the trap. -/
theorem orderIndependent_xTrapText :
    Function.Injective (namedFormat agentObject (utf16 "xTrapText")).oid ∧
      Notification (namedFormat agentObject (utf16 "xTrapText"))
        (linkDownPdu "Link is down").variableBindings ∧
      ¬ OrderIndependent (namedFormat agentObject (utf16 "xTrapText"))
        (some (utf16 "10.0.0.1/162")) (linkDownPdu "Link is down") := by
  have hinj := namedFormat_injective agentObject (utf16 "xTrapText") ⟨120, by decide⟩
  refine ⟨hinj, linkDownPdu_notification hinj _, ?_⟩
  intro horder
  exact absurd (horder.agrees List.mem_cons_self rfl).message (by decide +kernel)

end SnmpToEventProcessor

end BoundaryEventSdk.Snmp
