import BoundaryEventSdk.Snmp.TrapProperties
import BoundaryEventSdk.Snmp.V2TrapEvent

/-!
# Fingerprint fields and property names

A fingerprint field is the name of a property, and Boundary reads the property
to compute the fingerprint.  The three translators of traps add the two with
one name each time, but `addFingerprintField` cuts the name to the limit and
`addProperty` does not.  So the field of a long name is the name of another
property or of none.

A V1 trap has two fields of fixed short names.  The other two translators take
the names from the variable bindings, and `CutsTaken` says what they owe to
these.
-/

namespace BoundaryEventSdk.Snmp

open BoundaryEventSdk.Java
open BoundaryEventSdk.Event (Date OwnedEvent RawEvent Obj truncateText truncateToMaximumLength
  maximumStringLength truncateText_eq_self_iff truncateText_fits)

/-- Every fingerprint field is the name of a property. -/
def NamesProperties (event : OwnedEvent) : Prop :=
  ∀ field ∈ event.fingerprintFields.getD [],
    field ∈ (event.properties.getD .empty).entries.map Prod.fst

/-- The cut of a name beyond the limit is a name too. -/
def CutsTaken (names : List JString) : Prop :=
  ∀ name ∈ names, maximumStringLength < name.length → truncateText name ∈ names

instance (names : List JString) : Decidable (CutsTaken names) :=
  inferInstanceAs (Decidable (∀ name ∈ names, _ → _))

theorem length_truncateText_of_long {name : JString} (h : maximumStringLength < name.length) :
    (truncateText name).length = maximumStringLength := by
  rw [truncateText, List.length_take]
  omega

/-- A list of names, with a few short ones beside it, has all the cuts exactly
when it has the cuts of the long names. -/
theorem cuts_mem_iff {names reserved : List JString}
    (hreserved : ∀ name ∈ reserved, name.length < maximumStringLength) :
    (∀ name ∈ names, truncateText name ∈ reserved ∨ truncateText name ∈ names) ↔
      CutsTaken names := by
  constructor
  · intro h name hname hlong
    rcases h name hname with hcut | hcut
    · have hshort := hreserved _ hcut
      rw [length_truncateText_of_long hlong] at hshort
      exact absurd hshort (Nat.lt_irrefl _)
    · exact hcut
  · intro h name hname
    by_cases hlong : maximumStringLength < name.length
    · exact Or.inr (h name hname hlong)
    · rw [truncateText_eq_self_iff.mpr (Nat.le_of_not_lt hlong)]
      exact Or.inr hname

/-! ## The script -/

section Script

variable (smiManager : SmiManager) (format : TextFormat)

/-- The property names of a trap. -/
def trapNames (trap : SnmpTrap) : List JString :=
  trap.variableBindings.map fun vb => propertyName smiManager format vb.oid

theorem namesProperties_trapToEvent_iff (now : Date) (trap : SnmpTrap) :
    NamesProperties (trapToEvent smiManager format now trap) ↔
      CutsTaken (trapNames smiManager format trap) := by
  have hfields : (trapToEvent smiManager format now trap).fingerprintFields.getD [] =
      (trapNames smiManager format trap).map fun name => some (truncateText name) := by
    rw [(trapToEvent_keeps smiManager format now trap).1, fingerprintFields_foldl_addVarBind,
      trapNames, List.map_map]
    rfl
  have hkeys : ∀ name, some name ∈ ((trapToEvent smiManager format now trap).properties.getD
      .empty).entries.map Prod.fst ↔ name ∈ trapNames smiManager format trap := by
    intro name
    rw [properties_trapToEvent, LinkedHashMap.mem_keys_putAll, trapNames]
    simp [trapProperty]
  have hreserved : ∀ name ∈ ([] : List JString), name.length < maximumStringLength := by simp
  rw [NamesProperties, hfields, List.forall_mem_map, ← cuts_mem_iff hreserved]
  simp only [hkeys, List.not_mem_nil, false_or]

end Script

/-! ## The processor -/

namespace SnmpToEventProcessor

variable (format : TextFormat)

/-- The property names of a PDU that come from its variable bindings. -/
def v2Names (pdu : PDU) : List JString :=
  (pdu.variableBindings.filter fun var => !isTrap var.oid).map fun var => format.oid var.oid

/-- The property names of a PDU that `processV2Trap` chooses. -/
def v2Reserved (pdu : PDU) : List JString :=
  utf16 "hostname" :: utf16 "error_status" ::
    (pdu.variableBindings.filter fun var => isTrap var.oid).map fun _ => utf16 "trap"

theorem length_of_mem_v2Reserved {pdu : PDU} {name : JString} (h : name ∈ v2Reserved pdu) :
    name.length < maximumStringLength := by
  rw [v2Reserved, List.mem_cons, List.mem_cons] at h
  rcases h with rfl | rfl | h
  · decide
  · decide
  · obtain ⟨_, _, rfl⟩ := List.mem_map.mp h
    decide

theorem mem_keys_v2Event (now : Date) (hostname : JString) (pdu : PDU) (name : JString) :
    some name ∈ ((v2Event format now hostname pdu).properties.getD .empty).entries.map Prod.fst ↔
      name ∈ v2Reserved pdu ∨ name ∈ v2Names format pdu := by
  have hentry : ∀ var : VariableBinding, (propertyEntry format var).1 = some name ↔
      isTrap var.oid = true ∧ utf16 "trap" = name ∨
        isTrap var.oid = false ∧ format.oid var.oid = name := by
    intro var
    by_cases htrap : isTrap var.oid = true
    · simp [propertyEntry, htrap]
    · simp [propertyEntry, htrap]
  rw [properties_v2Event, LinkedHashMap.mem_keys_putAll, v2Properties, v2Reserved, v2Names]
  simp only [LinkedHashMap.entries_empty, List.map_nil, List.not_mem_nil, false_or, List.map_cons,
    List.map_map, List.mem_cons, Option.some.injEq, List.mem_map, Function.comp_apply, hentry,
    List.mem_filter, Bool.not_eq_true']
  grind

theorem namesProperties_v2Event_iff (now : Date) (hostname : JString) (pdu : PDU) :
    NamesProperties (v2Event format now hostname pdu) ↔ CutsTaken (v2Names format pdu) := by
  have hfields : (v2Event format now hostname pdu).fingerprintFields.getD [] =
      some (utf16 "hostname") ::
        (v2Names format pdu).map fun name => some (truncateText name) := by
    rw [fingerprintFields_v2Event, v2Names, List.map_map]
    rfl
  have hhost : utf16 "hostname" ∈ v2Reserved pdu := List.mem_cons_self
  have hreserved : ∀ name ∈ v2Reserved pdu, name.length < maximumStringLength :=
    fun _ => length_of_mem_v2Reserved
  rw [NamesProperties, hfields, List.forall_mem_cons, List.forall_mem_map, mem_keys_v2Event,
    and_iff_right (Or.inl hhost), ← cuts_mem_iff hreserved]
  simp only [mem_keys_v2Event]

theorem namesProperties_processV1Trap {now : Date} {peerAddress : Option JString} {v1pdu : PDUv1}
    {event : OwnedEvent} (h : processV1Trap format now peerAddress v1pdu RawEvent.new = .ok event) :
    NamesProperties event := by
  rw [processV1Trap, bind_eq_ok] at h
  obtain ⟨hostname, _, h⟩ := h
  cases h
  intro field hfield
  have hfields : field ∈ [some (utf16 "hostname"), some (utf16 "enterprise")] := hfield
  simp only [RawEvent.setTitle, setTrapOrigin, RawEvent.addTag, RawEvent.setStatus,
    RawEvent.updateSource, RawEvent.setSeverity, RawEvent.updateSender, RawEvent.addProperty,
    Option.getD_some, LinkedHashMap.mem_keys_put]
  rcases List.mem_cons.mp hfields with rfl | hfields
  · simp
  · rw [List.mem_singleton.mp hfields]
    simp

/-- The fields of all three translators.  A V1 trap always names properties.
The event of another PDU and the event of the script do exactly when the cut of
each long name is taken. -/
theorem namesProperties_iff (format : TextFormat) (smiManager : SmiManager) (now : Date)
    (peerAddress : Option JString) (v1pdu : PDUv1) (pdu : PDU) (trap : SnmpTrap) :
    (∀ event, processV1Trap format now peerAddress v1pdu RawEvent.new = .ok event →
        NamesProperties event) ∧
      ((∀ event, processV2Trap format now peerAddress pdu RawEvent.new = .ok event →
          NamesProperties event) ↔
        (HasPeer peerAddress → CutsTaken (v2Names format pdu))) ∧
      (NamesProperties (trapToEvent smiManager format now trap) ↔
        CutsTaken (trapNames smiManager format trap)) := by
  refine ⟨fun event => namesProperties_processV1Trap format, ?_,
    namesProperties_trapToEvent_iff smiManager format now trap⟩
  constructor
  · intro h hpeer
    obtain ⟨hostname, hhost⟩ := extractHost_ok_iff.mpr hpeer
    have hevent := h _ (processV2Trap_eq_ok.mpr ⟨hostname, hhost, rfl⟩)
    exact (namesProperties_v2Event_iff format now hostname pdu).mp hevent
  · intro h event hevent
    obtain ⟨hostname, hhost, rfl⟩ := processV2Trap_eq_ok.mp hevent
    exact (namesProperties_v2Event_iff format now hostname pdu).mpr
      (h (extractHost_ok_iff.mp ⟨hostname, hhost⟩))

/-- An instance of a table whose index is a text of 64 letters `w`, in the
dotted form without a MIB: 272 units. -/
def textIndexPdu : PDU where
  errorStatusText := utf16 "Success"
  variableBindings := [⟨agentObject ++ List.replicate 64 119, .integer32 1⟩]

/-- The fingerprint field of the instance names no property. -/
theorem not_namesProperties_textIndex :
    ∃ event, processV2Trap plainFormat 0 (some (utf16 "10.0.0.1/162")) textIndexPdu RawEvent.new =
        .ok event ∧ ¬ NamesProperties event := by
  have hpeer : HasPeer (some (utf16 "10.0.0.1/162")) := ⟨_, rfl, Or.inr ⟨49, by decide⟩⟩
  obtain ⟨hostname, hhost⟩ := extractHost_ok_iff.mpr hpeer
  refine ⟨_, processV2Trap_eq_ok.mpr ⟨hostname, hhost, rfl⟩, ?_⟩
  rw [namesProperties_v2Event_iff]
  decide +kernel

end SnmpToEventProcessor

end BoundaryEventSdk.Snmp
