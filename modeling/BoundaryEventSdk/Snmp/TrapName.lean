import BoundaryEventSdk.Snmp.SnmpTrap

/-!
# The name of a trap

In an SNMPv2 notification the variable binding `snmpTrapOID.0` has the OID of
the notification as its *value*.  `setTrapName` resolves the OIDs of the
variable bindings and never their values.  So it names a trap after the last
variable binding whose own OID is a notification, which a standard notification
does not have.
-/

namespace BoundaryEventSdk.Snmp

open BoundaryEventSdk.Java
open BoundaryEventSdk.Event (Date OwnedEvent RawEvent truncateToMaximumLength)

/-- `snmpTrapOID.0`. -/
def snmpTrapOID : Oid := [1, 3, 6, 1, 6, 3, 1, 1, 4, 1, 0]

/-- The variable bindings announce the notification `n`, which the MIB has
under the name. -/
def Announces (smiManager : SmiManager) (varBinds : List VariableBinding) (n : Oid)
    (name : JString) : Prop :=
  ⟨snmpTrapOID, .oid n⟩ ∈ varBinds ∧ notificationName smiManager n = some name

/-- The last variable binding whose own OID is a notification has the name, or
there is none and the name is empty. -/
def LastNotification (smiManager : SmiManager) (varBinds : List VariableBinding)
    (name : JString) : Prop :=
  (∃ front vb back, varBinds = front ++ vb :: back ∧
    notificationName smiManager vb.oid = some name ∧
      ∀ later ∈ back, notificationName smiManager later.oid = none) ∨
  (∀ vb ∈ varBinds, notificationName smiManager vb.oid = none) ∧ name = []

/-- The loop of `setTrapName`, as a scan from the end. -/
theorem setTrapName_trapName (smiManager : SmiManager) (snmpTrap : SnmpTrap)
    (varBinds : List VariableBinding) :
    (setTrapName smiManager snmpTrap varBinds).trapName =
      (varBinds.reverse.findSome? fun vb => notificationName smiManager vb.oid).or
        snmpTrap.trapName := by
  induction varBinds using List.reverseRecOn with
  | nil => rfl
  | append_singleton varBinds vb ih =>
    have hstep : setTrapName smiManager snmpTrap (varBinds ++ [vb]) =
        (notificationName smiManager vb.oid).elim (setTrapName smiManager snmpTrap varBinds)
          fun objectName =>
            { setTrapName smiManager snmpTrap varBinds with trapName := some objectName } := by
      rw [setTrapName, List.foldl_append, List.foldl_cons, List.foldl_nil]
      cases notificationName smiManager vb.oid <;> rfl
    rw [hstep, List.reverse_append, List.reverse_singleton, List.singleton_append,
      List.findSome?_cons]
    cases notificationName smiManager vb.oid with
    | none => exact ih
    | some objectName => rfl

/-- A new trap gets a name exactly when the last notification among the OIDs
has it. -/
theorem trapName_eq_some_iff {smiManager : SmiManager} {varBinds : List VariableBinding}
    {name : JString} :
    (setTrapName smiManager {} varBinds).trapName = some name ↔
      LastNotification smiManager varBinds name := by
  rw [setTrapName_trapName, Option.or_eq_some_iff, LastNotification]
  refine or_congr ?_ (and_congr ?_ ?_)
  · rw [List.findSome?_eq_some_iff]
    constructor
    · intro hfound
      obtain ⟨back, vb, front, hsplit, hname, hback⟩ := hfound
      refine ⟨front.reverse, vb, back.reverse, ?_, hname, fun later hlater => ?_⟩
      · rw [← List.reverse_reverse varBinds, hsplit]
        simp
      · exact hback later (List.mem_reverse.mp hlater)
    · intro hlast
      obtain ⟨front, vb, back, rfl, hname, hback⟩ := hlast
      refine ⟨back.reverse, vb, front.reverse, by simp, hname, fun later hlater => ?_⟩
      exact hback later (List.mem_reverse.mp hlater)
  · simp
  · simp [eq_comm]

/-- `process` wraps the trap that `setTrapName` names, or throws on the
header. -/
theorem messageToTrap_eq (smiManager : SmiManager) (varBinds : List VariableBinding)
    (peerAddress : Option JString) :
    messageToTrap smiManager varBinds peerAddress =
      (extractHost peerAddress).map fun host =>
        { setTrapName smiManager {} varBinds with
          variableBindings := varBinds, host := some host } := by
  rw [messageToTrap]
  cases extractHost peerAddress with
  | error e => rfl
  | ok host => rfl

/-! ## The event -/

/-- The loop over the variable bindings touches the properties and the
fingerprint fields only. -/
theorem foldl_addVarBind_tags (smiManager : SmiManager) (format : TextFormat)
    (varBinds : List VariableBinding) (event : OwnedEvent) :
    (varBinds.foldl (addVarBind smiManager format) event).tags = event.tags := by
  induction varBinds generalizing event with
  | nil => rfl
  | cons vb varBinds ih => exact ih _

theorem trapToEvent_tags (smiManager : SmiManager) (format : TextFormat) (now : Date)
    (trap : SnmpTrap) :
    (trapToEvent smiManager format now trap).tags =
      some ([truncateToMaximumLength trap.host, truncateToMaximumLength trap.trapName] ++
        if trap.raw then [truncateToMaximumLength (some (utf16 "raw"))] else []) := by
  unfold trapToEvent
  cases trap.raw with
  | false =>
    simp [RawEvent.setTitle, RawEvent.addTag, RawEvent.setStatus, RawEvent.setSeverity,
      RawEvent.setSender, RawEvent.setSource, RawEvent.setMessage, foldl_addVarBind_tags,
      RawEvent.setCreatedAt, RawEvent.new]
  | true =>
    simp [RawEvent.setTitle, RawEvent.addTag, RawEvent.setStatus, RawEvent.setSeverity,
      RawEvent.setSender, RawEvent.setSource, RawEvent.setMessage, foldl_addVarBind_tags,
      RawEvent.setCreatedAt, RawEvent.new]

/-- The title, the message and the second tag name the notification. -/
structure NamesNotification (event : OwnedEvent) (name host : JString) : Prop where
  title : event.title =
    truncateToMaximumLength (some (name ++ utf16 " trap received from " ++ host))
  message : event.message =
    truncateToMaximumLength (some (utf16 "Received " ++ name ++ utf16 " trap"))
  tag : (event.tags.getD [])[1]? = some (truncateToMaximumLength (some name))

/-- The event of a named trap names the notification. -/
theorem trapToEvent_names {trap : SnmpTrap} {name host : JString}
    (hname : trap.trapName = some name) (hhost : trap.host = some host) (smiManager : SmiManager)
    (format : TextFormat) (now : Date) :
    NamesNotification (trapToEvent smiManager format now trap) name host where
  title := by
    rw [trapToEvent, hname, hhost]
    rfl
  message := by
    rw [trapToEvent, hname, hhost]
    split <;> rfl
  tag := by
    rw [trapToEvent_tags, hname]
    rfl

/-- The message becomes a trap with the name, whose event names the
notification. -/
def TrapIdentified (smiManager : SmiManager) (format : TextFormat) (now : Date)
    (varBinds : List VariableBinding) (peerAddress : Option JString) (name : JString) : Prop :=
  ∃ trap host, messageToTrap smiManager varBinds peerAddress = .ok trap ∧
    trap.variableBindings = varBinds ∧ trap.trapName = some name ∧ trap.host = some host ∧
      NamesNotification (trapToEvent smiManager format now trap) name host

/-- The header has a host: it is there, and it is not slashes alone. -/
def HasPeer (peerAddress : Option JString) : Prop :=
  ∃ header, peerAddress = some header ∧ (header = [] ∨ ∃ unit ∈ header, unit ≠ 47)

theorem extractHost_ok_iff {peerAddress : Option JString} :
    (∃ host, extractHost peerAddress = .ok host) ↔ HasPeer peerAddress := by
  cases peerAddress with
  | none => simp [extractHost, HasPeer]
  | some header =>
    have hslashes : ¬ (header ≠ [] ∧ header.all (· == 47) = true) ↔
        header = [] ∨ ∃ unit ∈ header, unit ≠ 47 := by
      simp [imp_iff_not_or]
    simp only [HasPeer, Option.some.injEq, exists_eq_left', ← hslashes]
    rw [extractHost, deref_some, ok_bind]
    split
    · rename_i h
      simp only [reduceCtorEq, exists_false, false_iff, not_not]
      exact h
    · rename_i h
      exact ⟨fun _ => h, fun _ => ⟨_, rfl⟩⟩

/-- One name: the trap is identified exactly when the header has a host and the
last notification among the OIDs has the name. -/
theorem trapIdentified_iff {smiManager : SmiManager} {format : TextFormat} {now : Date}
    {varBinds : List VariableBinding} {peerAddress : Option JString} {name : JString} :
    TrapIdentified smiManager format now varBinds peerAddress name ↔
      HasPeer peerAddress ∧ LastNotification smiManager varBinds name := by
  rw [TrapIdentified, messageToTrap_eq, ← extractHost_ok_iff, ← trapName_eq_some_iff]
  constructor
  · intro hidentified
    obtain ⟨trap, host, hprocess, _, hname, _⟩ := hidentified
    cases hhost : extractHost peerAddress with
    | error e =>
      rw [hhost] at hprocess
      cases hprocess
    | ok peer =>
      rw [hhost] at hprocess
      cases hprocess
      exact ⟨⟨peer, rfl⟩, hname⟩
  · intro hnamed
    obtain ⟨⟨host, hhost⟩, hname⟩ := hnamed
    rw [hhost]
    refine ⟨_, host, rfl, rfl, hname, rfl, ?_⟩
    exact trapToEvent_names (by exact hname) rfl smiManager format now

/-- A standard notification is identified exactly when the last variable
binding whose own OID is a notification happens to have its name. -/
theorem trap_identified (smiManager : SmiManager) (format : TextFormat) (now : Date)
    (varBinds : List VariableBinding) (peerAddress : Option JString) :
    (∀ n name, Announces smiManager varBinds n name →
        TrapIdentified smiManager format now varBinds peerAddress name) ↔
      ∀ n name, Announces smiManager varBinds n name →
        HasPeer peerAddress ∧ LastNotification smiManager varBinds name :=
  forall₂_congr fun _ _ => imp_congr_right fun _ => trapIdentified_iff

/-- The OID of `linkDown`. -/
def linkDown : Oid := [1, 3, 6, 1, 6, 3, 1, 1, 5, 3]

/-- A MIB with `linkDown` in it. -/
def linkDownMib : SmiManager := fun oid =>
  if oid = linkDown then some ⟨.NOTIFICATION_TYPE, utf16 "linkDown"⟩ else none

/-- The notification `linkDown` as an agent sends it: the up time, the
notification, and the index of the interface. -/
def linkDownNotification : List VariableBinding :=
  [⟨[1, 3, 6, 1, 2, 1, 1, 3, 0], .timeTicks 42⟩, ⟨snmpTrapOID, .oid linkDown⟩,
    ⟨[1, 3, 6, 1, 2, 1, 2, 2, 1, 1, 7], .integer32 7⟩]

/-- A standard `linkDown` notification becomes a trap without a name. -/
theorem trap_identified_linkDown :
    messageToTrap linkDownMib linkDownNotification (some (utf16 "127.0.0.1/1162")) =
        .ok { variableBindings := linkDownNotification, host := some (utf16 "127.0.0.1") } ∧
      ¬ ∀ n name, Announces linkDownMib linkDownNotification n name →
        TrapIdentified linkDownMib ⟨toDottedString, fun _ => []⟩ 0 linkDownNotification
          (some (utf16 "127.0.0.1/1162")) name := by
  refine ⟨rfl, fun h => ?_⟩
  obtain ⟨trap, _, hprocess, _, hname, _⟩ := h linkDown (utf16 "linkDown") ⟨by decide, rfl⟩
  cases hprocess
  exact absurd hname (by decide)

end BoundaryEventSdk.Snmp
