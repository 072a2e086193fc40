import BoundaryEventSdk.Snmp.SnmpTrap

/-!
# The fingerprint of a trap

Boundary merges events with equal fingerprints.  The script `trapToEvent` makes
every variable binding a fingerprint field and neither the host nor the name of
the trap, while the documentation has it the other way round.  So the
fingerprint follows the values of the variable bindings, and ignores what the
trap is and where it comes from.

A property keeps its name as it is and a fingerprint field is cut to the limit,
so the field of a long name reads the property of the shorter name, if there is
one.  `lastText` is what a field reads, on the variable bindings alone.
-/

namespace BoundaryEventSdk.Snmp

open BoundaryEventSdk.Java
open BoundaryEventSdk.Event (Date OwnedEvent RawEvent Obj truncateText truncateToMaximumLength)

variable (smiManager : SmiManager) (format : TextFormat)

/-- The fingerprint field of a variable binding. -/
def fieldName (vb : VariableBinding) : JString :=
  truncateText (propertyName smiManager format vb.oid)

/-- The text of the last variable binding whose property has the name. -/
def lastText (varBinds : List VariableBinding) (name : JString) : Option JString :=
  (varBinds.reverse.find? fun vb => propertyName smiManager format vb.oid = name).map format.value

theorem lastText_append_singleton (varBinds : List VariableBinding) (vb : VariableBinding)
    (name : JString) :
    lastText smiManager format (varBinds ++ [vb]) name =
      if propertyName smiManager format vb.oid = name then some (format.value vb)
      else lastText smiManager format varBinds name := by
  rw [lastText, List.reverse_append, List.reverse_singleton, List.singleton_append]
  by_cases h : propertyName smiManager format vb.oid = name
  · rw [if_pos h, List.find?_cons_of_pos (by simpa using h)]
    rfl
  · rw [if_neg h, List.find?_cons_of_neg (by simpa using h), lastText]

/-! ## The loop over the variable bindings -/

theorem property_foldl_addVarBind (varBinds : List VariableBinding) (event : OwnedEvent)
    (name : JString) :
    (varBinds.foldl (addVarBind smiManager format) event).property (some name) =
      ((lastText smiManager format varBinds name).map fun text => some (.string text)).or
        (event.property (some name)) := by
  induction varBinds using List.reverseRecOn with
  | nil => rfl
  | append_singleton varBinds vb ih =>
    rw [List.foldl_append, List.foldl_cons, List.foldl_nil, lastText_append_singleton, addVarBind,
      RawEvent.property_addFingerprintField, RawEvent.property_addProperty, ih]
    by_cases h : propertyName smiManager format vb.oid = name
    · rw [if_pos h, if_pos (congrArg some h.symm)]
      rfl
    · rw [if_neg h, if_neg fun hname => h (Option.some.inj hname).symm]

theorem fingerprintFields_foldl_addVarBind (varBinds : List VariableBinding)
    (event : OwnedEvent) :
    (varBinds.foldl (addVarBind smiManager format) event).fingerprintFields.getD [] =
      event.fingerprintFields.getD [] ++
        varBinds.map fun vb => some (fieldName smiManager format vb) := by
  induction varBinds using List.reverseRecOn with
  | nil => exact (List.append_nil _).symm
  | append_singleton varBinds vb ih =>
    rw [List.foldl_append, List.foldl_cons, List.foldl_nil, List.map_append, ← List.append_assoc,
      ← ih]
    rfl

/-- The calls after the loop leave properties and fingerprint fields alone. -/
theorem trapToEvent_keeps (now : Date) (trap : SnmpTrap) :
    (trapToEvent smiManager format now trap).fingerprintFields =
        (trap.variableBindings.foldl (addVarBind smiManager format)
          ((RawEvent.new : OwnedEvent).setCreatedAt (some now))).fingerprintFields ∧
      (trapToEvent smiManager format now trap).properties =
        (trap.variableBindings.foldl (addVarBind smiManager format)
          ((RawEvent.new : OwnedEvent).setCreatedAt (some now))).properties := by
  unfold trapToEvent
  cases trap.raw with
  | false =>
    simp [RawEvent.setTitle, RawEvent.addTag, RawEvent.setStatus, RawEvent.setSeverity,
      RawEvent.setSender, RawEvent.setSource, RawEvent.setMessage]
  | true =>
    simp [RawEvent.setTitle, RawEvent.addTag, RawEvent.setStatus, RawEvent.setSeverity,
      RawEvent.setSender, RawEvent.setSource, RawEvent.setMessage]

theorem fingerprint_trapToEvent (now : Date) (trap : SnmpTrap) :
    (trapToEvent smiManager format now trap).fingerprint =
      trap.variableBindings.map fun vb =>
        (some (fieldName smiManager format vb),
          (lastText smiManager format trap.variableBindings (fieldName smiManager format vb)).map
            fun text => some (Obj.string text)) := by
  obtain ⟨hfields, hproperties⟩ := trapToEvent_keeps smiManager format now trap
  rw [RawEvent.fingerprint, hfields, fingerprintFields_foldl_addVarBind]
  simp only [RawEvent.setCreatedAt, RawEvent.new, Option.getD_none, List.nil_append, List.map_map]
  refine List.map_congr_left fun vb _ => congrArg (Prod.mk _) ?_
  rw [RawEvent.property, hproperties, ← RawEvent.property, property_foldl_addVarBind]
  exact Option.or_none

/-! ## Two traps -/

/-- The two lists have the same fingerprint fields, and each reads the same
text in both. -/
def SameFields (varBinds others : List VariableBinding) : Prop :=
  varBinds.map (fieldName smiManager format) = others.map (fieldName smiManager format) ∧
    ∀ vb ∈ varBinds, lastText smiManager format varBinds (fieldName smiManager format vb) =
      lastText smiManager format others (fieldName smiManager format vb)

/-- The fingerprints of two traps are equal exactly when the variable bindings
say so. -/
theorem fingerprint_eq_iff (now later : Date) (trap other : SnmpTrap) :
    (trapToEvent smiManager format now trap).fingerprint =
        (trapToEvent smiManager format later other).fingerprint ↔
      SameFields smiManager format trap.variableBindings other.variableBindings := by
  have hread : ∀ varBinds others : List VariableBinding,
      (varBinds.map fun vb => (some (fieldName smiManager format vb),
          (lastText smiManager format others (fieldName smiManager format vb)).map
            fun text => some (Obj.string text))) =
        (varBinds.map (fieldName smiManager format)).map fun name =>
          (some name, (lastText smiManager format others name).map
            fun text => some (Obj.string text)) := by
    intro varBinds others
    rw [List.map_map]
    rfl
  have htext : Function.Injective fun text => some (Obj.string text) := by
    intro text text' h
    cases h
    rfl
  rw [fingerprint_trapToEvent, fingerprint_trapToEvent, hread, hread, SameFields]
  constructor
  · intro h
    have hnames := congrArg (List.map Prod.fst) h
    simp only [List.map_map, Function.comp_def] at hnames
    have hsame : trap.variableBindings.map (fieldName smiManager format) =
        other.variableBindings.map (fieldName smiManager format) := by
      refine List.map_injective_iff.mpr (Option.some_injective _) ?_
      rw [List.map_map, List.map_map]
      exact hnames
    refine ⟨hsame, ?_⟩
    rw [← hsame] at h
    intro vb hvb
    have hpair := List.map_inj_left.mp h _ (List.mem_map_of_mem hvb)
    exact Option.map_injective htext (Prod.mk.inj hpair).2
  · intro h
    rw [← h.1]
    refine List.map_inj_left.mpr ?_
    rw [List.forall_mem_map]
    exact fun vb hvb => by rw [h.2 vb hvb]

/-- Two traps of one kind from one host have one fingerprint, and two traps of
different kinds or from different hosts have two. -/
def FingerprintIdentifies (now later : Date) (trap other : SnmpTrap) : Prop :=
  (trap.trapName = other.trapName → trap.host = other.host →
    trap.variableBindings.map VariableBinding.oid = other.variableBindings.map VariableBinding.oid →
      (trapToEvent smiManager format now trap).fingerprint =
        (trapToEvent smiManager format later other).fingerprint) ∧
  (trap.host ≠ other.host ∨ trap.trapName ≠ other.trapName →
    (trapToEvent smiManager format now trap).fingerprint ≠
      (trapToEvent smiManager format later other).fingerprint)

/-- The variable bindings decide: of one kind and one host they have to print
the same last texts, and otherwise they have to differ in a field or in what it
reads. -/
theorem fingerprintIdentifies_iff (now later : Date) (trap other : SnmpTrap) :
    FingerprintIdentifies smiManager format now later trap other ↔
      (trap.trapName = other.trapName → trap.host = other.host →
        trap.variableBindings.map VariableBinding.oid =
            other.variableBindings.map VariableBinding.oid →
          ∀ vb ∈ trap.variableBindings,
            lastText smiManager format trap.variableBindings (fieldName smiManager format vb) =
              lastText smiManager format other.variableBindings
                (fieldName smiManager format vb)) ∧
      (trap.host ≠ other.host ∨ trap.trapName ≠ other.trapName →
        ¬ SameFields smiManager format trap.variableBindings other.variableBindings) := by
  have hfields : trap.variableBindings.map VariableBinding.oid =
        other.variableBindings.map VariableBinding.oid →
      trap.variableBindings.map (fieldName smiManager format) =
        other.variableBindings.map (fieldName smiManager format) := by
    intro hoids
    have h := congrArg
      (List.map fun oid => truncateText (propertyName smiManager format oid)) hoids
    rw [List.map_map, List.map_map] at h
    exact h
  have hsame := fingerprint_eq_iff smiManager format now later trap other
  refine and_congr (forall₂_congr fun _ _ => forall_congr' fun hoids => ?_)
    (imp_congr_right fun _ => not_congr hsame)
  rw [hsame]
  exact ⟨fun h => h.2, fun h => ⟨hfields hoids, h⟩⟩

/-- A trap with the up time of the agent. -/
def trapAt (host : JString) (ticks : UInt32) : SnmpTrap where
  variableBindings := [⟨[1, 3, 6, 1, 2, 1, 1, 3, 0], .timeTicks ticks⟩]
  trapName := some (utf16 "linkDown")
  host := some host

/-- Texts without any MIB: OIDs in dotted form, and numbers in decimal. -/
def plainFormat : TextFormat where
  oid := toDottedString
  value vb := (vb.value.number.map decimal).getD []

/-- Two traps of one kind from one host that are one tick apart have two
fingerprints, and two traps of one tick from two hosts have one. -/
theorem fingerprintIdentifies_sysUpTime :
    ¬ FingerprintIdentifies (fun _ => none) plainFormat 0 0 (trapAt (utf16 "a") 42)
        (trapAt (utf16 "a") 43) ∧
      ¬ FingerprintIdentifies (fun _ => none) plainFormat 0 0 (trapAt (utf16 "a") 42)
        (trapAt (utf16 "b") 42) := by
  constructor
  · intro h
    exact absurd (h.1 rfl rfl rfl) (by decide)
  · intro h
    exact absurd rfl (h.2 (Or.inl (by decide)))

end BoundaryEventSdk.Snmp
