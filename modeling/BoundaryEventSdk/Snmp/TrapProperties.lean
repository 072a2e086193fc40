import BoundaryEventSdk.Snmp.TrapFingerprint

/-!
# The properties of a trap

The script `trapToEvent` makes each variable binding a property.  Its name is
that of the MIB object, without the module and without the instance, or else
the text of the OID.  A map takes both kinds of names, so two variable bindings
may ask for one name, and then the later one is kept.

The loop is a loop of `put` over `trapProperty`, and the number of properties
alone tells whether a variable binding was lost.
-/

namespace BoundaryEventSdk.Snmp

open BoundaryEventSdk.Java
open BoundaryEventSdk.Event (Date OwnedEvent RawEvent Obj)

variable (smiManager : SmiManager) (format : TextFormat)

/-- The property that a variable binding asks for. -/
def trapProperty (vb : VariableBinding) : Option JString × Option Obj :=
  (some (propertyName smiManager format vb.oid), some (.string (format.value vb)))

theorem properties_foldl_addVarBind (varBinds : List VariableBinding) (event : OwnedEvent) :
    (varBinds.foldl (addVarBind smiManager format) event).properties.getD .empty =
      (varBinds.map (trapProperty smiManager format)).foldl
        (fun properties entry => properties.put entry.1 entry.2)
        (event.properties.getD .empty) := by
  induction varBinds generalizing event with
  | nil => rfl
  | cons vb varBinds ih =>
    rw [List.foldl_cons, ih]
    rfl

theorem properties_trapToEvent (now : Date) (trap : SnmpTrap) :
    (trapToEvent smiManager format now trap).properties.getD .empty =
      (trap.variableBindings.map (trapProperty smiManager format)).foldl
        (fun properties entry => properties.put entry.1 entry.2) .empty := by
  rw [(trapToEvent_keeps smiManager format now trap).2, properties_foldl_addVarBind]
  rfl

/-- Every variable binding has a property of its own, and there are no others. -/
structure KeepsEveryVarBind (event : OwnedEvent) (varBinds : List VariableBinding) : Prop where
  count : event.getProperties.1.entries.length = varBinds.length
  stored : ∀ vb ∈ varBinds,
    event.property (propertyName smiManager format vb.oid) = some (some (.string (format.value vb)))
  distinct : (varBinds.map fun vb => propertyName smiManager format vb.oid).Nodup
  noOther : ∀ entry ∈ event.getProperties.1.entries,
    ∃ vb ∈ varBinds, entry = trapProperty smiManager format vb

/-- Two variable bindings do not ask for one name: no two objects of them have
one name, and no object is named like the OID of a variable binding without an
object. -/
structure NamesApart (varBinds : List VariableBinding) : Prop where
  objects : ∀ vb ∈ varBinds, ∀ other ∈ varBinds, ∀ obj ∈ smiManager vb.oid,
    ∀ obj' ∈ smiManager other.oid, obj.objectName = obj'.objectName → vb.oid = other.oid
  texts : ∀ vb ∈ varBinds, ∀ other ∈ varBinds, ∀ obj ∈ smiManager vb.oid,
    smiManager other.oid = none → obj.objectName ≠ format.oid other.oid

variable {smiManager format}

theorem propertyName_of_object {oid : Oid} {obj : SmiObject} (h : smiManager oid = some obj) :
    propertyName smiManager format oid = obj.objectName := by
  rw [propertyName, h]

theorem propertyName_of_none {oid : Oid} (h : smiManager oid = none) :
    propertyName smiManager format oid = format.oid oid := by
  rw [propertyName, h]

/-- The names of distinct OIDs differ exactly when the two naming schemes do not
clash. -/
theorem nodup_propertyName_iff {varBinds : List VariableBinding}
    (hoids : (varBinds.map VariableBinding.oid).Nodup) (hformat : Function.Injective format.oid) :
    (varBinds.map fun vb => propertyName smiManager format vb.oid).Nodup ↔
      NamesApart smiManager format varBinds := by
  rw [List.nodup_map_iff_inj_on (List.Nodup.of_map _ hoids)]
  constructor
  · intro hinj
    constructor
    · intro vb hvb other hother obj hobj obj' hobj' hname
      rw [hinj vb hvb other hother]
      rw [propertyName_of_object hobj, propertyName_of_object hobj', hname]
    · intro vb hvb other hother obj hobj hnone hname
      have hsame := hinj vb hvb other hother (by
        rw [propertyName_of_object hobj, propertyName_of_none hnone, hname])
      rw [hsame, hnone] at hobj
      cases hobj
  · intro hapart vb hvb other hother hname
    refine List.inj_on_of_nodup_map hoids hvb hother ?_
    cases hobj : smiManager vb.oid with
    | some obj =>
      rw [propertyName_of_object hobj] at hname
      cases hobj' : smiManager other.oid with
      | some obj' =>
        rw [propertyName_of_object hobj'] at hname
        exact hapart.objects vb hvb other hother obj hobj obj' hobj' hname
      | none =>
        rw [propertyName_of_none hobj'] at hname
        exact absurd hname (hapart.texts vb hvb other hother obj hobj hobj')
    | none =>
      rw [propertyName_of_none hobj] at hname
      cases hobj' : smiManager other.oid with
      | some obj' =>
        rw [propertyName_of_object hobj'] at hname
        exact absurd hname.symm (hapart.texts other hother vb hvb obj' hobj' hobj)
      | none =>
        rw [propertyName_of_none hobj'] at hname
        exact hformat hname

theorem nodup_keys_iff (varBinds : List VariableBinding) :
    ((varBinds.map (trapProperty smiManager format)).map Prod.fst).Nodup ↔
      (varBinds.map fun vb => propertyName smiManager format vb.oid).Nodup := by
  have hkeys : (varBinds.map (trapProperty smiManager format)).map Prod.fst =
      (varBinds.map fun vb => propertyName smiManager format vb.oid).map some := by
    rw [List.map_map, List.map_map]
    rfl
  rw [hkeys, List.nodup_map_iff (Option.some_injective _)]

/-- An event with as many properties as variable bindings has lost none. -/
theorem nodup_propertyName_of_count {now : Date} {trap : SnmpTrap}
    (h : (trapToEvent smiManager format now trap).getProperties.1.entries.length =
      trap.variableBindings.length) :
    (trap.variableBindings.map fun vb => propertyName smiManager format vb.oid).Nodup := by
  rw [RawEvent.getProperties, properties_trapToEvent,
    ← List.length_map (f := trapProperty smiManager format)] at h
  exact (nodup_keys_iff _).mp (LinkedHashMap.putAll_length_iff.mp h)

theorem keepsEveryVarBind_of_nodup (now : Date) {trap : SnmpTrap}
    (h : (trap.variableBindings.map fun vb => propertyName smiManager format vb.oid).Nodup) :
    KeepsEveryVarBind smiManager format (trapToEvent smiManager format now trap)
      trap.variableBindings := by
  have hkeys := (nodup_keys_iff trap.variableBindings).mpr h
  have hperm := LinkedHashMap.putAll_perm_iff.mpr hkeys
  rw [← properties_trapToEvent smiManager format now trap] at hperm
  constructor
  · rw [RawEvent.getProperties, hperm.length_eq, List.length_map]
  · intro vb hvb
    rw [RawEvent.property, LinkedHashMap.get_eq_some_iff, hperm.mem_iff]
    exact List.mem_map_of_mem (f := trapProperty smiManager format) hvb
  · exact h
  · intro entry hentry
    rw [RawEvent.getProperties, hperm.mem_iff] at hentry
    obtain ⟨vb, hvb, rfl⟩ := List.mem_map.mp hentry
    exact ⟨vb, hvb, rfl⟩

/-- No variable binding is lost exactly when the names do not clash. -/
theorem keepsEveryVarBind_iff (smiManager : SmiManager) (format : TextFormat) (now : Date)
    (trap : SnmpTrap) (hoids : (trap.variableBindings.map VariableBinding.oid).Nodup)
    (hformat : Function.Injective format.oid) :
    KeepsEveryVarBind smiManager format (trapToEvent smiManager format now trap)
        trap.variableBindings ↔
      NamesApart smiManager format trap.variableBindings := by
  rw [← nodup_propertyName_iff hoids hformat]
  constructor
  · intro hkeeps
    exact nodup_propertyName_of_count hkeeps.count
  · exact keepsEveryVarBind_of_nodup now

/-! ## Interfaces -/

/-- `IF-MIB::ifDescr`. -/
def ifDescr : Oid := [1, 3, 6, 1, 2, 1, 2, 2, 1, 2]

/-- A MIB that knows the column `ifDescr` and so names each of its instances. -/
def ifMib (oid : Oid) : Option SmiObject :=
  if ifDescr.isPrefixOf oid then some ⟨.other 0, utf16 "ifDescr"⟩ else none

/-- A trap with the descriptions of these interfaces. -/
def ifDescrTrap (interfaces : List UInt32) : SnmpTrap where
  variableBindings := interfaces.map fun index => ⟨ifDescr ++ [index], .integer32 0⟩

/-- A trap with the up time, which the MIB does not know, and the description of an
interface. -/
def upTimeTrap : SnmpTrap where
  variableBindings :=
    [⟨[1, 3, 6, 1, 2, 1, 1, 3, 0], .integer32 42⟩, ⟨ifDescr ++ [1], .integer32 0⟩]

theorem keepsEveryVarBind_upTime :
    KeepsEveryVarBind ifMib plainFormat (trapToEvent ifMib plainFormat 0 upTimeTrap)
        upTimeTrap.variableBindings ∧
      upTimeTrap.variableBindings.map (fun vb => propertyName ifMib plainFormat vb.oid) =
        [utf16 "1.3.6.1.2.1.1.3.0", utf16 "ifDescr"] :=
  ⟨(keepsEveryVarBind_iff ifMib plainFormat 0 upTimeTrap (by decide)
    toDottedString_injective).mpr ⟨by decide, by decide⟩, by decide⟩

/-- The descriptions of two interfaces go under one name. -/
theorem not_keepsEveryVarBind_twoInterfaces :
    ((ifDescrTrap [1, 2]).variableBindings.map VariableBinding.oid).Nodup ∧
      Function.Injective plainFormat.oid ∧
      ¬ KeepsEveryVarBind ifMib plainFormat
        (trapToEvent ifMib plainFormat 0 (ifDescrTrap [1, 2]))
        (ifDescrTrap [1, 2]).variableBindings := by
  refine ⟨by decide, toDottedString_injective, ?_⟩
  intro hkeeps
  exact absurd (nodup_propertyName_of_count hkeeps.count) (by decide)

end BoundaryEventSdk.Snmp
