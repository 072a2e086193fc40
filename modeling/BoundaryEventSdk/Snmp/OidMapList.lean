import BoundaryEventSdk.Java.Heap
import BoundaryEventSdk.Java.LinkedHashSet
import BoundaryEventSdk.Java.Outcome
import BoundaryEventSdk.Java.Text

/-!
# OID lists

`oids.json` holds lists of OIDs, each OID with the metric it is reported as.
`OidMapList.getOids` collects the OIDs of the lists with the given ids in a
`LinkedHashSet`, under an equality that ignores the name and the `enabled`
flag.

The set keeps objects, and two equal objects are still two: `OidMap` has the
identity of the object as a field.  `getOids_eq` says which objects are kept,
and when `getOids` throws.
-/

namespace BoundaryEventSdk.Snmp

open BoundaryEventSdk.Java

/-- An `OidMap` object: its identity and its fields. -/
structure OidMap where
  object : Ref
  oid : Option JString := none
  name : Option JString := none
  metricId : Option JString := none
  enabled : Bool := true
  description : Option JString := none
  deriving DecidableEq, Repr, Inhabited

namespace OidMap

/-- What `OidMap.equals` compares. -/
def key (map : OidMap) : Option JString × Option JString × Option JString :=
  (map.description, map.metricId, map.oid)

/-- `OidMap.equals`. -/
def equals (map other : OidMap) : Bool :=
  map.key == other.key

/-- `OidMap.hashCode`. -/
def hashCode (map : OidMap) : UInt32 :=
  31 * (31 * (31 * 1 + hashOf map.description) + hashOf map.metricId) + hashOf map.oid

theorem hashCode_eq_of_equals {map other : OidMap} (h : map.equals other = true) :
    map.hashCode = other.hashCode := by
  have hkey : map.key = other.key := by simpa [equals] using h
  simp only [key, Prod.mk.injEq] at hkey
  rw [hashCode, hashCode, hkey.1, hkey.2.1, hkey.2.2]

end OidMap

/-- The fields of an `OidMapEntry` that the code reads, and its `enabled`
flag. -/
structure OidMapEntry where
  id : Int64 := 0
  enabled : Bool := true
  oids : Option (List OidMap) := none
  deriving DecidableEq, Repr

/-- `oids.add(oid)` on the set of `getOids`. -/
def addOid (oids : LinkedHashSet OidMap) (oid : OidMap) : LinkedHashSet OidMap :=
  oids.add OidMap.hashCode OidMap.equals oid

/-- `OidMapList.getOids`. -/
def getOids (oidList : Option (List OidMapEntry)) (ids : List Int64) :
    Except Throwable (List OidMap) := do
  let entries ← deref oidList
  let oids ← entries.foldlM (fun oids entry =>
    if ids.contains entry.id then
      (deref entry.oids).map fun maps =>
        maps.foldl (fun oids oid => if oid.enabled then addOid oids oid else oids) oids
    else .ok oids) []
  return LinkedHashSet.toList oids

/-! ## What is selected -/

/-- The OIDs that `getOids` visits, each with its list. -/
def visitedOids (entries : List OidMapEntry) (ids : List Int64) : List (OidMapEntry × OidMap) :=
  visits (fun entry => ids.contains entry.id) OidMapEntry.oids entries

/-- The enabled OIDs of the lists with the given ids, in file order. -/
def candidates (entries : List OidMapEntry) (ids : List Int64) : List OidMap :=
  ((visitedOids entries ids).filter fun visit => visit.2.enabled).map Prod.snd

theorem mem_candidates {entries : List OidMapEntry} {ids : List Int64} {oid : OidMap} :
    oid ∈ candidates entries ids ↔
      oid.enabled = true ∧
        ∃ entry ∈ entries, entry.id ∈ ids ∧ ∃ maps, entry.oids = some maps ∧ oid ∈ maps := by
  simp only [candidates, List.mem_map, List.mem_filter, Prod.exists, exists_eq_right, visitedOids,
    mem_visits, List.contains_iff_mem]
  constructor
  · intro hvisit
    obtain ⟨entry, ⟨hentry, hid, hmaps⟩, hon⟩ := hvisit
    exact ⟨hon, entry, hentry, hid, hmaps⟩
  · intro hlisted
    obtain ⟨hon, entry, hentry, hid, hmaps⟩ := hlisted
    exact ⟨entry, ⟨hentry, hid, hmaps⟩, hon⟩

/-- The lists that `getOids` reads are not `null`. -/
abbrev OidsPresent (entries : List OidMapEntry) (ids : List Int64) : Prop :=
  Present (fun entry => ids.contains entry.id) OidMapEntry.oids entries

/-- The list with repeats under `OidMap.equals` dropped after the first
occurrence. -/
def dropRepeats (oids : List OidMap) : List OidMap :=
  oids.eraseDupsBy fun oid other => oid.key == other.key

/-- A sequence of `addOid` keeps the first of equal objects. -/
theorem addOids_toList (oids : List OidMap) :
    LinkedHashSet.toList (oids.foldl addOid []) = dropRepeats oids :=
  LinkedHashSet.addAll_elements (fun _ _ h => OidMap.hashCode_eq_of_equals h) oids

/-- The loop of `getOids` adds the candidates. -/
theorem foldl_visitedOids (entries : List OidMapEntry) (ids : List Int64) :
    (visitedOids entries ids).foldl
        (fun oids visit => if visit.2.enabled then addOid oids visit.2 else oids) [] =
      (candidates entries ids).foldl addOid [] := by
  rw [candidates, List.foldl_map, List.foldl_filter]

/-- `getOids` keeps the first of equal candidates, and throws exactly when a
list it reads is `null`. -/
theorem getOids_eq (entries : List OidMapEntry) (ids : List Int64) :
    getOids (some entries) ids =
      if OidsPresent entries ids then
        .ok (dropRepeats (candidates entries ids))
      else .error .nullPointer := by
  rw [getOids, deref_some, ok_bind, foldlM_nested, ← addOids_toList, ← foldl_visitedOids]
  by_cases h : OidsPresent entries ids
  · rw [if_pos h, if_pos h]
    rfl
  · rw [if_neg h, if_neg h]
    rfl

/-- The result of a call of `getOids` that returned. -/
theorem getOids_ok {oidList : Option (List OidMapEntry)} {ids : List Int64} {oids : List OidMap}
    (h : getOids oidList ids = .ok oids) :
    ∃ entries, oidList = some entries ∧ oids = dropRepeats (candidates entries ids) := by
  cases oidList with
  | none => cases h
  | some entries =>
    rw [getOids_eq] at h
    split at h
    · cases h
      exact ⟨entries, rfl, rfl⟩
    · cases h

end BoundaryEventSdk.Snmp
