import BoundaryEventSdk.Snmp.SnmpMetricCatalog

/-!
# Which OIDs a poller selects

Three switches stand between a poller and an OID: one on the reference, one on
the list and one on the OID itself.  `getOids` never reads the second.  This
module says what that changes: the selection is the intended one exactly when
every OID that a switched-off list contributes repeats an OID that a switched-on
list contributed earlier.
-/

namespace BoundaryEventSdk.Snmp

open BoundaryEventSdk.Java

/-! ## Repeats -/

theorem dropRepeats_append_singleton (oids : List OidMap) (oid : OidMap) :
    dropRepeats (oids ++ [oid]) =
      if oid.key ∈ (dropRepeats oids).map OidMap.key then dropRepeats oids
      else dropRepeats oids ++ [oid] := by
  have hany : ((dropRepeats oids).any fun other => oid.key == other.key) = true ↔
      oid.key ∈ (dropRepeats oids).map OidMap.key := by
    simp only [List.any_eq_true, List.mem_map, beq_iff_eq, @eq_comm _ oid.key]
  rw [dropRepeats, eraseDupsBy_append_singleton, ← dropRepeats]
  exact if_congr hany rfl rfl

/-- The kept OIDs have the keys of all of them. -/
theorem key_mem_dropRepeats {oids : List OidMap} {oid : OidMap} (h : oid ∈ oids) :
    oid.key ∈ (dropRepeats oids).map OidMap.key := by
  obtain ⟨kept, hkept, hkey⟩ := exists_mem_eraseDupsBy_key OidMap.key h
  exact hkey ▸ List.mem_map_of_mem hkept

/-! ## The selection -/

/-- The selection that the three switches describe: the enabled OIDs of the
enabled lists with the given ids, in file order and without repeats. -/
def intendedOids (entries : List OidMapEntry) (ids : List Int64) : List OidMap :=
  dropRepeats (candidates (entries.filter OidMapEntry.enabled) ids)

/-- Each enabled OID of a disabled list that the ids name comes after an equal
one of an enabled list that they name. -/
def DisabledRepeat (entries : List OidMapEntry) (ids : List Int64) : Prop :=
  ∀ front visit back, visitedOids entries ids = front ++ visit :: back →
    visit.2.enabled = true → visit.1.enabled = false →
      ∃ earlier ∈ front, earlier.1.enabled = true ∧ earlier.2.enabled = true ∧
        earlier.2.key = visit.2.key

/-- No `OidMap` belongs to two lists, as decoding makes a new object for every
OID of every list. -/
def OwnedOids (entries : List OidMapEntry) : Prop :=
  ∀ entry ∈ entries, ∀ other ∈ entries, ∀ oid,
    oid ∈ entry.oids.getD [] → oid ∈ other.oids.getD [] → entry = other

/-- The OIDs of the visits that are enabled. -/
def enabledOids (visited : List (OidMapEntry × OidMap)) : List OidMap :=
  (visited.filter fun visit => visit.2.enabled).map Prod.snd

/-- The OIDs of the visits that are enabled and stand in an enabled list. -/
def intendedVisits (visited : List (OidMapEntry × OidMap)) : List OidMap :=
  enabledOids (visited.filter fun visit => visit.1.enabled)

theorem intendedOids_eq (entries : List OidMapEntry) (ids : List Int64) :
    intendedOids entries ids = dropRepeats (intendedVisits (visitedOids entries ids)) := by
  rw [intendedOids, candidates, visitedOids, visits_filter]
  rfl

/-- The lists under way: where every disabled contribution repeats an earlier
enabled one, dropping the repeats drops the disabled contributions. -/
theorem dropRepeats_enabledOids {visited : List (OidMapEntry × OidMap)}
    (h : ∀ front visit back, visited = front ++ visit :: back →
      visit.2.enabled = true → visit.1.enabled = false →
        ∃ earlier ∈ front, earlier.1.enabled = true ∧ earlier.2.enabled = true ∧
          earlier.2.key = visit.2.key) :
    dropRepeats (enabledOids visited) = dropRepeats (intendedVisits visited) := by
  induction visited using List.reverseRecOn with
  | nil => rfl
  | append_singleton visited visit ih =>
    have hrest := ih fun front v back hsplit =>
      h front v (back ++ [visit]) (by rw [hsplit]; simp)
    by_cases hon : visit.2.enabled = true
    · have henabled : enabledOids (visited ++ [visit]) = enabledOids visited ++ [visit.2] := by
        simp [enabledOids, hon]
      by_cases hlist : visit.1.enabled = true
      · have hintended :
            intendedVisits (visited ++ [visit]) = intendedVisits visited ++ [visit.2] := by
          simp [intendedVisits, enabledOids, hon, hlist]
        rw [henabled, hintended, dropRepeats_append_singleton, dropRepeats_append_singleton, hrest]
      · rw [Bool.not_eq_true] at hlist
        have hintended : intendedVisits (visited ++ [visit]) = intendedVisits visited := by
          simp [intendedVisits, enabledOids, hlist]
        obtain ⟨earlier, hearlier, -, hoid, hkey⟩ := h visited visit [] rfl hon hlist
        have hmem : earlier.2 ∈ enabledOids visited :=
          List.mem_map_of_mem (List.mem_filter.mpr ⟨hearlier, hoid⟩)
        rw [henabled, hintended, dropRepeats_append_singleton,
          if_pos (hkey ▸ key_mem_dropRepeats hmem)]
        exact hrest
    · rw [Bool.not_eq_true] at hon
      have henabled : enabledOids (visited ++ [visit]) = enabledOids visited := by
        simp [enabledOids, hon]
      have hintended : intendedVisits (visited ++ [visit]) = intendedVisits visited := by
        simp [intendedVisits, enabledOids, List.filter_append, hon, List.filter_cons]
      rw [henabled, hintended]
      exact hrest

theorem mem_enabledOids {visited : List (OidMapEntry × OidMap)} {oid : OidMap} :
    oid ∈ enabledOids visited ↔ ∃ visit ∈ visited, visit.2.enabled = true ∧ visit.2 = oid := by
  simp only [enabledOids, List.mem_map, List.mem_filter, and_assoc]

theorem mem_intendedVisits {visited : List (OidMapEntry × OidMap)} {oid : OidMap} :
    oid ∈ intendedVisits visited ↔
      ∃ visit ∈ visited, visit.1.enabled = true ∧ visit.2.enabled = true ∧ visit.2 = oid := by
  simp only [intendedVisits, mem_enabledOids, List.mem_filter, and_assoc]

/-- Two visits of one object are visits of one list. -/
theorem visit_list_eq {entries : List OidMapEntry} (howned : OwnedOids entries) {ids : List Int64}
    {visit other : OidMapEntry × OidMap} (hvisit : visit ∈ visitedOids entries ids)
    (hother : other ∈ visitedOids entries ids) (hoid : visit.2 = other.2) :
    visit.1 = other.1 := by
  obtain ⟨hentry, _, maps, hmaps, hmem⟩ := mem_visits.mp hvisit
  obtain ⟨hentry', _, maps', hmaps', hmem'⟩ := mem_visits.mp hother
  refine howned visit.1 hentry other.1 hentry' visit.2 ?_ ?_
  · rw [hmaps]
    exact hmem
  · rw [hmaps', hoid]
    exact hmem'

/-- Conversely, a disabled contribution without an earlier enabled one is the
first of its key that is kept, or follows such a one, and the intended
selection does not have it. -/
theorem disabledRepeat_of_eq {entries : List OidMapEntry} (howned : OwnedOids entries)
    {ids : List Int64}
    (h : dropRepeats (enabledOids (visitedOids entries ids)) =
      dropRepeats (intendedVisits (visitedOids entries ids))) : DisabledRepeat entries ids := by
  intro front visit back hsplit hon hlist
  have hmem : visit.2 ∈ enabledOids (front ++ [visit]) :=
    mem_enabledOids.mpr ⟨visit, by simp, hon, rfl⟩
  obtain ⟨kept, hkept, hkey⟩ := List.mem_map.mp (key_mem_dropRepeats hmem)
  have hall : enabledOids (visitedOids entries ids) =
      enabledOids (front ++ [visit]) ++ enabledOids back := by
    rw [hsplit, List.append_cons, enabledOids, List.filter_append, List.map_append]
    rfl
  have hintended : kept ∈ dropRepeats (intendedVisits (visitedOids entries ids)) := by
    rw [← h, hall]
    exact (isPrefix_eraseDupsBy _ _ _).subset hkept
  obtain ⟨source, hsource, hsourceList, _, hsourceOid⟩ :=
    mem_intendedVisits.mp (mem_of_mem_eraseDupsBy hintended)
  obtain ⟨earlier, hearlier, hearlierOn, hearlierOid⟩ :=
    mem_enabledOids.mp (mem_of_mem_eraseDupsBy hkept)
  have hvisited : earlier ∈ visitedOids entries ids := by
    rw [hsplit]
    rcases List.mem_append.mp hearlier with hearlier | hearlier
    · exact List.mem_append_left _ hearlier
    · rw [List.mem_singleton.mp hearlier]
      simp
  have hsame : earlier.1 = source.1 :=
    visit_list_eq howned hvisited hsource (hearlierOid.trans hsourceOid.symm)
  have hearlierList : earlier.1.enabled = true := hsame ▸ hsourceList
  rcases List.mem_append.mp hearlier with hearlier | hearlier
  · exact ⟨earlier, hearlier, hearlierList, hearlierOn, by rw [hearlierOid, hkey]⟩
  · rw [List.mem_singleton.mp hearlier, hlist] at hearlierList
    cases hearlierList

/-- `getOids` and the intended selection, in terms of the visits. -/
theorem getOids_eq_intended_iff {entries : List OidMapEntry} {ids : List Int64}
    (hpresent : OidsPresent entries ids) :
    getOids (some entries) ids = .ok (intendedOids entries ids) ↔
      dropRepeats (enabledOids (visitedOids entries ids)) =
        dropRepeats (intendedVisits (visitedOids entries ids)) := by
  rw [getOids_eq, if_pos hpresent, intendedOids_eq, Except.ok.injEq]
  rfl

/-! ## What is polled -/

/-- The text is the OID of an enabled `OidMap` of an enabled list. -/
def OccursEnabled (entries : List OidMapEntry) (text : Option JString) : Prop :=
  ∃ entry ∈ entries, entry.enabled = true ∧
    ∃ oid ∈ entry.oids.getD [], oid.enabled = true ∧ oid.oid = text

/-- Whether the OIDs of a poller occur enabled is decided by its disabled
lists alone. -/
theorem polled_occursEnabled_iff {entries : List OidMapEntry} {ids : List Int64} :
    (∀ oid ∈ dropRepeats (candidates entries ids), OccursEnabled entries oid.oid) ↔
      ∀ entry ∈ entries, entry.id ∈ ids → entry.enabled = false →
        ∀ oid ∈ entry.oids.getD [], oid.enabled = true → OccursEnabled entries oid.oid := by
  constructor
  · intro h entry hentry hid _ oid hoid hon
    have hcandidate : oid ∈ candidates entries ids := by
      cases hmaps : entry.oids with
      | none => simp [hmaps] at hoid
      | some maps =>
        rw [hmaps] at hoid
        exact mem_candidates.mpr ⟨hon, entry, hentry, hid, maps, hmaps, hoid⟩
    obtain ⟨kept, hkept, hkey⟩ := List.mem_map.mp (key_mem_dropRepeats hcandidate)
    have htext : kept.oid = oid.oid := congrArg (fun key => key.2.2) hkey
    exact htext ▸ h kept hkept
  · intro h oid hoid
    obtain ⟨hon, entry, hentry, hid, maps, hmaps, hmem⟩ :=
      mem_candidates.mp (mem_of_mem_eraseDupsBy hoid)
    have hmem' : oid ∈ entry.oids.getD [] := by rwa [hmaps]
    cases henabled : entry.enabled with
    | true => exact ⟨entry, hentry, henabled, oid, hmem', hon, rfl⟩
    | false => exact h entry hentry hid henabled oid hmem' hon

/-- `getOids` selects the OIDs that the three switches describe exactly when
every contribution of a disabled list repeats an earlier one of an enabled
list, and `load` polls no OID that only disabled places have exactly when the
disabled lists of each poller with a host have no such OID. -/
theorem oid_selection (entries : List OidMapEntry) (ids : List Int64)
    (catalog : SnmpMetricCatalog) :
    ((∀ entry ∈ entries, entry.oids.isSome = true) →
      (DisabledRepeat entries ids →
        getOids (some entries) ids = .ok (intendedOids entries ids)) ∧
      (OwnedOids entries → getOids (some entries) ids = .ok (intendedOids entries ids) →
        DisabledRepeat entries ids)) ∧
    ∀ list : List SnmpPollerConfiguration, catalog.load = .ok list →
      ((∀ c ∈ list, ∀ oid ∈ c.oids, OccursEnabled (catalog.oidLists.getD []) oid.oid) ↔
        ∀ poller ∈ catalog.pollers.getD [], catalog.HasHost poller →
          ∀ entry ∈ catalog.oidLists.getD [], entry.id ∈ enabledRefIds poller.oidLists →
            entry.enabled = false → ∀ oid ∈ entry.oids.getD [], oid.enabled = true →
              OccursEnabled (catalog.oidLists.getD []) oid.oid) := by
  constructor
  · intro hlists
    have hpresent : OidsPresent entries ids := fun entry hentry _ => hlists entry hentry
    rw [getOids_eq_intended_iff hpresent]
    exact ⟨dropRepeats_enabledOids, fun howned => disabledRepeat_of_eq howned⟩
  · intro list hload
    have hcovers := SnmpMetricCatalog.load_ok hload
    constructor
    · intro h poller hpoller hhost
      obtain ⟨c, hc, hoids⟩ := hcovers.ofPoller poller hpoller hhost
      have hpolled := h c hc
      rw [SnmpMetricCatalog.pollerOids_ok hoids] at hpolled
      exact polled_occursEnabled_iff.mp hpolled
    · intro h c hc
      obtain ⟨poller, hpoller, hhost, hoids⟩ := hcovers.fromPoller c hc
      rw [SnmpMetricCatalog.pollerOids_ok hoids]
      exact polled_occursEnabled_iff.mpr (h poller hpoller hhost)

/-- A poller of one host that uses two OID lists: the second one is disabled and repeats an OID
of the first one. -/
def repeatedOid : SnmpMetricCatalog where
  pollers := some
    [{ delay := 5, hostLists := some [⟨1, true⟩], oidLists := some [⟨1, true⟩, ⟨2, true⟩] }]
  hostLists := some [{ id := some 1, hosts := some [0] }]
  oidLists := some
    [{ id := 1,
       oids := some [{ object := 0, oid := some (utf16 "1.3.6.1.2.1.1.3.0") },
         { object := 1, oid := some (utf16 "1.3.6.1.2.1.2.1.0") }] },
     { id := 2, enabled := false,
       oids := some [{ object := 2, oid := some (utf16 "1.3.6.1.2.1.1.3.0") }] }]
  hosts := fun _ => { host := some (utf16 "localhost") }

theorem repeatedOid_load :
    repeatedOid.load =
      .ok [{ delay := 5,
             oids := [{ object := 0, oid := some (utf16 "1.3.6.1.2.1.1.3.0") },
               { object := 1, oid := some (utf16 "1.3.6.1.2.1.2.1.0") }] }] :=
  rfl

theorem repeatedOid_owned : OwnedOids (repeatedOid.oidLists.getD []) := by
  have hall : ∀ entry ∈ repeatedOid.oidLists.getD [], ∀ other ∈ repeatedOid.oidLists.getD [],
      ∀ oid ∈ entry.oids.getD [], oid ∈ other.oids.getD [] → entry = other := by
    decide
  intro entry hentry other hother oid hoid
  exact hall entry hentry other hother oid hoid

theorem oid_selection_repeatedOid :
    getOids repeatedOid.oidLists [1, 2] =
        .ok (intendedOids (repeatedOid.oidLists.getD []) [1, 2]) ∧
      DisabledRepeat (repeatedOid.oidLists.getD []) [1, 2] ∧
      ∃ list, repeatedOid.load = .ok list ∧
        ∀ c ∈ list, ∀ oid ∈ c.oids, OccursEnabled (repeatedOid.oidLists.getD []) oid.oid := by
  obtain ⟨hselected, hpolls⟩ :=
    oid_selection (repeatedOid.oidLists.getD []) [1, 2] repeatedOid
  have hrepeat : DisabledRepeat (repeatedOid.oidLists.getD []) [1, 2] :=
    (hselected (by decide)).2 repeatedOid_owned rfl
  refine ⟨(hselected (by decide)).1 hrepeat, hrepeat, _, repeatedOid_load, ?_⟩
  apply (hpolls _ repeatedOid_load).mpr
  intro poller _ _ entry hentry _ hdisabled oid hoid _
  rcases List.mem_cons.mp hentry with rfl | hentry
  · cases hdisabled
  · cases List.mem_singleton.mp hentry
    cases List.mem_singleton.mp hoid
    exact ⟨_, List.mem_cons_self, rfl, _, List.mem_cons_self, rfl, rfl⟩

/-- One poller, one host and one OID list with one OID. -/
def singleOid (enabled : Bool) : SnmpMetricCatalog where
  pollers := some [{ delay := 5, hostLists := some [⟨1, true⟩], oidLists := some [⟨1, true⟩] }]
  hostLists := some [{ id := some 1, hosts := some [0] }]
  oidLists := some
    [{ id := 1, enabled := enabled,
       oids := some [{ object := 0, oid := some (utf16 "1.3.6.1.2.1.1.3.0") }] }]
  hosts := fun _ => { host := some (utf16 "localhost") }

theorem singleOid_load (enabled : Bool) :
    (singleOid enabled).load =
      .ok [{ delay := 5, oids := [{ object := 0, oid := some (utf16 "1.3.6.1.2.1.1.3.0") }] }] := by
  cases enabled <;> rfl

/-- The `enabled` flag of a list is not read: a disabled list is selected, and
what only it has is polled. -/
theorem getOids_disabled_list :
    getOids (singleOid false).oidLists [1] ≠
        .ok (intendedOids ((singleOid false).oidLists.getD []) [1]) ∧
      ∃ list, (singleOid false).load = .ok list ∧ ∃ c ∈ list, ∃ oid ∈ c.oids,
        ¬ OccursEnabled ((singleOid false).oidLists.getD []) oid.oid := by
  refine ⟨?_, _, singleOid_load false, _, List.mem_singleton.mpr rfl, _, List.mem_singleton.mpr rfl,
    ?_⟩
  · intro h
    cases h
  · intro hoccurs
    obtain ⟨entry, hentry, hon, _⟩ := hoccurs
    rw [List.mem_singleton.mp hentry] at hon
    cases hon

end BoundaryEventSdk.Snmp
