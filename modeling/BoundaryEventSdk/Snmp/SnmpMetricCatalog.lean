import BoundaryEventSdk.Snmp.HostLists
import BoundaryEventSdk.Snmp.OidMapList

/-!
# `SnmpMetricCatalog.load`

A poller names host lists and OID lists by id, through references that can be
switched off.  `load` makes one configuration for each host of each poller.
It resolves the pollers one after another over the same `Host` objects, which
`getHosts` completes in place.

`load_resolves` gives the result from the three files alone.  Its induction is
over the pollers and its invariant is `Settling`: the hosts that earlier pollers
completed are the hosts that this poller would have completed anyway.
-/

namespace BoundaryEventSdk.Snmp

open BoundaryEventSdk.Java

/-- A reference of a poller to a list. -/
structure ListRef where
  id : Int64
  enabled : Bool
  deriving DecidableEq, Repr

/-- `HostListRef`. -/
abbrev HostListRef := ListRef

/-- `OidMapListRef`. -/
abbrev OidMapListRef := ListRef

/-- The fields of a `PollerEntry` that the code reads. -/
structure PollerEntry where
  delay : Int64 := 0
  hostLists : Option (List HostListRef) := some []
  oidLists : Option (List OidMapListRef) := some []
  deriving DecidableEq, Repr

/-- The ids of the references that are enabled, each once. -/
def enabledIds (refs : Option (List ListRef)) : Except Throwable (List Int64) := do
  let refs ← deref refs
  let ids := refs.foldl (fun ids ref =>
    if ref.enabled then LinkedHashSet.add longHashCode (· == ·) ids ref.id else ids) []
  return LinkedHashSet.toList ids

/-- `PollerEntry.getHostListIds`. -/
def PollerEntry.getHostListIds (entry : PollerEntry) : Except Throwable (List Int64) :=
  enabledIds entry.hostLists

/-- `PollerEntry.getOidListIds`. -/
def PollerEntry.getOidListIds (entry : PollerEntry) : Except Throwable (List Int64) :=
  enabledIds entry.oidLists

/-- The fields of a `SnmpPollerConfiguration`.  The default values are those
of `new SnmpPollerConfiguration()`. -/
structure SnmpPollerConfiguration where
  host : Option JString := some (utf16 "localhost")
  port : Int64 := 161
  oids : List OidMap := []
  communityRead : Option JString := some (utf16 "public")
  delay : Int64 := 5
  deriving DecidableEq, Repr

/-- The decoded files: the three top-level lists and the `Host` objects. -/
structure SnmpMetricCatalog where
  pollers : Option (List PollerEntry)
  hostLists : Option (List HostListEntry)
  oidLists : Option (List OidMapEntry)
  hosts : HostHeap

namespace SnmpMetricCatalog

/-- `oidLists.getOids(entry.getOidListIds())`. -/
def pollerOids (catalog : SnmpMetricCatalog) (entry : PollerEntry) :
    Except Throwable (List OidMap) := do
  let ids ← entry.getOidListIds
  getOids catalog.oidLists ids

/-- The configuration of one host, once the OIDs are there. -/
def configuration (entry : PollerEntry) (host : Host) (oids : List OidMap) :
    SnmpPollerConfiguration :=
  { delay := entry.delay
    host := host.host
    port := host.port
    communityRead := host.communityRead
    oids := oids }

/-- The body of the loop over the hosts in `load`. -/
def configure (catalog : SnmpMetricCatalog) (entry : PollerEntry) (host : Host) :
    Except Throwable SnmpPollerConfiguration := do
  let oids ← catalog.pollerOids entry
  return configuration entry host oids

/-- The body of the loop over the pollers in `load`. -/
def loadPoller (catalog : SnmpMetricCatalog) (state : List SnmpPollerConfiguration × HostHeap)
    (entry : PollerEntry) : Except Throwable (List SnmpPollerConfiguration × HostHeap) := do
  let ids ← entry.getHostListIds
  let (hosts, heap) ← getHosts catalog.hostLists ids state.2
  let configurations ← hosts.mapM fun ref => catalog.configure entry (heap ref)
  return (state.1 ++ configurations, heap)

/-- `SnmpMetricCatalog.load`, after the files are decoded. -/
def load (catalog : SnmpMetricCatalog) : Except Throwable (List SnmpPollerConfiguration) := do
  let pollers ← deref catalog.pollers
  let (list, _) ← pollers.foldlM catalog.loadPoller ([], catalog.hosts)
  return list

end SnmpMetricCatalog

/-! ## References -/

/-- The ids of the enabled references, as the file has them. -/
def enabledRefIds (refs : Option (List ListRef)) : List Int64 :=
  ((refs.getD []).filter ListRef.enabled).map ListRef.id

theorem enabledIds_some (refs : List ListRef) :
    enabledIds (some refs) = .ok (enabledRefIds (some refs)).eraseDups := by
  have hset : refs.foldl (fun ids ref =>
        if ref.enabled then LinkedHashSet.add longHashCode (· == ·) ids ref.id else ids) [] =
      (enabledRefIds (some refs)).foldl (LinkedHashSet.add longHashCode (· == ·)) [] := by
    rw [enabledRefIds, Option.getD_some, List.foldl_map, List.foldl_filter]
  have hsame : ∀ id other : Int64, (id == other) = true → longHashCode id = longHashCode other := by
    intro id other h
    rw [beq_iff_eq.mp h]
  rw [enabledIds, deref_some, ok_bind, hset]
  exact congrArg Except.ok (LinkedHashSet.addAll_elements hsame _)

/-- The ids of a call that returned are those of the enabled references. -/
theorem mem_enabledIds {refs : Option (List ListRef)} {ids : List Int64}
    (h : enabledIds refs = .ok ids) (id : Int64) : id ∈ ids ↔ id ∈ enabledRefIds refs := by
  cases refs with
  | none => cases h
  | some refs =>
    rw [enabledIds_some] at h
    cases h
    exact List.mem_eraseDups

theorem contains_congr {ids others : List Int64} (h : ∀ id, id ∈ ids ↔ id ∈ others) :
    ids.contains = others.contains := by
  funext id
  rw [Bool.eq_iff_iff, List.contains_iff_mem, List.contains_iff_mem]
  exact h id

/-- `getOids` looks at the ids only to find a list in them. -/
theorem getOids_congr (oidList : Option (List OidMapEntry)) {ids others : List Int64}
    (h : ∀ id, id ∈ ids ↔ id ∈ others) : getOids oidList ids = getOids oidList others := by
  unfold getOids
  rw [contains_congr h]

/-- `getHosts` looks at the ids only to find a list in them. -/
theorem listedIn_congr {ids others : List Int64} (h : ∀ id, id ∈ ids ↔ id ∈ others) :
    HostListEntry.listedIn ids = HostListEntry.listedIn others := by
  funext entry
  rw [HostListEntry.listedIn, HostListEntry.listedIn, contains_congr h]

/-! ## The hosts of a poller -/

/-- What a host list offers: its enabled hosts, each with its own port and
community or else those of the list. -/
def HostListEntry.offers (decoded : HostHeap) (list : HostListEntry) :
    List (Option JString × Int64 × Option JString) :=
  ((list.hosts.getD []).filter fun ref => (decoded ref).enabled).map fun ref =>
    let host := decoded ref
    (host.host, if host.port = unknownPort then list.port else host.port,
      if host.communityRead = none then list.communityRead else host.communityRead)

/-- The resolved host list of a poller, from the files alone. -/
def SnmpMetricCatalog.resolvedHosts (catalog : SnmpMetricCatalog) (entry : PollerEntry) :
    List (Option JString × Int64 × Option JString) :=
  let lists :=
    (catalog.hostLists.getD []).filter (HostListEntry.listedIn (enabledRefIds entry.hostLists))
  (lists.flatMap (HostListEntry.offers catalog.hosts)).eraseDups

/-- The keys of the completed hosts are what their lists offer. -/
theorem map_key_enabledHosts {entries : List HostListEntry} (howned : OwnedHosts entries)
    (decoded : HostHeap) (ids : List Int64) :
    (enabledHosts decoded (visitedHosts entries ids)).map
        (fun ref => (settle entries decoded ref).key) =
      (entries.filter (HostListEntry.listedIn ids)).flatMap (HostListEntry.offers decoded) := by
  have hsettled : ∀ visit ∈ (visitedHosts entries ids).filter fun v => (decoded v.2).enabled,
      (settle entries decoded visit.2).key = ((decoded visit.2).complete visit.1).key := by
    intro visit hvisit
    obtain ⟨hentry, hholds⟩ := mem_visitedHosts (List.mem_of_mem_filter hvisit)
    rw [settle_eq howned decoded hentry hholds]
  rw [enabledHosts, List.map_map]
  refine (List.map_congr_left hsettled).trans ?_
  rw [visitedHosts, visits, List.filter_flatMap, List.map_flatMap]
  refine congrArg₂ List.flatMap ?_ rfl
  funext list
  rw [List.filter_map, List.map_map]
  rfl

/-- `getHosts` returns the resolved hosts, from a heap in which any hosts were
completed before, and leaves such a heap. -/
theorem getHosts_resolves {entries : List HostListEntry} (howned : OwnedHosts entries)
    {decoded heap : HostHeap} (hsettling : Settling entries decoded heap) {ids : List Int64}
    (hpresent : HostsPresent entries ids) :
    ∃ refs heap', getHosts (some entries) ids heap = .ok (refs, heap') ∧
      Settling entries decoded heap' ∧
      refs.map (fun ref => (heap' ref).key) =
        ((entries.filter (HostListEntry.listedIn ids)).flatMap
          (HostListEntry.offers decoded)).eraseDups := by
  have hselected := hostsSelected_selectHosts howned hsettling ids
  refine ⟨_, _, (getHosts_eq_selectHosts entries ids heap).trans (if_pos hpresent),
    hselected.settling, ?_⟩
  rw [hselected.hosts, settledSet_toList]
  have hsettled : ∀ ref ∈ (enabledHosts decoded (visitedHosts entries ids)).eraseDupsBy
        (fun ref other => (settle entries decoded ref).key == (settle entries decoded other).key),
      ((selectHosts entries ids heap).heap ref).key = (settle entries decoded ref).key := by
    intro ref href
    rw [hselected.settled ref (mem_of_mem_eraseDupsBy href)]
  rw [List.map_congr_left hsettled,
    map_eraseDupsBy_key fun ref => (settle entries decoded ref).key,
    map_key_enabledHosts howned]

namespace SnmpMetricCatalog

/-! ## Files without `null` lists -/

/-- No list in the files is `null`. -/
structure NonNull (catalog : SnmpMetricCatalog) : Prop where
  pollers : catalog.pollers.isSome = true
  hostLists : catalog.hostLists.isSome = true
  oidLists : catalog.oidLists.isSome = true
  hostRefs : ∀ entry ∈ catalog.pollers.getD [], entry.hostLists.isSome = true
  oidRefs : ∀ entry ∈ catalog.pollers.getD [], entry.oidLists.isSome = true
  hosts : ∀ list ∈ catalog.hostLists.getD [], list.hosts.isSome = true
  oids : ∀ list ∈ catalog.oidLists.getD [], list.oids.isSome = true

/-- The OIDs of a poller are those of its enabled references. -/
theorem pollerOids_eq {catalog : SnmpMetricCatalog} {entry : PollerEntry}
    (h : entry.oidLists.isSome = true) :
    catalog.pollerOids entry = getOids catalog.oidLists (enabledRefIds entry.oidLists) := by
  obtain ⟨refs, hrefs⟩ := Option.isSome_iff_exists.mp h
  rw [pollerOids, PollerEntry.getOidListIds, hrefs, enabledIds_some, ok_bind]
  exact getOids_congr _ fun _ => List.mem_eraseDups

/-- A reference of the poller that is enabled leads to an enabled host. -/
def HasHost (catalog : SnmpMetricCatalog) (entry : PollerEntry) : Prop :=
  ∃ visit ∈ visitedHosts (catalog.hostLists.getD []) (enabledRefIds entry.hostLists),
    (catalog.hosts visit.2).enabled = true

/-- What `load` reads for a poller is not `null`.  It looks for OIDs only when
there is a host to poll. -/
structure PollerLoads (catalog : SnmpMetricCatalog) (entry : PollerEntry) : Prop where
  hostRefs : entry.hostLists.isSome = true
  hostLists : catalog.hostLists.isSome = true
  hosts : HostsPresent (catalog.hostLists.getD []) (enabledRefIds entry.hostLists)
  oids : catalog.HasHost entry → entry.oidLists.isSome = true ∧ catalog.oidLists.isSome = true ∧
    OidsPresent (catalog.oidLists.getD []) (enabledRefIds entry.oidLists)

theorem pollerLoads_of_nonNull {catalog : SnmpMetricCatalog} (h : catalog.NonNull)
    {entry : PollerEntry} (hentry : entry ∈ catalog.pollers.getD []) :
    catalog.PollerLoads entry where
  hostRefs := h.hostRefs entry hentry
  hostLists := h.hostLists
  hosts := fun list hlist _ => h.hosts list hlist
  oids _ := ⟨h.oidRefs entry hentry, h.oidLists, fun list hlist _ => h.oids list hlist⟩

/-- The OIDs of a poller, from the files alone. -/
def fileOids (catalog : SnmpMetricCatalog) (entry : PollerEntry) : List OidMap :=
  dropRepeats (candidates (catalog.oidLists.getD []) (enabledRefIds entry.oidLists))

theorem getOids_fileOids {catalog : SnmpMetricCatalog} {entry : PollerEntry}
    (hlists : catalog.oidLists.isSome = true)
    (hpresent : OidsPresent (catalog.oidLists.getD []) (enabledRefIds entry.oidLists)) :
    getOids catalog.oidLists (enabledRefIds entry.oidLists) = .ok (catalog.fileOids entry) := by
  obtain ⟨lists, hsome⟩ := Option.isSome_iff_exists.mp hlists
  rw [hsome, Option.getD_some] at hpresent
  rw [fileOids, hsome, getOids_eq, if_pos hpresent, Option.getD_some]

/-- The configurations of one poller, from the files alone. -/
def configurations (catalog : SnmpMetricCatalog) (oids : PollerEntry → List OidMap)
    (entry : PollerEntry) : List SnmpPollerConfiguration :=
  (catalog.resolvedHosts entry).map fun target =>
    { delay := entry.delay
      host := target.1
      port := target.2.1
      communityRead := target.2.2
      oids := oids entry }

/-- One poller: its configurations are appended, whatever the pollers before
it completed. -/
theorem loadPoller_resolves {catalog : SnmpMetricCatalog}
    (howned : OwnedHosts (catalog.hostLists.getD [])) {entry : PollerEntry}
    (h : catalog.PollerLoads entry) (list : List SnmpPollerConfiguration) {heap : HostHeap}
    (hsettling : Settling (catalog.hostLists.getD []) catalog.hosts heap) :
    ∃ heap', catalog.loadPoller (list, heap) entry =
        .ok (list ++ catalog.configurations catalog.fileOids entry, heap') ∧
      Settling (catalog.hostLists.getD []) catalog.hosts heap' := by
  obtain ⟨lists, hlists⟩ := Option.isSome_iff_exists.mp h.hostLists
  obtain ⟨refs, hrefs⟩ := Option.isSome_iff_exists.mp h.hostRefs
  have hids : entry.getHostListIds = .ok (enabledRefIds entry.hostLists).eraseDups := by
    rw [PollerEntry.getHostListIds, hrefs, enabledIds_some]
  have hsame : HostListEntry.listedIn (enabledRefIds entry.hostLists).eraseDups =
      HostListEntry.listedIn (enabledRefIds entry.hostLists) :=
    listedIn_congr fun _ => List.mem_eraseDups
  have hpresent := h.hosts
  rw [hlists, Option.getD_some] at howned hsettling hpresent ⊢
  rw [HostsPresent, ← hsame] at hpresent
  obtain ⟨hosts, heap', hget, hsettled, hkeys⟩ := getHosts_resolves howned hsettling hpresent
  have hnone : ¬ catalog.HasHost entry → hosts = [] := by
    intro hhost
    have hselected := (selectHosts_enabled lists (enabledRefIds entry.hostLists).eraseDups heap).2
    rw [getHosts_eq_selectHosts, if_pos hpresent] at hget
    cases hget
    by_contra hne
    obtain ⟨visit, hvisit, hon⟩ := hselected.mp fun hnil => hne (by rw [hnil]; rfl)
    refine hhost ⟨visit, ?_, ?_⟩
    · rw [hlists, Option.getD_some, visitedHosts, ← hsame]
      exact hvisit
    · rw [← hsettling.enabled visit.2]
      exact hon
  have hmap : (hosts.mapM fun ref => catalog.configure entry (heap' ref)) =
      .ok (hosts.map fun ref => configuration entry (heap' ref) (catalog.fileOids entry)) := by
    by_cases hhost : catalog.HasHost entry
    · obtain ⟨hoidRefs, hoidLists, hoids⟩ := h.oids hhost
      have hconfigure : ∀ host : Host,
          catalog.configure entry host =
            .ok (configuration entry host (catalog.fileOids entry)) := by
        intro host
        rw [configure, pollerOids_eq hoidRefs, getOids_fileOids hoidLists hoids]
        rfl
      simp only [hconfigure]
      exact List.mapM_pure
    · rw [hnone hhost]
      rfl
  refine ⟨heap', ?_, hsettled⟩
  rw [loadPoller, hids, ok_bind, hlists, hget, ok_bind]
  simp only [hmap, ok_bind]
  have hconfigurations :
      (hosts.map fun ref => configuration entry (heap' ref) (catalog.fileOids entry)) =
        catalog.configurations catalog.fileOids entry := by
    rw [configurations, resolvedHosts, hlists, Option.getD_some, ← hsame, ← hkeys, List.map_map]
    rfl
  rw [hconfigurations]
  rfl

/-- `load` over files whose lists it can read: the configurations of the
pollers, one poller after the other. -/
theorem load_of_pollerLoads {catalog : SnmpMetricCatalog}
    (howned : OwnedHosts (catalog.hostLists.getD [])) (hpollers : catalog.pollers.isSome = true)
    (h : ∀ entry ∈ catalog.pollers.getD [], catalog.PollerLoads entry) :
    catalog.load =
      .ok ((catalog.pollers.getD []).flatMap (catalog.configurations catalog.fileOids)) := by
  obtain ⟨pollers, hsome⟩ := Option.isSome_iff_exists.mp hpollers
  rw [hsome, Option.getD_some] at h
  have hloop : ∃ state : List SnmpPollerConfiguration × HostHeap,
      pollers.foldlM catalog.loadPoller ([], catalog.hosts) = .ok state ∧
      state.1 = pollers.flatMap (catalog.configurations catalog.fileOids) ∧
        Settling (catalog.hostLists.getD []) catalog.hosts state.2 := by
    refine foldlM_total (fun front (state : List SnmpPollerConfiguration × HostHeap) =>
      state.1 = front.flatMap (catalog.configurations catalog.fileOids) ∧
        Settling (catalog.hostLists.getD []) catalog.hosts state.2)
      ⟨rfl, fun _ => Or.inl rfl⟩ ?_
    intro front entry ⟨list, heap⟩ hentry ⟨hfront, hsettling⟩
    obtain ⟨heap', hload, hsettled⟩ :=
      loadPoller_resolves howned (h entry hentry) list hsettling
    refine ⟨_, hload, ?_, hsettled⟩
    simp only [List.flatMap_append, List.flatMap_singleton]
    exact congrArg (· ++ _) hfront
  obtain ⟨state, hstate, hlist, _⟩ := hloop
  rw [load, hsome, deref_some, ok_bind, hstate, Option.getD_some]
  exact congrArg Except.ok hlist

/-- `load` resolves each poller from the files alone: one configuration for
each resolved host, in file order, with the delay and the OIDs of the poller. -/
theorem load_resolves (catalog : SnmpMetricCatalog) (h : catalog.NonNull)
    (howned : OwnedHosts (catalog.hostLists.getD [])) :
    ∃ oids : PollerEntry → List OidMap,
      (∀ entry,
        getOids catalog.oidLists (enabledRefIds entry.oidLists) = .ok (oids entry)) ∧
      catalog.load =
        .ok ((catalog.pollers.getD []).flatMap fun entry =>
          (catalog.resolvedHosts entry).map fun target =>
            { delay := entry.delay
              host := target.1
              port := target.2.1
              communityRead := target.2.2
              oids := oids entry }) :=
  ⟨catalog.fileOids,
    fun _ => getOids_fileOids h.oidLists fun list hlist _ => h.oids list hlist,
    load_of_pollerLoads howned h.pollers fun _ => pollerLoads_of_nonNull h⟩

/-- Two pollers that share a list: the first completes the hosts, and the
second resolves the same ones, without the one that repeats. -/
def sharedLists : SnmpMetricCatalog where
  pollers := some
    [{ delay := 5, hostLists := some [⟨1, true⟩] },
      { delay := 10, hostLists := some [⟨2, true⟩, ⟨1, true⟩] }]
  hostLists := some
    [{ id := some 1, hosts := some [0, 1] }, { id := some 2, port := 1161, hosts := some [2] }]
  oidLists := some []
  hosts := fun ref =>
    if ref = 0 then { host := some (utf16 "localhost") }
    else { host := some (utf16 "localhost"), port := 161 }

theorem sharedLists_nonNull : sharedLists.NonNull :=
  ⟨rfl, rfl, rfl, by decide, by decide, by decide, by decide⟩

theorem sharedLists_owned : OwnedHosts (sharedLists.hostLists.getD []) := by
  intro entry hentry other hother ref hholds hother'
  simp only [sharedLists, Option.getD_some, List.mem_cons, List.not_mem_nil, or_false]
    at hentry hother
  rcases hentry with rfl | rfl <;> rcases hother with rfl | rfl
  · rfl
  · simp only [HostListEntry.holds, Option.any_some, List.contains_iff_mem, List.mem_cons,
      List.not_mem_nil, or_false] at hholds hother'
    rcases hholds with rfl | rfl <;> cases hother'
  · simp only [HostListEntry.holds, Option.any_some, List.contains_iff_mem, List.mem_cons,
      List.not_mem_nil, or_false] at hholds hother'
    rcases hother' with rfl | rfl <;> cases hholds
  · rfl

theorem load_resolves_sharedLists :
    ∃ oids : PollerEntry → List OidMap,
      (∀ entry,
        getOids sharedLists.oidLists (enabledRefIds entry.oidLists) = .ok (oids entry)) ∧
      sharedLists.load =
        .ok ((sharedLists.pollers.getD []).flatMap fun entry =>
          (sharedLists.resolvedHosts entry).map fun target =>
            { delay := entry.delay
              host := target.1
              port := target.2.1
              communityRead := target.2.2
              oids := oids entry }) :=
  load_resolves sharedLists sharedLists_nonNull sharedLists_owned

/-! ## Any files

What a result of `load` says about the files when it returns, whatever lists
are `null` and whoever shares a host. -/

/-- One poller of a `load` that returned. -/
theorem loadPoller_ok {catalog : SnmpMetricCatalog} {entry : PollerEntry}
    {list list' : List SnmpPollerConfiguration} {heap heap' : HostHeap}
    (henabled : ∀ ref, (heap ref).enabled = (catalog.hosts ref).enabled)
    (h : catalog.loadPoller (list, heap) entry = .ok (list', heap')) :
    (∀ ref, (heap' ref).enabled = (catalog.hosts ref).enabled) ∧
      ∃ made, list' = list ++ made ∧ (made ≠ [] ↔ catalog.HasHost entry) ∧
        ∀ c ∈ made, catalog.pollerOids entry = .ok c.oids := by
  rw [loadPoller, bind_eq_ok] at h
  obtain ⟨ids, hids, h⟩ := h
  rw [bind_eq_ok] at h
  obtain ⟨⟨hosts, heap''⟩, hget, h⟩ := h
  rw [bind_eq_ok] at h
  obtain ⟨made, hmade, h⟩ := h
  cases h
  cases hlists : catalog.hostLists with
  | none =>
    rw [hlists] at hget
    cases hget
  | some lists =>
    rw [hlists, getHosts_eq_selectHosts] at hget
    split at hget
    · cases hget
      have hselected := selectHosts_enabled lists ids heap
      have hvisited : visitedHosts lists ids =
          visitedHosts lists (enabledRefIds entry.hostLists) := by
        rw [visitedHosts, visitedHosts, listedIn_congr (mem_enabledIds hids)]
      obtain ⟨hlength, hresults⟩ := mapM_ok hmade
      refine ⟨fun ref => by rw [hselected.1, henabled], made, rfl, ?_, ?_⟩
      · have hnil : made = [] ↔ (selectHosts lists ids heap).hosts = [] := by
          rw [← List.length_eq_zero_iff, hlength, List.length_eq_zero_iff, LinkedHashSet.toList,
            List.map_eq_nil_iff]
        rw [ne_eq, hnil, ← ne_eq, hselected.2, hvisited, HasHost, hlists, Option.getD_some]
        simp only [henabled]
      · intro c hc
        obtain ⟨ref, _, hconfigure⟩ := hresults c hc
        obtain ⟨oids, hoids, hresult⟩ := bind_eq_ok.mp hconfigure
        cases hresult
        exact hoids
    · cases hget

/-- The configurations are exactly those of the pollers with a host. -/
structure Covers (catalog : SnmpMetricCatalog) (pollers : List PollerEntry)
    (list : List SnmpPollerConfiguration) : Prop where
  fromPoller : ∀ c ∈ list,
    ∃ entry ∈ pollers, catalog.HasHost entry ∧ catalog.pollerOids entry = .ok c.oids
  ofPoller : ∀ entry ∈ pollers, catalog.HasHost entry →
    ∃ c ∈ list, catalog.pollerOids entry = .ok c.oids

theorem covers_append {catalog : SnmpMetricCatalog} {pollers : List PollerEntry}
    {list made : List SnmpPollerConfiguration} {entry : PollerEntry}
    (h : catalog.Covers pollers list) (hhost : made ≠ [] ↔ catalog.HasHost entry)
    (hmade : ∀ c ∈ made, catalog.pollerOids entry = .ok c.oids) :
    catalog.Covers (pollers ++ [entry]) (list ++ made) where
  fromPoller := by
    intro c hc
    rcases List.mem_append.mp hc with hc | hc
    · obtain ⟨poller, hpoller, hfrom⟩ := h.fromPoller c hc
      exact ⟨poller, List.mem_append_left _ hpoller, hfrom⟩
    · exact ⟨entry, by simp, hhost.mp (List.ne_nil_of_mem hc), hmade c hc⟩
  ofPoller := by
    intro poller hpoller hhas
    rcases List.mem_append.mp hpoller with hpoller | hpoller
    · obtain ⟨c, hc, hoids⟩ := h.ofPoller poller hpoller hhas
      exact ⟨c, List.mem_append_left _ hc, hoids⟩
    · rw [List.mem_singleton.mp hpoller] at hhas ⊢
      obtain ⟨c, hc⟩ := List.exists_mem_of_ne_nil made (hhost.mpr hhas)
      exact ⟨c, List.mem_append_right _ hc, hmade c hc⟩

/-- A `load` that returned made a configuration for every poller with a host,
and no others. -/
theorem load_ok {catalog : SnmpMetricCatalog} {list : List SnmpPollerConfiguration}
    (h : catalog.load = .ok list) : catalog.Covers (catalog.pollers.getD []) list := by
  rw [load, bind_eq_ok] at h
  obtain ⟨pollers, hpollers, h⟩ := h
  rw [bind_eq_ok] at h
  obtain ⟨⟨list', heap⟩, hloop, h⟩ := h
  cases h
  cases hdecoded : catalog.pollers with
  | none =>
    rw [hdecoded] at hpollers
    cases hpollers
  | some decoded =>
    rw [hdecoded] at hpollers
    cases hpollers
    have hinv := foldlM_invariant
      (fun front (state : List SnmpPollerConfiguration × HostHeap) =>
        (∀ ref, (state.2 ref).enabled = (catalog.hosts ref).enabled) ∧
          catalog.Covers front state.1)
      ⟨fun _ => rfl, ⟨by simp, by simp⟩⟩ ?_ hloop
    · exact hinv.2
    · intro front entry ⟨list, heap⟩ ⟨list', heap'⟩ ⟨henabled, hcovers⟩ hstep
      obtain ⟨henabled', made, rfl, hhost, hmade⟩ := loadPoller_ok henabled hstep
      exact ⟨henabled', covers_append hcovers hhost hmade⟩

/-- The OIDs of a poller that `load` came through: the candidates of its
enabled references, without the repeats. -/
theorem pollerOids_ok {catalog : SnmpMetricCatalog} {entry : PollerEntry} {oids : List OidMap}
    (h : catalog.pollerOids entry = .ok oids) :
    oids =
      dropRepeats (candidates (catalog.oidLists.getD []) (enabledRefIds entry.oidLists)) := by
  obtain ⟨ids, hids, hget⟩ := bind_eq_ok.mp h
  rw [getOids_congr _ (mem_enabledIds hids)] at hget
  obtain ⟨entries, hentries, hoids⟩ := getOids_ok hget
  rw [hoids, hentries, Option.getD_some]

end SnmpMetricCatalog

end BoundaryEventSdk.Snmp
