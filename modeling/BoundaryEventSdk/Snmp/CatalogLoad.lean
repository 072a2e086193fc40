import BoundaryEventSdk.Snmp.SnmpMetricCatalog

/-!
# Configuration files that do not parse

Each of the three loaders catches what the decoder throws and returns the
object it made before.  A new `Pollers` and a new `OidMapList` have no list,
and a new `HostLists` has an empty one.  Whether `load` then throws depends on
what it reads of the other files.

* `load_eq_ok_iff` says when `load` returns, and what.
* `reportsErrors_iff` says for which files a file that does not parse makes
  `load` throw, and files that parse are loaded.
-/

namespace BoundaryEventSdk.Snmp

open BoundaryEventSdk.Java

/-! ## When `load` returns -/

namespace SnmpMetricCatalog

/-- What `load` reads of the files is not `null`. -/
def Loads (catalog : SnmpMetricCatalog) : Prop :=
  catalog.pollers.isSome = true ∧ ∀ entry ∈ catalog.pollers.getD [], catalog.PollerLoads entry

/-- The configurations that the files describe. -/
def described (catalog : SnmpMetricCatalog) : List SnmpPollerConfiguration :=
  (catalog.pollers.getD []).flatMap (catalog.configurations catalog.fileOids)

/-- A call of `getOids` that returned read lists that are there. -/
theorem oids_of_pollerOids_ok {catalog : SnmpMetricCatalog} {entry : PollerEntry}
    {oids : List OidMap} (h : catalog.pollerOids entry = .ok oids) :
    entry.oidLists.isSome = true ∧ catalog.oidLists.isSome = true ∧
      OidsPresent (catalog.oidLists.getD []) (enabledRefIds entry.oidLists) := by
  obtain ⟨ids, hids, hget⟩ := bind_eq_ok.mp h
  have hrefs : entry.oidLists.isSome = true := by
    cases hsome : entry.oidLists with
    | none =>
      rw [PollerEntry.getOidListIds, hsome] at hids
      cases hids
    | some refs => rfl
  rw [getOids_congr _ (mem_enabledIds hids)] at hget
  obtain ⟨entries, hentries, _⟩ := getOids_ok hget
  refine ⟨hrefs, by rw [hentries]; rfl, ?_⟩
  rw [hentries, getOids_eq] at hget
  rw [hentries, Option.getD_some]
  by_contra hpresent
  rw [if_neg hpresent] at hget
  cases hget

/-- A poller that `load` came through. -/
theorem pollerLoads_of_ok {catalog : SnmpMetricCatalog} {entry : PollerEntry}
    {list : List SnmpPollerConfiguration} {heap : HostHeap}
    {result : List SnmpPollerConfiguration × HostHeap}
    (henabled : ∀ ref, (heap ref).enabled = (catalog.hosts ref).enabled)
    (h : catalog.loadPoller (list, heap) entry = .ok result) : catalog.PollerLoads entry := by
  obtain ⟨_, made, _, hhost, hmade⟩ := loadPoller_ok henabled h
  rw [loadPoller, bind_eq_ok] at h
  obtain ⟨ids, hids, h⟩ := h
  rw [bind_eq_ok] at h
  obtain ⟨_, hget, _⟩ := h
  have hrefs : entry.hostLists.isSome = true := by
    cases hsome : entry.hostLists with
    | none =>
      rw [PollerEntry.getHostListIds, hsome] at hids
      cases hids
    | some refs => rfl
  cases hlists : catalog.hostLists with
  | none =>
    rw [hlists] at hget
    cases hget
  | some lists =>
    rw [hlists, getHosts_eq_selectHosts] at hget
    refine ⟨hrefs, by rw [hlists]; rfl, ?_, ?_⟩
    · rw [hlists, Option.getD_some, HostsPresent, ← listedIn_congr (mem_enabledIds hids)]
      by_contra hpresent
      rw [if_neg hpresent] at hget
      cases hget
    · intro hhas
      obtain ⟨c, hc⟩ := List.exists_mem_of_ne_nil made (hhost.mpr hhas)
      exact oids_of_pollerOids_ok (hmade c hc)

/-- `load` returns exactly when nothing that it reads is `null`, and then it
returns the configurations that the files describe. -/
theorem load_eq_ok_iff {catalog : SnmpMetricCatalog}
    (howned : OwnedHosts (catalog.hostLists.getD [])) {list : List SnmpPollerConfiguration} :
    catalog.load = .ok list ↔ catalog.Loads ∧ list = catalog.described := by
  constructor
  · intro hload
    have hloads : catalog.Loads := by
      obtain ⟨pollers, hpollers, h⟩ := bind_eq_ok.mp hload
      obtain ⟨_, hloop, _⟩ := bind_eq_ok.mp h
      cases hsome : catalog.pollers with
      | none =>
        rw [hsome] at hpollers
        cases hpollers
      | some decoded =>
        rw [hsome] at hpollers
        cases hpollers
        refine ⟨by rw [hsome]; rfl, ?_⟩
        rw [hsome, Option.getD_some]
        refine (foldlM_invariant
          (fun front (state : List SnmpPollerConfiguration × HostHeap) =>
            (∀ ref, (state.2 ref).enabled = (catalog.hosts ref).enabled) ∧
              ∀ entry ∈ front, catalog.PollerLoads entry) ⟨fun _ => rfl, by simp⟩ ?_ hloop).2
        intro front entry ⟨list, heap⟩ ⟨list', heap'⟩ ⟨henabled, hfront⟩ hstep
        refine ⟨(loadPoller_ok henabled hstep).1, ?_⟩
        exact List.forall_mem_append.mpr
          ⟨hfront, List.forall_mem_singleton.mpr (pollerLoads_of_ok henabled hstep)⟩
    rw [load_of_pollerLoads howned hloads.1 hloads.2] at hload
    exact ⟨hloads, (Except.ok.inj hload).symm⟩
  · intro h
    obtain ⟨hloads, rfl⟩ := h
    exact load_of_pollerLoads howned hloads.1 hloads.2

theorem load_throws_iff {catalog : SnmpMetricCatalog}
    (howned : OwnedHosts (catalog.hostLists.getD [])) :
    (∃ e, catalog.load = .error e) ↔ ¬ catalog.Loads := by
  constructor
  · intro h hloads
    obtain ⟨e, he⟩ := h
    rw [(load_eq_ok_iff howned).mpr ⟨hloads, rfl⟩] at he
    cases he
  · intro hloads
    cases hload : catalog.load with
    | error e => exact ⟨e, rfl⟩
    | ok list => exact absurd ((load_eq_ok_iff howned).mp hload).1 hloads

end SnmpMetricCatalog

/-! ## The loaders -/

/-- The content of a configuration file: it decodes, or the decoder throws. -/
inductive Resource (α : Type) where
  | decodes (value : α)
  | fails

/-- A decoded `hosts.json`: the lists and the `Host` objects.  Decoding makes a
new object for every host of every list. -/
structure DecodedHosts where
  hostLists : Option (List HostListEntry)
  hosts : HostHeap
  owned : OwnedHosts (hostLists.getD [])

/-- The three configuration files. -/
structure ConfigurationFiles where
  pollers : Resource (Option (List PollerEntry))
  hostLists : Resource DecodedHosts
  oidLists : Resource (Option (List OidMapEntry))

/-- `Pollers.load`. -/
def Pollers.load : Resource (Option (List PollerEntry)) → Option (List PollerEntry)
  | .decodes pollers => pollers
  | .fails => none

/-- `HostLists.load`. -/
def HostLists.load : Resource DecodedHosts → DecodedHosts
  | .decodes hosts => hosts
  | .fails => { hostLists := some [], hosts := fun _ => {}, owned := by simp [OwnedHosts] }

/-- `OidMapList.load`. -/
def OidMapList.load : Resource (Option (List OidMapEntry)) → Option (List OidMapEntry)
  | .decodes oidLists => oidLists
  | .fails => none

namespace ConfigurationFiles

/-- The catalog over decoded files. -/
def catalogOf (pollers : Option (List PollerEntry)) (hosts : DecodedHosts)
    (oidLists : Option (List OidMapEntry)) : SnmpMetricCatalog where
  pollers := pollers
  hostLists := hosts.hostLists
  oidLists := oidLists
  hosts := hosts.hosts

/-- `SnmpMetricCatalog.readAndValidate`. -/
def readAndValidate (files : ConfigurationFiles) : SnmpMetricCatalog :=
  catalogOf (Pollers.load files.pollers) (HostLists.load files.hostLists)
    (OidMapList.load files.oidLists)

/-- `SnmpMetricCatalog.load`. -/
def load (files : ConfigurationFiles) : Except Throwable (List SnmpPollerConfiguration) :=
  files.readAndValidate.load

/-! ## Which failures surface -/

/-- One of the files does not parse. -/
def Broken (files : ConfigurationFiles) : Prop :=
  files.pollers = .fails ∨ files.hostLists = .fails ∨ files.oidLists = .fails

/-- A file that does not parse makes `load` throw, and files that parse give
the configurations they describe. -/
def ReportsErrors (files : ConfigurationFiles) : Prop :=
  (files.Broken → ∃ e, files.load = .error e) ∧
    ∀ pollers hosts oidLists,
      files = ⟨.decodes pollers, .decodes hosts, .decodes oidLists⟩ →
        files.load = .ok (catalogOf pollers hosts oidLists).described

/-- A `null` list that `load` reads before it looks for the hosts of a
poller. -/
def PollersNull (pollers : Option (List PollerEntry)) : Prop :=
  pollers = none ∨ ∃ entry ∈ pollers.getD [], entry.hostLists = none

/-- What the files that do parse say about it.  Without the pollers `load`
always throws.  Without the hosts it sees no host, so only a `null` list of the
pollers makes it throw.  Without the OIDs a poller with an enabled host does,
or a `null` list on the way to the hosts. -/
def ErrorReached : ConfigurationFiles → Prop
  | ⟨.fails, _, _⟩ => True
  | ⟨.decodes pollers, .decodes hosts, .decodes oidLists⟩ =>
    (catalogOf pollers hosts oidLists).Loads
  | ⟨.decodes pollers, .fails, _⟩ => PollersNull pollers
  | ⟨.decodes pollers, .decodes hosts, .fails⟩ =>
    PollersNull pollers ∨ ∃ entry ∈ pollers.getD [], hosts.hostLists = none ∨
      ¬ HostsPresent (hosts.hostLists.getD []) (enabledRefIds entry.hostLists) ∨
        (catalogOf pollers hosts none).HasHost entry

theorem readAndValidate_owned (files : ConfigurationFiles) :
    OwnedHosts (files.readAndValidate.hostLists.getD []) :=
  (HostLists.load files.hostLists).owned

/-- Where a file does not parse, the promise is that `load` throws. -/
theorem reportsErrors_of_broken {files : ConfigurationFiles} (h : files.Broken) :
    files.ReportsErrors ↔ ¬ files.readAndValidate.Loads := by
  rw [← SnmpMetricCatalog.load_throws_iff files.readAndValidate_owned]
  constructor
  · intro hreports
    exact hreports.1 h
  · intro hthrows
    refine ⟨fun _ => hthrows, ?_⟩
    intro pollers hosts oidLists hfiles
    rw [hfiles] at h
    rcases h with h | h | h <;> cases h

/-- Where all parse, the promise is that `load` returns what they describe. -/
theorem reportsErrors_of_decodes (pollers : Option (List PollerEntry)) (hosts : DecodedHosts)
    (oidLists : Option (List OidMapEntry)) :
    ReportsErrors ⟨.decodes pollers, .decodes hosts, .decodes oidLists⟩ ↔
      (catalogOf pollers hosts oidLists).Loads := by
  constructor
  · intro hreports
    exact ((SnmpMetricCatalog.load_eq_ok_iff hosts.owned).mp
      (hreports.2 pollers hosts oidLists rfl)).1
  · intro hloads
    refine ⟨fun hbroken => ?_, ?_⟩
    · rcases hbroken with h | h | h <;> cases h
    · intro pollers' hosts' oidLists' hfiles
      cases hfiles
      exact (SnmpMetricCatalog.load_eq_ok_iff hosts.owned).mpr ⟨hloads, rfl⟩

/-- Without the hosts no poller has a host, so nothing of the OIDs is read. -/
theorem loads_without_hosts (pollers : Option (List PollerEntry))
    (oidLists : Resource (Option (List OidMapEntry))) :
    (readAndValidate ⟨.decodes pollers, .fails, oidLists⟩).Loads ↔ ¬ PollersNull pollers := by
  have hnohost : ∀ entry,
      ¬ (readAndValidate ⟨.decodes pollers, .fails, oidLists⟩).HasHost entry := by
    intro entry h
    obtain ⟨visit, hvisit, _⟩ := h
    exact absurd (mem_visitedHosts hvisit).1 List.not_mem_nil
  rw [PollersNull, not_or]
  constructor
  · intro hloads
    refine ⟨Option.isSome_iff_ne_none.mp hloads.1, ?_⟩
    intro hnull
    obtain ⟨entry, hentry, hnone⟩ := hnull
    exact Option.isSome_iff_ne_none.mp (hloads.2 entry hentry).hostRefs hnone
  · intro h
    refine ⟨Option.isSome_iff_ne_none.mpr h.1, ?_⟩
    intro entry hentry
    refine ⟨Option.isSome_iff_ne_none.mpr fun hnone => h.2 ⟨entry, hentry, hnone⟩, rfl, ?_, ?_⟩
    · exact fun list hlist => absurd hlist List.not_mem_nil
    · exact fun hhost => absurd hhost (hnohost entry)

/-- Without the OIDs no poller may have a host. -/
theorem loads_without_oids (pollers : Option (List PollerEntry)) (hosts : DecodedHosts) :
    (readAndValidate ⟨.decodes pollers, .decodes hosts, .fails⟩).Loads ↔
      ¬ (PollersNull pollers ∨ ∃ entry ∈ pollers.getD [], hosts.hostLists = none ∨
        ¬ HostsPresent (hosts.hostLists.getD []) (enabledRefIds entry.hostLists) ∨
          (catalogOf pollers hosts none).HasHost entry) := by
  rw [PollersNull, not_or, not_or]
  constructor
  · intro hloads
    refine ⟨⟨Option.isSome_iff_ne_none.mp hloads.1, ?_⟩, ?_⟩
    · intro hnull
      obtain ⟨entry, hentry, hnone⟩ := hnull
      exact Option.isSome_iff_ne_none.mp (hloads.2 entry hentry).hostRefs hnone
    · intro hnull
      obtain ⟨entry, hentry, hnull⟩ := hnull
      have hpoller := hloads.2 entry hentry
      rcases hnull with hnone | habsent | hhost
      · exact Option.isSome_iff_ne_none.mp hpoller.hostLists hnone
      · exact habsent hpoller.hosts
      · cases (hpoller.oids hhost).2.1
  · intro h
    obtain ⟨⟨hpollers, hrefs⟩, hrest⟩ := h
    refine ⟨Option.isSome_iff_ne_none.mpr hpollers, ?_⟩
    intro entry hentry
    refine ⟨Option.isSome_iff_ne_none.mpr fun hnone => hrefs ⟨entry, hentry, hnone⟩, ?_, ?_, ?_⟩
    · exact Option.isSome_iff_ne_none.mpr fun hnone => hrest ⟨entry, hentry, Or.inl hnone⟩
    · by_contra habsent
      exact hrest ⟨entry, hentry, Or.inr (Or.inl habsent)⟩
    · exact fun hhost => absurd ⟨entry, hentry, Or.inr (Or.inr hhost)⟩ hrest

/-- The files for which the errors of the decoder come out. -/
theorem reportsErrors_iff (files : ConfigurationFiles) :
    files.ReportsErrors ↔ files.ErrorReached := by
  obtain ⟨pollers, hostLists, oidLists⟩ := files
  cases pollers with
  | fails =>
    rw [reportsErrors_of_broken (Or.inl rfl)]
    refine ⟨fun _ => trivial, fun _ hloads => ?_⟩
    cases hloads.1
  | decodes pollers =>
    cases hostLists with
    | fails =>
      rw [reportsErrors_of_broken (Or.inr (Or.inl rfl)), loads_without_hosts, not_not]
      rfl
    | decodes hosts =>
      cases oidLists with
      | fails =>
        rw [reportsErrors_of_broken (Or.inr (Or.inr rfl)), loads_without_oids, not_not]
        rfl
      | decodes oidLists => exact reportsErrors_of_decodes pollers hosts oidLists

/-- One poller of one host list and one OID list, and a `hosts.json` that does
not parse. -/
def hostsFail : ConfigurationFiles where
  pollers := .decodes (some
    [{ delay := 5, hostLists := some [⟨1, true⟩], oidLists := some [⟨1, true⟩] }])
  hostLists := .fails
  oidLists := .decodes (some [{ id := 1, oids := some [] }])

/-- `load` returns the empty list. -/
theorem reportsErrors_hostsFail : ¬ hostsFail.ReportsErrors := by
  intro hreports
  obtain ⟨e, he⟩ := hreports.1 (Or.inr (Or.inl rfl))
  have hempty : hostsFail.load = .ok [] := rfl
  rw [hempty] at he
  cases he

end ConfigurationFiles

end BoundaryEventSdk.Snmp
