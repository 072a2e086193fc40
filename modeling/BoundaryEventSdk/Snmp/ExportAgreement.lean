import BoundaryEventSdk.Snmp.MibExporter

/-!
# The three exports against each other

* `exportModules_ok_iff` and `exportModules_invariant` are the two rules of the
  walk over the modules: when it returns, and what holds after it.
* `metric_export`, `plugin_export` and `oidMap_export` apply them to the three
  transforms.
* `exportsAgree_iff` compares the exports.  The short display name of a metric
  definition is cut at an index computed from the length of the name, which is
  negative for an empty name, and the other two transforms do not compute it.
-/

namespace BoundaryEventSdk.Snmp

open BoundaryEventSdk.Java

namespace MibExporter

variable {σ ω : Type} {t : MibTransform σ ω} {repository : SmiRepository}

/-! ## Two rules of the walk -/

theorem exportModule_eq (state : σ) (moduleName : JString) :
    exportModule t repository state moduleName = do
      let state ← (repository.objects moduleName).foldlM
        (fun state object => t.transform state (repository.findSmiModule moduleName) object)
        (t.beginModule state (repository.findSmiModule moduleName))
      return t.endModule state (repository.findSmiModule moduleName) := by
  rw [exportModule, SmiRepository.objects, List.foldlM_map]

/-- An export returns exactly when every object is one that the transform
returns on. -/
theorem exportModules_ok_iff {Allows : MibObject → Prop}
    (htransform : ∀ state smiModule object,
      (∃ state', t.transform state smiModule object = .ok state') ↔ Allows object)
    {moduleList : List JString} :
    (∃ out, exportModules t repository moduleList = .ok out) ↔
      ∀ moduleName ∈ moduleList, ∀ object ∈ repository.objects moduleName, Allows object := by
  have hmodule : ∀ state moduleName,
      (∃ state', exportModule t repository state moduleName = .ok state') ↔
        ∀ object ∈ repository.objects moduleName, Allows object := by
    intro state moduleName
    rw [exportModule_eq, exists_bind_eq_ok, ← foldlM_ok_iff fun state object =>
      htransform state (repository.findSmiModule moduleName) object]
    constructor
    · intro h
      obtain ⟨state', hloop, _⟩ := h
      exact ⟨state', hloop⟩
    · intro h
      obtain ⟨state', hloop⟩ := h
      exact ⟨state', hloop, _, rfl⟩
  rw [exportModules, exists_bind_eq_ok, ← foldlM_ok_iff hmodule]
  constructor
  · intro h
    obtain ⟨state, hloop, _⟩ := h
    exact ⟨state, hloop⟩
  · intro h
    obtain ⟨state, hloop⟩ := h
    exact ⟨state, hloop, _, rfl⟩

/-- Two invariants of an export that returned: one between modules, of the
modules done, and one inside a module, of its objects done. -/
theorem exportModules_invariant (Between : List JString → σ → Prop)
    (Inside : List JString → JString → List MibObject → σ → Prop)
    (hinit : Between [] t.beginTransform)
    (hbegin : ∀ done moduleName state, Between done state →
      Inside done moduleName [] (t.beginModule state (repository.findSmiModule moduleName)))
    (htransform : ∀ done moduleName objects object state state',
      Inside done moduleName objects state →
      t.transform state (repository.findSmiModule moduleName) object = .ok state' →
      Inside done moduleName (objects ++ [object]) state')
    (hend : ∀ done moduleName state,
      Inside done moduleName (repository.objects moduleName) state →
      Between (done ++ [moduleName]) (t.endModule state (repository.findSmiModule moduleName)))
    {moduleList : List JString} {out : ω} (h : exportModules t repository moduleList = .ok out) :
    ∃ state, Between moduleList state ∧ out = t.endTransform state := by
  rw [exportModules, bind_eq_ok] at h
  obtain ⟨state, hloop, hout⟩ := h
  refine ⟨state, ?_, by cases hout; rfl⟩
  refine foldlM_invariant Between hinit ?_ hloop
  intro done moduleName s s' hs hstep
  rw [exportModule_eq, bind_eq_ok] at hstep
  obtain ⟨inner, hinner, hs'⟩ := hstep
  cases hs'
  refine hend done moduleName inner ?_
  exact foldlM_invariant (Inside done moduleName) (hbegin done moduleName s hs)
    (fun objects object => htransform done moduleName objects object) hinner

end MibExporter

/-! ## The exported objects -/

variable (toUpperUnderscore : JString → UInt16 → JString) (repository : SmiRepository)

/-- The metric ids of some objects of a module, without those that are not
reported. -/
def metricIdsOf (moduleName : JString) (objects : List MibObject) : List JString :=
  (objects.filter exported).map fun object =>
    oidToMetricId toUpperUnderscore (repository.findSmiModule moduleName).moduleName
      object.objectName

/-- The metric ids of the modules, in the order of the walk. -/
def metricIds (moduleList : List JString) : List JString :=
  moduleList.flatMap fun moduleName =>
    metricIdsOf toUpperUnderscore repository moduleName (repository.objects moduleName)

theorem metricIdsOf_append_singleton (moduleName : JString) (objects : List MibObject)
    (object : MibObject) :
    metricIdsOf toUpperUnderscore repository moduleName (objects ++ [object]) =
      metricIdsOf toUpperUnderscore repository moduleName objects ++
        if exported object then
          [oidToMetricId toUpperUnderscore (repository.findSmiModule moduleName).moduleName
            object.objectName]
        else [] := by
  rw [metricIdsOf, metricIdsOf, List.filter_append, List.map_append]
  by_cases h : exported object = true
  · rw [List.filter_cons_of_pos h, if_pos h]
    rfl
  · rw [List.filter_cons_of_neg h, if_neg h]
    rfl

theorem metricIds_append_singleton (moduleList : List JString) (moduleName : JString) :
    metricIds toUpperUnderscore repository (moduleList ++ [moduleName]) =
      metricIds toUpperUnderscore repository moduleList ++
        metricIdsOf toUpperUnderscore repository moduleName (repository.objects moduleName) := by
  simp [metricIds]

/-- An export whose transform only appends the metric id of each exported
object ends with the metric ids of the walk. -/
theorem ids_export {σ ω : Type} {t : MibTransform σ ω} (ids : σ → List JString)
    (hinit : ids t.beginTransform = [])
    (hbegin : ∀ state smiModule, ids (t.beginModule state smiModule) = ids state)
    (hend : ∀ state smiModule, ids (t.endModule state smiModule) = ids state)
    (htransform : ∀ state smiModule object state',
      t.transform state smiModule object = .ok state' →
      ids state' = ids state ++ if exported object then
        [oidToMetricId toUpperUnderscore smiModule.moduleName object.objectName] else [])
    {moduleList : List JString} {out : ω}
    (h : MibExporter.exportModules t repository moduleList = .ok out) :
    ∃ state, ids state = metricIds toUpperUnderscore repository moduleList ∧
      out = t.endTransform state := by
  refine MibExporter.exportModules_invariant
    (fun done state => ids state = metricIds toUpperUnderscore repository done)
    (fun done moduleName objects state => ids state = metricIds toUpperUnderscore repository done ++
      metricIdsOf toUpperUnderscore repository moduleName objects) hinit ?_ ?_ ?_ h
  · intro done moduleName state hstate
    rw [hbegin, hstate]
    exact (List.append_nil _).symm
  · intro done moduleName objects object state state' hstate hstep
    rw [htransform _ _ _ _ hstep, hstate, metricIdsOf_append_singleton, List.append_assoc]
  · intro done moduleName state hstate
    rw [hend, hstate, metricIds_append_singleton]

/-! ## Metric definitions -/

/-- The cut of the short display name is out of range for the empty name
only. -/
theorem oidToShortDisplayName_eq (objectName : JString) :
    oidToShortDisplayName objectName =
      if objectName = [] then .error .stringIndexOutOfBounds else .ok objectName := by
  cases objectName with
  | nil => rfl
  | cons unit units =>
    rw [if_neg (List.cons_ne_nil unit units), oidToShortDisplayName]
    have hcut : substring (unit :: units) 0
        (min shortDisplayNameMaxIndex (((unit :: units).length : Int) - 1)) =
          .ok (((unit :: units).take (min shortDisplayNameMaxIndex
            (((unit :: units).length : Int) - 1)).toNat).drop 0) := by
      refine if_neg ?_
      rw [List.length_cons, shortDisplayNameMaxIndex]
      omega
    rw [hcut]
    rfl

/-- What one object adds to the metric definitions. -/
theorem mibToMetricDefinition_transform_ok {list list' : List MetricDefinition}
    {smiModule : SmiModule} {object : MibObject}
    (h : (mibToMetricDefinition toUpperUnderscore).transform list smiModule object = .ok list') :
    list'.map MetricDefinition.name = list.map MetricDefinition.name ++
      if exported object then
        [oidToMetricId toUpperUnderscore smiModule.moduleName object.objectName]
      else [] := by
  simp only [mibToMetricDefinition] at h
  by_cases hexported : exported object = true
  · rw [if_pos hexported, bind_eq_ok] at h
    obtain ⟨shortDisplayName, _, h⟩ := h
    cases h
    rw [if_pos hexported, List.map_append]
    rfl
  · rw [if_neg hexported] at h
    cases h
    rw [if_neg hexported, List.append_nil]

theorem mibToMetricDefinition_transform_ok_iff (list : List MetricDefinition)
    (smiModule : SmiModule) (object : MibObject) :
    (∃ list', (mibToMetricDefinition toUpperUnderscore).transform list smiModule object =
        .ok list') ↔
      (exported object = true → object.objectName ≠ []) := by
  simp only [mibToMetricDefinition]
  by_cases hexported : exported object = true
  · rw [if_pos hexported, oidToShortDisplayName_eq]
    by_cases hname : object.objectName = []
    · simp [hname, hexported]
    · simp [hname, pure, Except.pure]
  · rw [if_neg hexported]
    exact ⟨fun _ h => absurd h hexported, fun _ => ⟨list, rfl⟩⟩

/-- The metric definitions of an export carry the metric ids. -/
theorem metric_export {moduleList : List JString} {list : List MetricDefinition}
    (h : MibExporter.exportModules (mibToMetricDefinition toUpperUnderscore) repository moduleList =
      .ok list) :
    list.map MetricDefinition.name = metricIds toUpperUnderscore repository moduleList := by
  obtain ⟨state, hstate, rfl⟩ := ids_export toUpperUnderscore repository
    (List.map MetricDefinition.name) rfl (fun _ _ => rfl) (fun _ _ => rfl)
    (fun _ _ _ _ => mibToMetricDefinition_transform_ok toUpperUnderscore) h
  exact hstate

theorem metric_export_ok_iff (moduleList : List JString) :
    (∃ list, MibExporter.exportModules (mibToMetricDefinition toUpperUnderscore) repository
        moduleList = .ok list) ↔
      ∀ moduleName ∈ moduleList, ∀ object ∈ repository.objects moduleName,
        exported object = true → object.objectName ≠ [] :=
  MibExporter.exportModules_ok_iff (mibToMetricDefinition_transform_ok_iff toUpperUnderscore)

/-! ## Plugin metrics -/

theorem mibToPluginMetrics_transform (metricList : List JString) (smiModule : SmiModule)
    (object : MibObject) :
    (mibToPluginMetrics toUpperUnderscore).transform metricList smiModule object =
      .ok (metricList ++ if exported object then
        [oidToMetricId toUpperUnderscore smiModule.moduleName object.objectName] else []) := by
  simp only [mibToPluginMetrics]
  split
  · rfl
  · rw [List.append_nil]

/-- The plugin export returns the metric ids. -/
theorem plugin_export (moduleList : List JString) :
    MibExporter.exportModules (mibToPluginMetrics toUpperUnderscore) repository moduleList =
      .ok (metricIds toUpperUnderscore repository moduleList) := by
  obtain ⟨out, hout⟩ : ∃ out, MibExporter.exportModules (mibToPluginMetrics toUpperUnderscore)
      repository moduleList = .ok out := by
    refine (MibExporter.exportModules_ok_iff fun state smiModule object => ?_).mpr
      fun _ _ _ _ => trivial
    rw [mibToPluginMetrics_transform]
    exact ⟨fun _ => trivial, fun _ => ⟨_, rfl⟩⟩
  obtain ⟨state, hstate, rfl⟩ := ids_export toUpperUnderscore repository id rfl (fun _ _ => rfl)
    (fun _ _ => rfl) (fun state smiModule object state' hstep => by
      rw [mibToPluginMetrics_transform] at hstep
      cases hstep
      rfl) hout
  rw [hout]
  exact congrArg Except.ok hstate

/-! ## OID lists -/

/-- The OIDs of the exported lists, one list after the other. -/
def exportedOids (entries : List ExportedEntry) : List OidMap :=
  entries.flatMap fun entry => entry.oids.getD []

/-- What one object adds to the OID list under way. -/
theorem mibToOidMap_transform (state : MibToOidMap) (smiModule : SmiModule) (object : MibObject) :
    ∃ oids created, (mibToOidMap toUpperUnderscore).transform state smiModule object =
        .ok { state with oidList := state.oidList ++ oids, created := created } ∧
      (∀ oid ∈ oids, oid.enabled = true) ∧
      oids.map OidMap.metricId = (if exported object then
        [oidToMetricId toUpperUnderscore smiModule.moduleName object.objectName] else []).map
          some := by
  by_cases hfilter : standardFilterCriteria object = true
  · cases hoid : object.oid with
    | none =>
      refine ⟨[], state.created, ?_, by simp, by simp [exported, hoid]⟩
      simp [mibToOidMap, hoid]
    | some oid =>
      refine ⟨[newOidMap toUpperUnderscore state.created smiModule object oid],
        state.created + 1, ?_, ?_, ?_⟩
      · simp [mibToOidMap, hoid, hfilter]
      · simp [newOidMap]
      · simp [exported, newOidMap, hfilter, hoid]
  · refine ⟨[], state.created, ?_, by simp, by simp [exported, hfilter]⟩
    simp [mibToOidMap, hfilter]

/-- The lists of the modules done: one for each, with the ids from `1` on. -/
structure EntriesFor (done : List JString) (entries : List ExportedEntry) : Prop where
  ids : entries.map (fun entry => entry.id) = (List.range' 1 done.length).map Int64.ofNat
  names : entries.map ExportedEntry.name =
    done.map fun moduleName => some (repository.findSmiModule moduleName).moduleName
  present : ∀ entry ∈ entries, entry.oids.isSome = true
  enabled : ∀ oid ∈ exportedOids entries, oid.enabled = true
  metricIds_eq : (exportedOids entries).map OidMap.metricId =
    (metricIds toUpperUnderscore repository done).map some

/-- The list under way inside a module, before it has its OIDs. -/
structure EntryFor (done : List JString) (moduleName : JString) (objects : List MibObject)
    (state : MibToOidMap) : Prop where
  nextId : state.nextId = Int64.ofNat (done.length + 1)
  id : state.oidMapEntry.id = Int64.ofNat (done.length + 1)
  name : state.oidMapEntry.name = some (repository.findSmiModule moduleName).moduleName
  enabled : ∀ oid ∈ state.oidList, oid.enabled = true
  metricIds_eq : state.oidList.map OidMap.metricId =
    (metricIdsOf toUpperUnderscore repository moduleName objects).map some

variable {toUpperUnderscore} {repository}

theorem EntryFor.transform {done : List JString} {moduleName : JString} {objects : List MibObject}
    {object : MibObject} {state state' : MibToOidMap}
    (h : EntryFor toUpperUnderscore repository done moduleName objects state)
    (hstep : (mibToOidMap toUpperUnderscore).transform state (repository.findSmiModule moduleName)
      object = .ok state') :
    EntryFor toUpperUnderscore repository done moduleName (objects ++ [object]) state' ∧
      state'.oidMapEntryList = state.oidMapEntryList := by
  obtain ⟨oids, created, htransform, hon, hids⟩ :=
    mibToOidMap_transform toUpperUnderscore state (repository.findSmiModule moduleName) object
  rw [htransform] at hstep
  cases hstep
  refine ⟨⟨h.nextId, h.id, h.name, ?_, ?_⟩, rfl⟩
  · exact List.forall_mem_append.mpr ⟨h.enabled, hon⟩
  · rw [List.map_append, h.metricIds_eq, hids, metricIdsOf_append_singleton, List.map_append]

/-- The end of a module puts its list behind the lists before. -/
theorem EntriesFor.endModule {done : List JString} {moduleName : JString} {state : MibToOidMap}
    (h : EntriesFor toUpperUnderscore repository done state.oidMapEntryList)
    (hentry : EntryFor toUpperUnderscore repository done moduleName (repository.objects moduleName)
      state) :
    EntriesFor toUpperUnderscore repository (done ++ [moduleName])
      (state.oidMapEntryList ++ [{ state.oidMapEntry with oids := some state.oidList }]) where
  ids := by
    rw [List.map_append, h.ids, List.length_append, List.length_singleton, List.range'_concat,
      List.map_append]
    simp [hentry.id, Nat.add_comm]
  names := by
    rw [List.map_append, h.names, List.map_append]
    simp [hentry.name]
  present := List.forall_mem_append.mpr ⟨h.present, by simp⟩
  enabled := by
    rw [exportedOids, List.flatMap_append]
    exact List.forall_mem_append.mpr ⟨h.enabled, by simpa using hentry.enabled⟩
  metricIds_eq := by
    have hoids : exportedOids
        (state.oidMapEntryList ++ [{ state.oidMapEntry with oids := some state.oidList }]) =
          exportedOids state.oidMapEntryList ++ state.oidList := by
      simp [exportedOids]
    rw [hoids, List.map_append, h.metricIds_eq, hentry.metricIds_eq, metricIds_append_singleton,
      List.map_append]

variable (toUpperUnderscore) (repository)

/-- The OID export returns one list for each module. -/
theorem oidMap_export (moduleList : List JString) :
    ∃ entries, MibExporter.exportModules (mibToOidMap toUpperUnderscore) repository moduleList =
        .ok entries ∧
      EntriesFor toUpperUnderscore repository moduleList entries := by
  obtain ⟨out, hout⟩ : ∃ out, MibExporter.exportModules (mibToOidMap toUpperUnderscore)
      repository moduleList = .ok out :=
    (MibExporter.exportModules_ok_iff fun _ _ _ => ⟨fun _ => trivial, fun _ => ⟨_, rfl⟩⟩).mpr
      fun _ _ _ _ => trivial
  obtain ⟨state, ⟨hentries, _⟩, rfl⟩ := MibExporter.exportModules_invariant
    (fun done (state : MibToOidMap) =>
      EntriesFor toUpperUnderscore repository done state.oidMapEntryList ∧
        state.nextId = Int64.ofNat done.length)
    (fun done moduleName objects state =>
      EntriesFor toUpperUnderscore repository done state.oidMapEntryList ∧
        EntryFor toUpperUnderscore repository done moduleName objects state)
    ⟨⟨rfl, rfl, by simp [mibToOidMap], by simp [mibToOidMap, exportedOids], rfl⟩, rfl⟩
    (fun done moduleName state hstate => by
      have hnext : state.nextId + 1 = Int64.ofNat (done.length + 1) := by
        rw [hstate.2]
        simp
      exact ⟨hstate.1, hnext, hnext, rfl, by simp [mibToOidMap], rfl⟩)
    (fun done moduleName objects object state state' hstate hstep => by
      obtain ⟨hentry, hlist⟩ := hstate.2.transform hstep
      exact ⟨hlist ▸ hstate.1, hentry⟩)
    (fun done moduleName state hstate => by
      refine ⟨hstate.1.endModule hstate.2, ?_⟩
      rw [List.length_append]
      exact hstate.2.nextId) hout
  exact ⟨_, hout, hentries⟩

/-! ## Reading the exported lists back -/

/-- With every list named and every OID enabled, the candidates are all OIDs. -/
theorem candidates_of_all {entries : List OidMapEntry} {ids : List Int64}
    (hids : ∀ entry ∈ entries, entry.id ∈ ids)
    (henabled : ∀ entry ∈ entries, ∀ oid ∈ entry.oids.getD [], oid.enabled = true) :
    candidates entries ids = entries.flatMap fun entry => entry.oids.getD [] := by
  have hchosen : entries.filter (fun entry => ids.contains entry.id) = entries :=
    List.filter_eq_self.mpr fun entry hentry => List.contains_iff_mem.mpr (hids entry hentry)
  have hon : ∀ visit ∈ visitedOids entries ids, visit.2.enabled = true := by
    intro visit hvisit
    rw [visitedOids, visits, hchosen] at hvisit
    obtain ⟨entry, hentry, hvisit⟩ := List.mem_flatMap.mp hvisit
    obtain ⟨oid, hoid, rfl⟩ := List.mem_map.mp hvisit
    exact henabled entry hentry oid hoid
  rw [candidates, List.filter_eq_self.mpr hon, visitedOids, visits, hchosen, List.map_flatMap]
  simp [Function.comp_def]

/-- The reader selects the exported OIDs when it is given the exported ids. -/
theorem EntriesFor.getOids_eq {moduleList : List JString} {entries : List ExportedEntry}
    (h : EntriesFor toUpperUnderscore repository moduleList entries) :
    getOids (some (entries.map ExportedEntry.toOidMapEntry))
        ((List.range' 1 moduleList.length).map Int64.ofNat) =
      .ok (dropRepeats (exportedOids entries)) := by
  have hall : ∀ entry ∈ entries.map ExportedEntry.toOidMapEntry,
      entry.id ∈ (List.range' 1 moduleList.length).map Int64.ofNat := by
    rw [← h.ids, List.forall_mem_map]
    exact fun entry hentry => List.mem_map_of_mem hentry
  have hon : ∀ entry ∈ entries.map ExportedEntry.toOidMapEntry, ∀ oid ∈ entry.oids.getD [],
      oid.enabled = true := by
    rw [List.forall_mem_map]
    exact fun entry hentry oid hoid => h.enabled oid (List.mem_flatMap.mpr ⟨entry, hentry, hoid⟩)
  have hpresent : OidsPresent (entries.map ExportedEntry.toOidMapEntry)
      ((List.range' 1 moduleList.length).map Int64.ofNat) := by
    rw [OidsPresent, Present, List.forall_mem_map]
    exact fun entry hentry _ => h.present entry hentry
  rw [Snmp.getOids_eq, if_pos hpresent, candidates_of_all hall hon, List.flatMap_map]
  rfl

/-! ## The three exports together -/

/-- The three exports return and report one sequence of metric ids, the OID
lists have the ids from `1` on in module order, and the reader that is given
these ids selects the exported OIDs without repeats. -/
def ExportsAgree (moduleList : List JString) : Prop :=
  ∃ definitions metrics entries,
    MibExporter.exportModules (mibToMetricDefinition toUpperUnderscore) repository moduleList =
        .ok definitions ∧
      MibExporter.exportModules (mibToPluginMetrics toUpperUnderscore) repository moduleList =
        .ok metrics ∧
      MibExporter.exportModules (mibToOidMap toUpperUnderscore) repository moduleList =
        .ok entries ∧
      definitions.map MetricDefinition.name = metrics ∧
      (exportedOids entries).map OidMap.metricId = metrics.map some ∧
      entries.map (fun entry => entry.id) = (List.range' 1 moduleList.length).map Int64.ofNat ∧
      entries.map ExportedEntry.name =
        moduleList.map (fun moduleName => some (repository.findSmiModule moduleName).moduleName) ∧
      getOids (some (entries.map ExportedEntry.toOidMapEntry))
        ((List.range' 1 moduleList.length).map Int64.ofNat) =
          .ok (dropRepeats (exportedOids entries))

/-- The exports agree exactly when no exported object has an empty name. -/
theorem exportsAgree_iff (moduleList : List JString) :
    ExportsAgree toUpperUnderscore repository moduleList ↔
      ∀ moduleName ∈ moduleList, ∀ object ∈ repository.objects moduleName,
        exported object = true → object.objectName ≠ [] := by
  rw [← metric_export_ok_iff toUpperUnderscore]
  constructor
  · intro hagree
    obtain ⟨definitions, _, _, hmetric, _⟩ := hagree
    exact ⟨definitions, hmetric⟩
  · intro hreturns
    obtain ⟨definitions, hmetric⟩ := hreturns
    obtain ⟨entries, hoids, hentries⟩ := oidMap_export toUpperUnderscore repository moduleList
    exact ⟨definitions, metricIds toUpperUnderscore repository moduleList, entries, hmetric,
      plugin_export toUpperUnderscore repository moduleList, hoids,
      metric_export toUpperUnderscore repository hmetric, hentries.metricIds_eq, hentries.ids,
      hentries.names, hentries.getOids_eq⟩

/-- A repository of one counter without a name. -/
def namelessRepository : SmiRepository where
  findSmiModule moduleName := ⟨moduleName, [[]]⟩
  findSmiObject _ objectName :=
    { type := .OBJECT_TYPE_SCALAR, objectName := objectName, oid := some [1, 3, 6],
      smiSyntax := .SYNTAX_COUNTER32, description := [] }

theorem exportsAgree_nameless :
    ¬ ExportsAgree (fun objectName _ => objectName) namelessRepository [utf16 "M"] := by
  intro hagree
  obtain ⟨definitions, _, _, hmetric, _⟩ := hagree
  have hthrown : MibExporter.exportModules (mibToMetricDefinition fun objectName _ => objectName)
      namelessRepository [utf16 "M"] = .error .stringIndexOutOfBounds := rfl
  rw [hthrown] at hmetric
  cases hmetric

end BoundaryEventSdk.Snmp
