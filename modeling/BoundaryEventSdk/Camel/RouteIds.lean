import BoundaryEventSdk.Camel.RouteBuilders

/-!
# Route ids and start-up orders

A Camel context takes one route for each id and one for each start-up order.
The SNMP builder gives every route its own id, so a second configuration
repeats it.  The Esper builder puts the name of the query into the id, so two
enabled queries of one name collide, and it counts in 32 bits.

`ownRoutes_iff` says for which configurations and queries each gets a route of
its own.
-/

namespace BoundaryEventSdk.Camel

open BoundaryEventSdk.Java
open BoundaryEventSdk.Snmp (SnmpPollerConfiguration)

/-- The orders count up from a start, as integers. -/
def Consecutive (start : Int32) (routes : List Route) : Prop :=
  routes.map (fun route => route.startupOrder.toInt) =
    (List.range routes.length).map fun i : Nat => start.toInt + i

/-- One route for each source, in order, with consecutive start-up orders and
pairwise distinct ids. -/
structure OwnRoutes (start : Int32) (sources : List (Option JString)) (routes : List Route) :
    Prop where
  sources : routes.map Route.fromUri = sources
  orders : Consecutive start routes
  ids : (routes.map Route.routeId).Nodup

/-! ## Orders -/

/-- The sum in 32 bits is the sum, up to the largest `int`. -/
theorem toInt_add_ofNat {start : Int32} {i : Nat} :
    (start + Int32.ofNat i).toInt = start.toInt + i ↔ start.toInt + i ≤ 2147483647 := by
  have hlow := start.le_toInt
  constructor
  · intro h
    have hhigh := (start + Int32.ofNat i).toInt_lt
    omega
  · intro h
    rw [Int32.toInt_add, Int32.toInt_ofNat', Int.add_bmod_bmod]
    exact Int.bmod_eq_of_le (by simp; omega) (by simp; omega)

/-- Orders that are counted in 32 bits are consecutive unless they overflow. -/
theorem consecutive_iff {start : Int32} {routes : List Route}
    (h : routes.map Route.startupOrder =
      (List.range routes.length).map fun i => start + Int32.ofNat i) :
    Consecutive start routes ↔ ∀ i < routes.length, start.toInt + (i : Int) ≤ 2147483647 := by
  have horders : routes.map (fun route => route.startupOrder.toInt) =
      (List.range routes.length).map fun i => (start + Int32.ofNat i).toInt := by
    have := congrArg (List.map Int32.toInt) h
    rwa [List.map_map, List.map_map] at this
  rw [Consecutive, horders, List.map_inj_left]
  simp only [List.mem_range, toInt_add_ofNat]

/-! ## Pollers -/

theorem pollers_ownRoutes_iff (builder : BoundaryRouteBuilder)
    (configList : List SnmpPollerConfiguration) :
    OwnRoutes builder.startUpOrder
        (configList.map fun config => some (SnmpPollerRouteBuilder.uriOf config))
        (SnmpPollerRouteBuilder.configure builder (.ok configList)) ↔
      configList.length ≤ 1 := by
  rw [SnmpPollerRouteBuilder.configure_eq]
  have hids : (numbered builder.startUpOrder (SnmpPollerRouteBuilder.routeOf builder)
      configList).map Route.routeId = List.replicate configList.length builder.routeId := by
    rw [map_numbered _ _ Route.routeId (fun _ => builder.routeId) (fun _ _ => rfl), List.map_const']
  constructor
  · intro h
    have hnodup := h.ids
    rw [hids] at hnodup
    exact List.nodup_replicate.mp hnodup
  · intro hlength
    refine ⟨map_numbered _ _ Route.fromUri
      (fun config => some (SnmpPollerRouteBuilder.uriOf config)) (fun _ _ => rfl) configList,
      ?_, ?_⟩
    · refine (consecutive_iff ?_).mpr fun i hi => ?_
      · rw [length_numbered]
        exact map_startupOrder_numbered _ _ (fun _ _ => rfl) configList
      · rw [length_numbered] at hi
        have hmax := builder.startUpOrder.toInt_lt
        omega
    · rw [hids]
      exact List.nodup_replicate.mpr hlength

/-! ## Queries -/

/-- The ids of the Esper routes are distinct exactly when the names are. -/
theorem nodup_queryIds (routeId : JString) (names : List JString) :
    ((routeId ++ utf16 "-INPUT") ::
        names.map fun name => routeId ++ utf16 "-QUERY: " ++ name).Nodup ↔ names.Nodup := by
  rw [List.nodup_cons]
  constructor
  · intro h
    exact List.Nodup.of_map _ h.2
  · intro h
    refine ⟨?_, h.map fun name other hsame => List.append_cancel_left hsame⟩
    intro hmem
    obtain ⟨name, _, hname⟩ := List.mem_map.mp hmem
    rw [List.append_assoc] at hname
    have hunit := congrArg (fun text => text[1]?) (List.append_cancel_left hname)
    revert hunit
    simp [utf16, charUnits]

/-- The enabled queries of a list. -/
def enabledQueries (queries : List Query) : List Query :=
  queries.filter Query.enabled

section EsperRoutes

variable (builder : EsperRouteBuilder) (enabled : List Query)

/-- The routes of a builder for its enabled queries. -/
def esperRoutes : List Route :=
  builder.inputRoute :: numbered (builder.startUpOrder + 1) builder.queryRoute enabled

theorem fromUri_esperRoutes :
    (esperRoutes builder enabled).map Route.fromUri =
      builder.fromUri :: enabled.map fun query => some (builder.queryUri query.query) := by
  rw [esperRoutes, List.map_cons, map_numbered _ _ Route.fromUri
    (fun query => some (builder.queryUri query.query)) fun _ _ => rfl]
  rfl

theorem nodup_esperRoutes_iff :
    ((esperRoutes builder enabled).map Route.routeId).Nodup ↔
      (enabled.map fun query => display query.name).Nodup := by
  rw [esperRoutes, List.map_cons, map_numbered _ _ Route.routeId
    (fun query => builder.routeId ++ utf16 "-QUERY: " ++ display query.name) fun _ _ => rfl]
  have h := nodup_queryIds builder.routeId (enabled.map fun query => display query.name)
  rw [List.map_map] at h
  exact h

/-- The orders are consecutive as long as they do not wrap. -/
theorem consecutive_esperRoutes_iff :
    Consecutive builder.startUpOrder (esperRoutes builder enabled) ↔
      builder.startUpOrder.toInt + (enabled.length : Int) ≤ 2147483647 := by
  rw [esperRoutes, consecutive_iff]
  · rw [List.length_cons, length_numbered]
    constructor
    · intro h
      exact h enabled.length (Nat.lt_succ_self _)
    · intro h i hi
      omega
  · rw [List.map_cons, map_startupOrder_numbered _ _ (fun _ _ => rfl), List.length_cons,
      length_numbered, List.range_succ_eq_map, List.map_cons, List.map_map]
    refine congrArg₂ List.cons (by simp [EsperRouteBuilder.inputRoute]) ?_
    refine List.map_congr_left fun i _ => ?_
    simp [Int32.add_assoc, Int32.add_comm 1]

end EsperRoutes

theorem queries_ownRoutes_iff (builder : EsperRouteBuilder) (queries : List Query) :
    (∃ after routes, builder.configure (some (some queries)) = .ok (after, routes) ∧
      OwnRoutes builder.startUpOrder
        (builder.fromUri ::
          (enabledQueries queries).map fun query => some (builder.queryUri query.query)) routes) ↔
      ((enabledQueries queries).map fun query => display query.name).Nodup ∧
        builder.startUpOrder.toInt + ((enabledQueries queries).length : Int) ≤ 2147483647 := by
  rw [EsperRouteBuilder.configure_eq, ← enabledQueries, ← esperRoutes,
    ← nodup_esperRoutes_iff builder, ← consecutive_esperRoutes_iff builder]
  constructor
  · intro h
    obtain ⟨after, routes, hroutes, hown⟩ := h
    cases hroutes
    exact ⟨hown.ids, hown.orders⟩
  · intro h
    exact ⟨_, _, rfl, fromUri_esperRoutes builder _, h.2, h.1⟩

/-- At most one poller configuration, and enabled queries with distinct names
whose orders fit an `int`. -/
theorem ownRoutes_iff (poller : BoundaryRouteBuilder) (configList : List SnmpPollerConfiguration)
    (esper : EsperRouteBuilder) (queries : List Query) :
    (OwnRoutes poller.startUpOrder
        (configList.map fun config => some (SnmpPollerRouteBuilder.uriOf config))
        (SnmpPollerRouteBuilder.configure poller (.ok configList)) ↔
      configList.length ≤ 1) ∧
    ((∃ after routes, esper.configure (some (some queries)) = .ok (after, routes) ∧
      OwnRoutes esper.startUpOrder
        (esper.fromUri ::
          (enabledQueries queries).map fun query => some (esper.queryUri query.query)) routes) ↔
      ((enabledQueries queries).map fun query => display query.name).Nodup ∧
        esper.startUpOrder.toInt + ((enabledQueries queries).length : Int) ≤ 2147483647) :=
  ⟨pollers_ownRoutes_iff poller configList, queries_ownRoutes_iff esper queries⟩

/-- Two default configurations get one route id, and so do two enabled queries
without a name. -/
theorem ownRoutes_two :
    ¬ OwnRoutes 0 ([{}, {}].map fun config => some (SnmpPollerRouteBuilder.uriOf config))
        (SnmpPollerRouteBuilder.configure {} (.ok [{}, {}])) ∧
      ¬ ∃ after routes,
        EsperRouteBuilder.configure {} (some (some [⟨none, true, none⟩, ⟨none, true, none⟩])) =
            .ok (after, routes) ∧
          OwnRoutes 0 (none ::
            (enabledQueries [⟨none, true, none⟩, ⟨none, true, none⟩]).map fun query =>
              some (EsperRouteBuilder.queryUri {} query.query)) routes := by
  constructor
  · intro h
    exact absurd h.ids (by decide)
  · intro h
    obtain ⟨after, routes, hroutes, hown⟩ := h
    cases hroutes
    exact absurd hown.ids (by decide)

end BoundaryEventSdk.Camel
