import Mathlib.Data.List.Induction
import Mathlib.Data.List.Nodup
import BoundaryEventSdk.Snmp.OidLookup

/-!
# The route builders of the poller and of Esper

Camel calls `configure` on a route builder, which defines routes.  A route
takes from a URI, has an id and a start-up order, and sends to a URI.  The
processors inside a route do not matter here.

The SNMP builder makes one route for each configuration of the catalog and
counts the start-up orders in a local variable.  An exception while it loads
the catalog is printed and leaves it without routes.  The Esper builder makes
an input route and one route for each enabled query, and advances its own
`startUpOrder`.

* `SnmpPollerRouteBuilder.configure_eq` and `EsperRouteBuilder.configure_eq`
  give the routes without the loops.
-/

namespace BoundaryEventSdk.Camel

open BoundaryEventSdk.Java
open BoundaryEventSdk.Snmp (SnmpPollerConfiguration)

/-- The fields of a `BoundaryRouteBuilder` that the two builders read.  The
default values are those of the constructor. -/
structure BoundaryRouteBuilder where
  toUri : JString := []
  fromUri : Option JString := none
  routeId : JString := []
  startUpOrder : Int32 := 0
  deriving DecidableEq, Repr

/-- A route.  A poller route puts its configuration into a header. -/
structure Route where
  fromUri : Option JString
  routeId : JString
  startupOrder : Int32
  configuration : Option SnmpPollerConfiguration := none
  toUri : JString
  deriving DecidableEq, Repr

/-! ## `SnmpPollerRouteBuilder` -/

namespace SnmpPollerRouteBuilder

/-- `SnmpConstants.version2c`. -/
def version2c : Int := 1

/-- `getUri`. -/
def getUri (host : Option JString) (port : Int64) (oids : JString) (community : Option JString)
    (delay : Int64) : JString :=
  utf16 "snmp:" ++ display host ++ utf16 ":" ++ decimal port.toInt ++
    utf16 "?protocol=udp" ++ utf16 "&type=POLL" ++ (utf16 "&oids=" ++ oids) ++
    (utf16 "&snmpVersion=" ++ decimal version2c) ++
    (utf16 "&snmpCommunity=" ++ display community) ++ (utf16 "&delay=" ++ decimal delay.toInt)

/-- The URI that the route of a configuration polls. -/
def uriOf (config : SnmpPollerConfiguration) : JString :=
  getUri config.host config.port config.getOidsAsString config.communityRead config.delay

/-- The route of a configuration. -/
def routeOf (builder : BoundaryRouteBuilder) (startUpOrder : Int32)
    (config : SnmpPollerConfiguration) : Route where
  fromUri := uriOf config
  routeId := builder.routeId
  startupOrder := startUpOrder
  configuration := config
  toUri := builder.toUri

/-- `configure`, with what `catalog.load()` returns or throws.  The state of
the loop is the local variable and the routes. -/
def configure (builder : BoundaryRouteBuilder)
    (loaded : Except Throwable (List SnmpPollerConfiguration)) : List Route :=
  match loaded with
  | .ok configList =>
    (configList.foldl (fun (startUpOrder, routes) config =>
      (startUpOrder + 1, routes ++ [routeOf builder startUpOrder config]))
      (builder.startUpOrder, [])).2
  | .error _ => []

end SnmpPollerRouteBuilder

/-! ## `EsperRouteBuilder` -/

/-- The fields of a `Query` that the builder reads. -/
structure Query where
  name : Option JString
  enabled : Bool
  query : Option JString
  deriving DecidableEq, Repr

/-- The fields of an `EsperRouteBuilder`.  `engine` is its `instance`. -/
structure EsperRouteBuilder extends BoundaryRouteBuilder where
  engine : Option JString := none
  deriving DecidableEq, Repr

namespace EsperRouteBuilder

def inputUri (builder : EsperRouteBuilder) : JString :=
  utf16 "esper://" ++ display builder.engine ++ utf16 "?configured=true"

def queryUri (builder : EsperRouteBuilder) (query : Option JString) : JString :=
  utf16 "esper://" ++ display builder.engine ++ utf16 "?configured=true&eql=" ++ display query

/-- The route that takes the events in. -/
def inputRoute (builder : EsperRouteBuilder) : Route where
  fromUri := builder.fromUri
  routeId := builder.routeId ++ utf16 "-INPUT"
  startupOrder := builder.startUpOrder
  toUri := builder.inputUri

/-- The route of a query. -/
def queryRoute (builder : EsperRouteBuilder) (startUpOrder : Int32) (query : Query) : Route where
  fromUri := builder.queryUri query.query
  routeId := builder.routeId ++ utf16 "-QUERY: " ++ display query.name
  startupOrder := startUpOrder
  toUri := builder.toUri

/-- `addQuery`: the builder with its order advanced, and one more route. -/
def addQuery (state : EsperRouteBuilder × List Route) (query : Query) :
    EsperRouteBuilder × List Route :=
  let builder := { state.1 with startUpOrder := state.1.startUpOrder + 1 }
  (builder, state.2 ++ [queryRoute builder builder.startUpOrder query])

/-- `addQueriesToRoute`, over what the file of the queries holds. -/
def addQueriesToRoute (queryList : Option (Option (List Query)))
    (state : EsperRouteBuilder × List Route) :
    Except Throwable (EsperRouteBuilder × List Route) := do
  let list ← deref queryList
  let queries ← deref list
  return queries.foldl (fun state query => if query.enabled then addQuery state query else state)
    state

/-- `configure`: the builder after it, and the routes. -/
def configure (builder : EsperRouteBuilder) (queryList : Option (Option (List Query))) :
    Except Throwable (EsperRouteBuilder × List Route) :=
  addQueriesToRoute queryList (builder, [builder.inputRoute])

end EsperRouteBuilder

/-! ## Numbered routes -/

section Numbered

variable {α : Type}

/-- One route for each element, with orders that count up from a start. -/
def numbered (start : Int32) (make : Int32 → α → Route) (as : List α) : List Route :=
  as.zipIdx.map fun (a, i) => make (start + Int32.ofNat i) a

theorem numbered_append_singleton (start : Int32) (make : Int32 → α → Route) (as : List α) (a : α) :
    numbered start make (as ++ [a]) =
      numbered start make as ++ [make (start + Int32.ofNat as.length) a] := by
  simp [numbered, List.zipIdx_append]

/-- What does not depend on the order is a map of the elements. -/
theorem map_numbered {β : Type} (start : Int32) (make : Int32 → α → Route) (field : Route → β)
    (value : α → β) (h : ∀ order a, field (make order a) = value a) (as : List α) :
    (numbered start make as).map field = as.map value := by
  induction as using List.reverseRecOn with
  | nil => rfl
  | append_singleton as a ih =>
    rw [numbered_append_singleton, List.map_append, List.map_append, ih, List.map_singleton,
      List.map_singleton, h]

theorem length_numbered (start : Int32) (make : Int32 → α → Route) (as : List α) :
    (numbered start make as).length = as.length := by
  simp [numbered]

theorem map_startupOrder_numbered (start : Int32) (make : Int32 → α → Route)
    (h : ∀ order a, (make order a).startupOrder = order) (as : List α) :
    (numbered start make as).map Route.startupOrder =
      (List.range as.length).map fun i => start + Int32.ofNat i := by
  induction as using List.reverseRecOn with
  | nil => rfl
  | append_singleton as a ih =>
    rw [numbered_append_singleton, List.map_append, ih, List.map_singleton, h, List.length_append,
      List.length_singleton, List.range_succ, List.map_append]
    rfl

end Numbered

namespace SnmpPollerRouteBuilder

/-- The loop numbers the routes from the order of the builder on. -/
theorem configure_eq (builder : BoundaryRouteBuilder) (configList : List SnmpPollerConfiguration) :
    configure builder (.ok configList) =
      numbered builder.startUpOrder (routeOf builder) configList := by
  suffices hloop : configList.foldl (fun (startUpOrder, routes) config =>
        (startUpOrder + 1, routes ++ [routeOf builder startUpOrder config]))
        (builder.startUpOrder, []) =
      (builder.startUpOrder + Int32.ofNat configList.length,
        numbered builder.startUpOrder (routeOf builder) configList) from
    congrArg Prod.snd hloop
  induction configList using List.reverseRecOn with
  | nil => simp [numbered]
  | append_singleton configList config ih =>
    rw [List.foldl_append, ih, numbered_append_singleton, List.length_append]
    simp [Int32.add_assoc]

end SnmpPollerRouteBuilder

namespace EsperRouteBuilder

/-- The loop numbers the routes of the enabled queries after the input route. -/
theorem configure_eq (builder : EsperRouteBuilder) (queries : List Query) :
    configure builder (some (some queries)) =
      .ok ({ builder with
          startUpOrder :=
            builder.startUpOrder + Int32.ofNat (queries.filter Query.enabled).length },
        builder.inputRoute ::
          numbered (builder.startUpOrder + 1) (queryRoute builder)
            (queries.filter Query.enabled)) := by
  rw [configure, addQueriesToRoute, deref_some, ok_bind, deref_some, ok_bind]
  refine congrArg Except.ok ?_
  rw [← List.foldl_filter]
  induction queries.filter Query.enabled using List.reverseRecOn with
  | nil => simp [numbered]
  | append_singleton queries query ih =>
    rw [List.foldl_append, ih, numbered_append_singleton, List.length_append]
    simp [addQuery, Int32.add_assoc, Int32.add_comm 1]
    rfl

end EsperRouteBuilder

end BoundaryEventSdk.Camel
