import BoundaryEventSdk.Snmp.OidMapList
import BoundaryEventSdk.Snmp.SnmpTrap

/-!
# `MibExporter`: three exports of the objects of a MIB

`MibExporter.export` walks over the modules it was given and over the objects
of each module, and calls a `MibTransform` at the start and at the end of each
module and for each object.  Three transforms repeat one filter: metric
definitions, the metric list of a plugin, and an OID list for the poller.

The modules on the list and the objects they name are in the repository, and an
object has a description.  `PluginUtil.toUpperUnderscore` is any function.

Loading and unloading a module changes nothing here, as the repository is
fixed.
-/

namespace BoundaryEventSdk.Snmp

open BoundaryEventSdk.Java

/-- The syntaxes that the filter compares. -/
inductive SmiSyntax where
  | SYNTAX_COUNTER32
  | SYNTAX_COUNTER64
  | SYNTAX_GAUGE32
  | SYNTAX_INTEGER32
  | other (syntaxCode : Int)
  deriving DecidableEq, Repr

/-- The fields of an `SmiObject` that an export reads. -/
structure MibObject extends SmiObject where
  oid : Option Oid
  smiSyntax : SmiSyntax
  description : JString
  deriving DecidableEq, Repr

/-- An `SmiModule`. -/
structure SmiModule where
  moduleName : JString
  objectNames : List JString
  deriving DecidableEq, Repr

/-- The repository behind the `SmiManager`. -/
structure SmiRepository where
  findSmiModule : JString → SmiModule
  findSmiObject : JString → JString → MibObject

/-- The objects of a module, in the order of their names. -/
def SmiRepository.objects (repository : SmiRepository) (moduleName : JString) : List MibObject :=
  let smiModule := repository.findSmiModule moduleName
  smiModule.objectNames.map (repository.findSmiObject smiModule.moduleName)

/-! ## `MibTransformBase` -/

/-- `String.substring`. -/
def substring (s : JString) (beginIndex endIndex : Int) : Except Throwable JString :=
  if beginIndex < 0 ∨ endIndex > s.length ∨ beginIndex > endIndex then
    .error .stringIndexOutOfBounds
  else .ok ((s.take endIndex.toNat).drop beginIndex.toNat)

/-- `s.replace("  ", " ")`: from the left, without looking back. -/
def replaceDoubleBlanks : JString → JString
  | 32 :: 32 :: rest => 32 :: replaceDoubleBlanks rest
  | unit :: rest => unit :: replaceDoubleBlanks rest
  | [] => []

def oidToMetricId (toUpperUnderscore : JString → UInt16 → JString)
    (moduleName objectName : JString) : JString :=
  utf16 "SNMP." ++ (moduleName.map fun unit => if unit = 45 then 95 else unit) ++ utf16 "." ++
    toUpperUnderscore objectName 46

def oidToDescription (description : JString) : JString :=
  replaceDoubleBlanks (description.map fun unit => if unit = 10 then 32 else unit)

def oidToDisplayName (moduleName objectName : JString) : JString :=
  moduleName ++ utf16 "::" ++ objectName

/-- `MibTransformBase.SHORT_DISPLAY_NAME_MAX_INDEX`. -/
def shortDisplayNameMaxIndex : Int := 19

/-- `oidToShortDisplayName`.  Nothing keeps the substring. -/
def oidToShortDisplayName (objectName : JString) : Except Throwable JString := do
  let shortDisplayName := objectName
  let endIndex := min shortDisplayNameMaxIndex ((shortDisplayName.length : Int) - 1)
  let _ ← substring shortDisplayName 0 endIndex
  return shortDisplayName

def oidToGetOid (oid : Oid) : JString :=
  toDottedString oid ++ utf16 ".0"

def standardFilterCriteria (object : MibObject) : Bool :=
  object.type == .OBJECT_TYPE_SCALAR &&
    (object.smiSyntax == .SYNTAX_COUNTER32 || object.smiSyntax == .SYNTAX_COUNTER64 ||
      object.smiSyntax == .SYNTAX_GAUGE32 || object.smiSyntax == .SYNTAX_INTEGER32)

/-- The two conditions that each transform nests: the filter, and an OID. -/
def exported (object : MibObject) : Bool :=
  standardFilterCriteria object && object.oid.isSome

/-! ## The walk -/

/-- A `MibTransform` over states `σ` that writes an `ω` at the end.
`beginTransform` is the state of a new object after that call. -/
structure MibTransform (σ ω : Type) where
  beginTransform : σ
  beginModule : σ → SmiModule → σ
  transform : σ → SmiModule → MibObject → Except Throwable σ
  endModule : σ → SmiModule → σ
  endTransform : σ → ω

namespace MibExporter

variable {σ ω : Type}

/-- The body of the loop over the modules. -/
def exportModule (t : MibTransform σ ω) (repository : SmiRepository) (state : σ)
    (moduleName : JString) : Except Throwable σ := do
  let smiModule := repository.findSmiModule moduleName
  let state := t.beginModule state smiModule
  let state ← smiModule.objectNames.foldlM (fun state objectName =>
    t.transform state smiModule (repository.findSmiObject smiModule.moduleName objectName)) state
  return t.endModule state smiModule

/-- `MibExporter.export`. -/
def exportModules (t : MibTransform σ ω) (repository : SmiRepository)
    (moduleList : List JString) : Except Throwable ω := do
  let state ← moduleList.foldlM (exportModule t repository) t.beginTransform
  return t.endTransform state

end MibExporter

/-! ## The three transforms -/

/-- A `MetricDefinition`.  The two enumeration constants are known by name. -/
structure MetricDefinition where
  name : JString
  displayName : JString
  displayNameShort : JString
  description : JString
  defaultResolutionMS : Int
  defaultAggregate : JString
  unit : JString
  deriving DecidableEq, Repr

/-- `MibToMetricDefinition`.  The state is the live list of the
`MetricDefinitionList`. -/
def mibToMetricDefinition (toUpperUnderscore : JString → UInt16 → JString) :
    MibTransform (List MetricDefinition) (List MetricDefinition) where
  beginTransform := []
  beginModule state _ := state
  transform list smiModule object :=
    if exported object then do
      let objectName := object.objectName
      let moduleName := smiModule.moduleName
      let shortDisplayName ← oidToShortDisplayName objectName
      return list ++ [{
        name := oidToMetricId toUpperUnderscore moduleName objectName
        displayName := oidToDisplayName moduleName objectName
        displayNameShort := shortDisplayName
        description := oidToDescription object.description
        defaultResolutionMS := 5000
        defaultAggregate := utf16 "avg"
        unit := utf16 "number" }]
    else .ok list
  endModule state _ := state
  endTransform list := list

/-- `MibToPluginMetrics`. -/
def mibToPluginMetrics (toUpperUnderscore : JString → UInt16 → JString) :
    MibTransform (List JString) (List JString) where
  beginTransform := []
  beginModule state _ := state
  transform metricList smiModule object :=
    if exported object then
      .ok (metricList ++
        [oidToMetricId toUpperUnderscore smiModule.moduleName object.objectName])
    else .ok metricList
  endModule state _ := state
  endTransform metricList := metricList

/-- An exported `OidMapEntry`, with its name. -/
structure ExportedEntry extends OidMapEntry where
  name : Option JString := none
  deriving DecidableEq, Repr

/-- The fields of a `MibToOidMap`.  `nextId` is the counter of its
`OidMapList`, and `created` counts the new `OidMap` objects. -/
structure MibToOidMap where
  nextId : Int64 := 0
  oidMapEntryList : List ExportedEntry := []
  oidMapEntry : ExportedEntry := {}
  oidList : List OidMap := []
  created : Ref := 0
  deriving DecidableEq, Repr

/-- `new OidMap()`, with the fields that `transform` sets. -/
def newOidMap (toUpperUnderscore : JString → UInt16 → JString) (created : Ref)
    (smiModule : SmiModule) (object : MibObject) (oid : Oid) : OidMap where
  object := created
  oid := some (oidToGetOid oid)
  metricId := some (oidToMetricId toUpperUnderscore smiModule.moduleName object.objectName)
  name := some (oidToDisplayName smiModule.moduleName object.objectName)
  description := some (oidToDescription object.description)

/-- `MibToOidMap`. -/
def mibToOidMap (toUpperUnderscore : JString → UInt16 → JString) :
    MibTransform MibToOidMap (List ExportedEntry) where
  beginTransform := {}
  beginModule state smiModule :=
    { state with
      nextId := state.nextId + 1
      oidMapEntry := { id := state.nextId + 1, name := some smiModule.moduleName }
      oidList := [] }
  transform state smiModule object :=
    .ok (if standardFilterCriteria object then
      object.oid.elim state fun oid =>
        { state with
          oidList := state.oidList ++
            [newOidMap toUpperUnderscore state.created smiModule object oid]
          created := state.created + 1 }
    else state)
  endModule state _ :=
    { state with
      oidMapEntryList := state.oidMapEntryList ++
        [{ state.oidMapEntry with oids := some state.oidList }] }
  endTransform state := state.oidMapEntryList

end BoundaryEventSdk.Snmp
