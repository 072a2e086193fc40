import BoundaryEventSdk.Event.RawEvent
import BoundaryEventSdk.Snmp.OidLookup

/-!
# From a poll response to measurements

The poller route splits the variable bindings of a response, stops the parts
that hold an exception value, and a script turns each other part into a
`Measurement`.  `SplitVarBinds.splitBody` passes `variable.toLong()` to a debug
log.  Java evaluates the argument whether the log is on or not, so one value
that is not a number ends the split, and with it every measurement of the
response.

A part fails or stops alone: the splitter gives each part its own exchange, and
`ROUTE_STOP` ends only the one it is set on.  The script engine hands the
number over as it is.  `clock` gives the time at which the script looks at it
for each part.
-/

namespace BoundaryEventSdk.Snmp

open BoundaryEventSdk.Java

/-- A `Measurement`. -/
structure Measurement where
  source : Option JString := some []
  metric : Option JString := some []
  measure : Int := 0
  timestamp : Option Event.Date := none
  deriving DecidableEq, Repr

/-- `SplitVarBinds.splitBody`. -/
def splitBody (body : List VariableBinding) : Except Throwable (List VariableBinding) :=
  body.foldlM (fun answer var => do
    let _ ← var.value.toLong
    return answer ++ [var]) []

/-- `SnmpHandleException.process`: whether the part is stopped. -/
def handleException (varBind : VariableBinding) : Bool :=
  varBind.value.isException

/-- The fields that the script sets, from the entry of the map and the value. -/
def measurement (config : SnmpPollerConfiguration) (oidDef : OidMap) (value : Int)
    (now : Event.Date) : Measurement :=
  { source := config.host
    metric := oidDef.metricId
    measure := value
    timestamp := some now }

/-- `snmp-to-measure.js`.  A `null` from the map is a `TypeError` at the next
call on it, and so is a value that has no `getValue` or whose `getValue` is no
number. -/
def snmpToMeasure (config : SnmpPollerConfiguration) (now : Event.Date)
    (varBind : VariableBinding) : Except Throwable Measurement :=
  match config.getOidMap.get (some (toDottedString varBind.oid)), varBind.value.number with
  | some oidDef, some value => .ok (measurement config oidDef value now)
  | _, _ => .error .typeError

/-- One part of the split message: nothing when it is stopped, or what the
script does with it. -/
def measurePart (config : SnmpPollerConfiguration) (now : Event.Date) (varBind : VariableBinding) :
    Option (Except Throwable Measurement) :=
  if handleException varBind then none else some (snmpToMeasure config now varBind)

/-- The route of a poller, from the response to the script. -/
def pollResponse (config : SnmpPollerConfiguration) (clock : Nat → Event.Date)
    (body : List VariableBinding) :
    Except Throwable (List (Option (Except Throwable Measurement))) := do
  let parts ← splitBody body
  return parts.mapIdx fun i part => measurePart config (clock i) part

/-! ## The split -/

private theorem splitBody_loop (body answer : List VariableBinding) :
    body.foldlM (fun answer var => do
        let _ ← var.value.toLong
        return answer ++ [var]) answer =
      if body.all fun var => var.value.number.isSome then .ok (answer ++ body)
      else .error .unsupportedOperation := by
  induction body generalizing answer with
  | nil => simp [pure, Except.pure]
  | cons var body ih =>
    rw [List.foldlM_cons, List.all_cons, Variable.toLong]
    cases var.value.number with
    | none => rfl
    | some value =>
      refine (ih (answer ++ [var])).trans ?_
      simp

/-- The split returns all variable bindings in order, or throws when one of
them holds no number. -/
theorem splitBody_eq (body : List VariableBinding) :
    splitBody body =
      if body.all fun var => var.value.number.isSome then .ok body
      else .error .unsupportedOperation :=
  splitBody_loop body []

/-- A part with a number under a known OID becomes its measurement. -/
theorem measurePart_eq {config : SnmpPollerConfiguration} {varBind : VariableBinding} {m : OidMap}
    {value : Int} (hm : config.getOidMap.get (some (toDottedString varBind.oid)) = some m)
    (hvalue : varBind.value.number = some value) (now : Event.Date) :
    measurePart config now varBind = some (.ok (measurement config m value now)) := by
  have hstop : handleException varBind = false := Variable.isException_of_number hvalue
  rw [measurePart, hstop, snmpToMeasure, hm, hvalue]
  rfl

/-- Each position that holds a number under a known OID yields its
measurement. -/
def MeasuresAll (config : SnmpPollerConfiguration) (clock : Nat → Event.Date)
    (body : List VariableBinding) : Prop :=
  ∃ parts : List (Option (Except Throwable Measurement)),
    pollResponse config clock body = .ok parts ∧
    ∀ i (varBind : VariableBinding) (m : OidMap) (value : Int), body[i]? = some varBind →
      config.getOidMap.get (some (toDottedString varBind.oid)) = some m →
      varBind.value.number = some value →
        parts[i]? = some (some (Except.ok (measurement config m value (clock i))))

/-- The split returns the whole response and no measurement is lost exactly
when every variable binding of the response holds a number. -/
theorem poll_response (config : SnmpPollerConfiguration) (clock : Nat → Event.Date)
    (body : List VariableBinding) :
    splitBody body = .ok body ∧ MeasuresAll config clock body ↔
      ∀ varBind ∈ body, varBind.value.number.isSome = true := by
  have hall : (body.all fun var => var.value.number.isSome) = true ↔
      ∀ varBind ∈ body, varBind.value.number.isSome = true := List.all_eq_true
  rw [← hall, splitBody_eq]
  constructor
  · intro hmeasured
    obtain ⟨hsplit, _⟩ := hmeasured
    by_contra hsome
    rw [if_neg hsome] at hsplit
    cases hsplit
  · intro hsome
    rw [if_pos hsome]
    refine ⟨rfl, body.mapIdx fun i part => measurePart config (clock i) part, ?_, ?_⟩
    · rw [pollResponse, splitBody_eq, if_pos hsome]
      rfl
    · intro i varBind m value hbody hm hvalue
      rw [List.getElem?_mapIdx, hbody, Option.map_some, measurePart_eq hm hvalue]

/-- A response with the description of a host, which is text, and its up
time. -/
def systemGroup : List VariableBinding :=
  [⟨[1, 3, 6, 1, 2, 1, 1, 1, 0], .octetString [76, 105, 110, 117, 120]⟩,
    ⟨[1, 3, 6, 1, 2, 1, 1, 3, 0], .timeTicks 42⟩]

/-- One text value costs the measurement of the other variable. -/
theorem poll_response_octetString :
    splitBody systemGroup = .error .unsupportedOperation ∧
      ¬ MeasuresAll { oids := [sysUpTime] } (fun _ => 0) systemGroup := by
  refine ⟨rfl, ?_⟩
  intro hmeasures
  obtain ⟨parts, hparts, _⟩ := hmeasures
  cases hparts

end BoundaryEventSdk.Snmp
