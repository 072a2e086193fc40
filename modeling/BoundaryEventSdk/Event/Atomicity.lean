import BoundaryEventSdk.Event.ObjectGraph

/-!
# What a call that throws leaves behind

A method of an event or of a source throws for one of two reasons.
`setSeverity` and `setStatus` look up the constant of a name before they write
anything, and a name of no constant leaves the event as it was.  The setters
of a list or a map name their parameter like the field; for `null` their
initialisation empties the field, and only then does the truncation
dereference the `null`.

So a setter of the second kind loses what the field held.  `atomic_iff` says
that this is the only way in which a throwing call changes anything: it leaves
the objects alone exactly when the field that it empties held an empty
collection already.
-/

namespace BoundaryEventSdk.Event

open BoundaryEventSdk.Java

/-! ## Events -/

namespace RawEvent

variable {S : Type}

theorem setSeverityString_atomic (event : RawEvent S) (severity : Option JString) :
    Outcome.Atomic event (event.setSeverityString severity) := by
  unfold setSeverityString
  split
  · exact Outcome.atomic_of_returned rfl
  · exact fun _ => rfl

theorem setStatusString_atomic (event : RawEvent S) (status : Option JString) :
    Outcome.Atomic event (event.setStatusString status) := by
  unfold setStatusString
  split
  · exact Outcome.atomic_of_returned rfl
  · exact fun _ => rfl

/-- If the call resets a field before it throws, there is nothing in the field
to be lost. -/
def Call.NothingToLose (event : RawEvent S) : Call S → Prop
  | .setFingerprintFields none => event.fingerprintFields = some []
  | .setProperties none => event.properties = some .empty
  | .setTags none => event.tags = some []
  | _ => True

theorem initFingerprintFields_eq_self_iff (event : RawEvent S) :
    event.initFingerprintFields = event ↔ event.fingerprintFields = some [] :=
  update_eq_self_iff (fun event : RawEvent S => event.fingerprintFields)
    (fun event value => { event with fingerprintFields := value }) (fun _ _ => rfl) (fun _ => rfl)
    event _

theorem initProperties_eq_self_iff (event : RawEvent S) :
    event.initProperties = event ↔ event.properties = some .empty :=
  update_eq_self_iff (fun event : RawEvent S => event.properties)
    (fun event value => { event with properties := value }) (fun _ _ => rfl) (fun _ => rfl)
    event _

theorem initializeTags_eq_self_iff (event : RawEvent S) :
    event.initializeTags = event ↔ event.tags = some [] :=
  update_eq_self_iff (fun event : RawEvent S => event.tags)
    (fun event value => { event with tags := value }) (fun _ _ => rfl) (fun _ => rfl)
    event _

/-- A call of an event that throws leaves it alone exactly when it had nothing
to lose. -/
theorem atomic_iff (event : RawEvent S) (call : Call S) :
    Outcome.Atomic event (event.apply call) ↔ call.NothingToLose event := by
  cases call with
  | setFingerprintFields fields =>
    cases fields with
    | none => exact Outcome.atomic_threw_iff.trans event.initFingerprintFields_eq_self_iff
    | some fields => exact iff_of_true (Outcome.atomic_of_returned rfl) trivial
  | setProperties properties =>
    cases properties with
    | none => exact Outcome.atomic_threw_iff.trans event.initProperties_eq_self_iff
    | some properties => exact iff_of_true (Outcome.atomic_of_returned rfl) trivial
  | setTags tags =>
    cases tags with
    | none => exact Outcome.atomic_threw_iff.trans event.initializeTags_eq_self_iff
    | some tags => exact iff_of_true (Outcome.atomic_of_returned rfl) trivial
  | setSeverityString severity => exact iff_of_true (event.setSeverityString_atomic _) trivial
  | setStatusString status => exact iff_of_true (event.setStatusString_atomic _) trivial
  | _ => exact iff_of_true (Outcome.atomic_of_returned rfl) trivial

end RawEvent

/-! ## Sources -/

namespace Source

/-- If the call resets the properties before it throws, they were empty. -/
def Call.NothingToLose (source : Source) : Call → Prop
  | .setProperties none => source.properties = some .empty
  | _ => True

theorem initializeProperties_eq_self_iff (source : Source) :
    source.initializeProperties = source ↔ source.properties = some .empty :=
  update_eq_self_iff (fun source : Source => source.properties)
    (fun source value => { source with properties := value }) (fun _ _ => rfl) (fun _ => rfl)
    source _

theorem atomic_iff (source : Source) (call : Call) :
    Outcome.Atomic source (source.apply call) ↔ call.NothingToLose source := by
  cases call with
  | setProperties properties =>
    cases properties with
    | none => exact Outcome.atomic_threw_iff.trans source.initializeProperties_eq_self_iff
    | some properties => exact iff_of_true (Outcome.atomic_of_returned rfl) trivial
  | _ => exact iff_of_true (Outcome.atomic_of_returned rfl) trivial

end Source

/-! ## Runs of a client -/

namespace ObjectGraph

/-- What a call throws. -/
def thrown (graph : ObjectGraph) : Call → Option Throwable
  | .event ref call => graph.events[ref]?.bind fun event => (event.apply call).thrown
  | .source ref call => graph.sources[ref]?.bind fun source => (source.apply call).thrown
  | .newSourceProperties ref type name properties =>
    (Source.ofRefTypeNameProperties ref type name properties).thrown
  | _ => none

/-- A call that throws leaves every field of every object as it was. -/
def Atomic (graph : ObjectGraph) (call : Call) : Prop :=
  graph.thrown call ≠ none → graph.step call = graph

/-- If the call resets a field of its object before it throws, there is nothing
in the field to be lost. -/
def Call.NothingToLose (graph : ObjectGraph) : Call → Prop
  | .event ref call => ∀ event ∈ graph.events[ref]?, call.NothingToLose event
  | .source ref call => ∀ source ∈ graph.sources[ref]?, call.NothingToLose source
  | _ => True

/-- Writing an object back leaves the graph alone if it is the object that was
there. -/
theorem setEvent_eq_self_iff {graph : ObjectGraph} {ref : Ref} {event event' : RawEvent Ref}
    (h : graph.events[ref]? = some event) :
    { graph with events := graph.events.set ref event' } = graph ↔ event' = event := by
  rw [← write_eq_self_iff h, @eq_comm _ _ graph.events]
  exact update_eq_self_iff ObjectGraph.events (fun graph heap => { graph with events := heap })
    (fun _ _ => rfl) (fun _ => rfl) graph _

theorem setSource_eq_self_iff {graph : ObjectGraph} {ref : Ref} {source source' : Source}
    (h : graph.sources[ref]? = some source) :
    { graph with sources := graph.sources.set ref source' } = graph ↔ source' = source := by
  rw [← write_eq_self_iff h, @eq_comm _ _ graph.sources]
  exact update_eq_self_iff ObjectGraph.sources (fun graph heap => { graph with sources := heap })
    (fun _ _ => rfl) (fun _ => rfl) graph _

/-- A call that may not be made has nothing to lose. -/
theorem nothingToLose_of_not_valid {graph : ObjectGraph} {call : RawEvent.Call Ref}
    (h : ¬ graph.ValidEventCall call) (event : RawEvent Ref) : call.NothingToLose event := by
  cases call with
  | setSender sender => exact trivial
  | setSource source => exact trivial
  | _ => exact absurd trivial h

theorem atomic_event_iff (graph : ObjectGraph) (ref : Ref) (call : RawEvent.Call Ref) :
    graph.Atomic (.event ref call) ↔ Call.NothingToLose graph (.event ref call) := by
  simp only [Atomic, thrown, step, Call.NothingToLose]
  cases hevent : graph.events[ref]? with
  | none => simp
  | some event =>
    simp only [Option.bind_some, Option.mem_some_iff, forall_eq']
    by_cases hvalid : graph.ValidEventCall call
    · rw [if_pos hvalid, setEvent_eq_self_iff hevent]
      exact event.atomic_iff call
    · rw [if_neg hvalid]
      exact iff_of_true (fun _ => rfl) (nothingToLose_of_not_valid hvalid event)

theorem atomic_source_iff (graph : ObjectGraph) (ref : Ref) (call : Source.Call) :
    graph.Atomic (.source ref call) ↔ Call.NothingToLose graph (.source ref call) := by
  simp only [Atomic, thrown, step, Call.NothingToLose]
  cases hsource : graph.sources[ref]? with
  | none => simp
  | some source =>
    simp only [Option.bind_some, Option.mem_some_iff, forall_eq']
    rw [setSource_eq_self_iff hsource]
    exact source.atomic_iff call

theorem atomic_iff (graph : ObjectGraph) (call : Call) :
    graph.Atomic call ↔ call.NothingToLose graph := by
  cases call with
  | event ref call => exact graph.atomic_event_iff ref call
  | source ref call => exact graph.atomic_source_iff ref call
  | newSourceProperties ref type name properties =>
    refine iff_of_true (fun hthrown => ?_) trivial
    exact if_neg hthrown
  | _ => exact iff_of_true (fun hthrown => absurd rfl hthrown) trivial

/-- In every state that calls can lead to, a call that throws is atomic exactly
when it had nothing to lose. -/
theorem atomic_after_iff (calls : List Call) (call : Call) :
    (after calls).Atomic call ↔ call.NothingToLose (after calls) :=
  (after calls).atomic_iff call

/-- `setTags(null)` throws and drops the tag that the event had. -/
theorem not_atomic_setTags :
    ¬ (after [.newRawEvent, .event 0 (.addTag (utf16 "raw"))]).Atomic
      (.event 0 (.setTags none)) := by
  intro hatomic
  have hstep := hatomic (by decide)
  have htags := congrArg (fun graph => graph.events.map RawEvent.tags) hstep
  exact absurd htags (by decide)

end ObjectGraph

end BoundaryEventSdk.Event
