import BoundaryEventSdk.Event.RawEventBuilder
import BoundaryEventSdk.Java.Heap

/-!
# The objects that a client builds

A client makes events, sources and builders and calls their methods in any
order.  Sources are shared: two events, a builder and the client itself may
hold the same one, and a setter of the source then shows in all of them.
`ObjectGraph` is the state of these objects and `step` is one call on it.

A call names objects by reference, and it can only name objects that exist;
`Call.Valid` says so and `step` ignores any other call.  A constructor that
throws makes no object.  A method that throws leaves its object as it was at
the throw, and the client goes on.
-/

namespace BoundaryEventSdk.Event

open BoundaryEventSdk.Java

/-- The events, sources and builders made so far. -/
structure ObjectGraph where
  events : List (RawEvent Ref) := []
  sources : List Source := []
  builders : List (RawEventBuilder Ref) := []

namespace ObjectGraph

/-- The calls of a client. -/
inductive Call where
  | newRawEvent
  | event (ref : Ref) (call : RawEvent.Call Ref)
  | getSender (ref : Ref)
  | getSource (ref : Ref)
  | newSource
  | newSourceRef (ref : Option JString)
  | newSourceRefType (ref type : Option JString)
  | newSourceRefTypeName (ref type name : Option JString)
  | newSourceProperties (ref type name : Option JString) (properties : Option Properties)
  | source (ref : Ref) (call : Source.Call)
  | newBuilder
  | builder (ref : Ref) (call : RawEventBuilder.Call Ref)
  | build (ref : Ref)

/-- Before the first call there is no object. -/
def initial : ObjectGraph := {}

/-- The source in an argument exists, or the argument is `null`. -/
def ValidSource (graph : ObjectGraph) (source : Option Ref) : Prop :=
  ∀ ref ∈ source, ref < graph.sources.length

instance (graph : ObjectGraph) (source : Option Ref) : Decidable (graph.ValidSource source) :=
  match source with
  | none => isTrue (by simp [ValidSource])
  | some ref => decidable_of_iff (ref < graph.sources.length) (by simp [ValidSource])

/-- The sources that a call of an event passes on exist. -/
def ValidEventCall (graph : ObjectGraph) : RawEvent.Call Ref → Prop
  | .setSender sender => graph.ValidSource sender
  | .setSource source => graph.ValidSource source
  | _ => True

instance (graph : ObjectGraph) (call : RawEvent.Call Ref) :
    Decidable (graph.ValidEventCall call) := by
  unfold ValidEventCall
  split <;> infer_instance

/-- The sources that a call of a builder passes on exist. -/
def ValidBuilderCall (graph : ObjectGraph) : RawEventBuilder.Call Ref → Prop
  | .setSender sender => graph.ValidSource sender
  | .setSource source => graph.ValidSource source
  | _ => True

instance (graph : ObjectGraph) (call : RawEventBuilder.Call Ref) :
    Decidable (graph.ValidBuilderCall call) := by
  unfold ValidBuilderCall
  split <;> infer_instance

/-- `getSource()` on an event: the source is created when there is none. -/
def getSource (graph : ObjectGraph) (ref : Ref) (event : RawEvent Ref) : ObjectGraph :=
  if event.source = none then
    { graph with
      events := graph.events.set ref { event with source := some graph.sources.length }
      sources := graph.sources ++ [Source.new] }
  else graph

/-- `getSender()` on an event: the sender is created when there is none. -/
def getSender (graph : ObjectGraph) (ref : Ref) (event : RawEvent Ref) : ObjectGraph :=
  if event.sender = none then
    { graph with
      events := graph.events.set ref { event with sender := some graph.sources.length }
      sources := graph.sources ++ [Source.new] }
  else graph

/-- One call.  A call on an object that does not exist is ignored. -/
def step (graph : ObjectGraph) : Call → ObjectGraph
  | .newRawEvent => { graph with events := graph.events ++ [RawEvent.new] }
  | .event ref call =>
    match graph.events[ref]? with
    | some event =>
      if graph.ValidEventCall call then
        { graph with events := graph.events.set ref (event.apply call).state }
      else graph
    | none => graph
  | .getSender ref =>
    match graph.events[ref]? with
    | some event => graph.getSender ref event
    | none => graph
  | .getSource ref =>
    match graph.events[ref]? with
    | some event => graph.getSource ref event
    | none => graph
  | .newSource => { graph with sources := graph.sources ++ [Source.new] }
  | .newSourceRef ref => { graph with sources := graph.sources ++ [Source.ofRef ref] }
  | .newSourceRefType ref type =>
    { graph with sources := graph.sources ++ [Source.ofRefType ref type] }
  | .newSourceRefTypeName ref type name =>
    { graph with sources := graph.sources ++ [Source.ofRefTypeName ref type name] }
  | .newSourceProperties ref type name properties =>
    let made := Source.ofRefTypeNameProperties ref type name properties
    if made.thrown = none then { graph with sources := graph.sources ++ [made.state] } else graph
  | .source ref call =>
    match graph.sources[ref]? with
    | some source => { graph with sources := graph.sources.set ref (source.apply call).state }
    | none => graph
  | .newBuilder => { graph with builders := graph.builders ++ [RawEventBuilder.new] }
  | .builder ref call =>
    match graph.builders[ref]? with
    | some builder =>
      if graph.ValidBuilderCall call then
        { graph with builders := graph.builders.set ref (builder.apply call) }
      else graph
    | none => graph
  | .build ref =>
    match graph.builders[ref]? with
    | some builder => { graph with events := graph.events ++ [builder.build] }
    | none => graph

/-- The objects after a list of calls, from the start. -/
def after (calls : List Call) : ObjectGraph :=
  run step initial calls

/-! ## No reference dangles -/

/-- Both source fields of an event are `null` or hold an existing source. -/
def ValidEvent (graph : ObjectGraph) (event : RawEvent Ref) : Prop :=
  graph.ValidSource event.sender ∧ graph.ValidSource event.source

/-- Both source fields of a builder are `null` or hold an existing source. -/
def ValidBuilder (graph : ObjectGraph) (builder : RawEventBuilder Ref) : Prop :=
  graph.ValidSource builder.sender ∧ graph.ValidSource builder.source

/-- Every reference in the graph is to an existing source. -/
structure NoDangling (graph : ObjectGraph) : Prop where
  events : ∀ event ∈ graph.events, graph.ValidEvent event
  builders : ∀ builder ∈ graph.builders, graph.ValidBuilder builder

theorem noDangling_initial : NoDangling initial :=
  ⟨by simp [initial], by simp [initial]⟩

theorem validSource_none (graph : ObjectGraph) : graph.ValidSource none := by
  simp [ValidSource]

/-- A reference stays valid while sources are only added. -/
theorem validSource_mono {graph graph' : ObjectGraph}
    (h : graph.sources.length ≤ graph'.sources.length) {source : Option Ref}
    (hs : graph.ValidSource source) : graph'.ValidSource source :=
  fun ref href => Nat.lt_of_lt_of_le (hs ref href) h

theorem validEvent_mono {graph graph' : ObjectGraph}
    (h : graph.sources.length ≤ graph'.sources.length) {event : RawEvent Ref}
    (he : graph.ValidEvent event) : graph'.ValidEvent event :=
  ⟨validSource_mono h he.1, validSource_mono h he.2⟩

theorem validBuilder_mono {graph graph' : ObjectGraph}
    (h : graph.sources.length ≤ graph'.sources.length) {builder : RawEventBuilder Ref}
    (hb : graph.ValidBuilder builder) : graph'.ValidBuilder builder :=
  ⟨validSource_mono h hb.1, validSource_mono h hb.2⟩

/-- A valid call on an event leaves its references valid. -/
theorem validEvent_apply {graph : ObjectGraph} {event : RawEvent Ref} (h : graph.ValidEvent event)
    {call : RawEvent.Call Ref} (hcall : graph.ValidEventCall call) :
    graph.ValidEvent (event.apply call).state := by
  cases call with
  | setSender sender => exact ⟨hcall, h.2⟩
  | setSource source => exact ⟨h.1, hcall⟩
  | setFingerprintFields fields => cases fields <;> exact h
  | setProperties properties => cases properties <;> exact h
  | setTags tags => cases tags <;> exact h
  | setSeverityString name =>
    obtain ⟨severity, hstate⟩ := event.setSeverityString_state name
    rw [RawEvent.apply, hstate]
    exact h
  | setStatusString name =>
    obtain ⟨status, hstate⟩ := event.setStatusString_state name
    rw [RawEvent.apply, hstate]
    exact h
  | _ => exact h

/-- A valid call on a builder leaves its references valid. -/
theorem validBuilder_apply {graph : ObjectGraph} {builder : RawEventBuilder Ref}
    (h : graph.ValidBuilder builder) {call : RawEventBuilder.Call Ref}
    (hcall : graph.ValidBuilderCall call) : graph.ValidBuilder (builder.apply call) := by
  cases call with
  | setSender sender => exact ⟨hcall, h.2⟩
  | setSource source => exact ⟨h.1, hcall⟩
  | _ => exact h

/-- `build` passes on only the references that the builder holds. -/
theorem validEventCall_of_mem_buildCalls {graph : ObjectGraph} {builder : RawEventBuilder Ref}
    (h : graph.ValidBuilder builder) {call : RawEvent.Call Ref}
    (hcall : call ∈ builder.buildCalls) : graph.ValidEventCall call := by
  have hmem := List.reduceOption_mem_iff.mp hcall
  simp only [List.mem_cons, List.not_mem_nil, or_false] at hmem
  rcases hmem with h' | h' | h' | h' | h' | h' | h' | h' | h' | h' | h' | h' <;>
    obtain ⟨argument, harg, rfl⟩ := Option.map_eq_some_iff.mp h'.symm
  case inr.inr.inr.inr.inr.inr.inl =>
    exact fun ref href => h.1 ref (by rwa [harg])
  case inr.inr.inr.inr.inr.inr.inr.inr.inl =>
    exact fun ref href => h.2 ref (by rwa [harg])
  all_goals exact trivial

theorem validEvent_build {graph : ObjectGraph} {builder : RawEventBuilder Ref}
    (h : graph.ValidBuilder builder) : graph.ValidEvent builder.build :=
  run_invariant graph.ValidEvent graph.ValidEventCall
    (fun _ _ he hcall => validEvent_apply he hcall)
    ⟨graph.validSource_none, graph.validSource_none⟩
    (fun _ hcall => validEventCall_of_mem_buildCalls h hcall)

/-- A new source leaves the references valid. -/
theorem NoDangling.addSource {graph : ObjectGraph} (h : graph.NoDangling) (source : Source) :
    NoDangling { graph with sources := graph.sources ++ [source] } where
  events event hevent := validEvent_mono (by simp) (h.events event hevent)
  builders builder hbuilder := validBuilder_mono (by simp) (h.builders builder hbuilder)

/-- So does an event that is overwritten by one with valid references. -/
theorem NoDangling.setEvent {graph : ObjectGraph} (h : graph.NoDangling) (ref : Ref)
    {event : RawEvent Ref} (he : graph.ValidEvent event) :
    NoDangling { graph with events := graph.events.set ref event } :=
  ⟨forall_mem_write h.events he ref, h.builders⟩

/-- A getter that creates a source points the event at the new one. -/
theorem NoDangling.getSource {graph : ObjectGraph} (h : graph.NoDangling) (ref : Ref)
    {event : RawEvent Ref} (he : event ∈ graph.events) :
    (graph.getSource ref event).NoDangling := by
  unfold ObjectGraph.getSource
  split
  · refine (h.addSource Source.new).setEvent ref ⟨?_, ?_⟩
    · exact validSource_mono (by simp) (h.events event he).1
    · simp [ValidSource]
  · exact h

theorem NoDangling.getSender {graph : ObjectGraph} (h : graph.NoDangling) (ref : Ref)
    {event : RawEvent Ref} (he : event ∈ graph.events) :
    (graph.getSender ref event).NoDangling := by
  unfold ObjectGraph.getSender
  split
  · refine (h.addSource Source.new).setEvent ref ⟨?_, ?_⟩
    · simp [ValidSource]
    · exact validSource_mono (by simp) (h.events event he).2
  · exact h

/-- One call leaves no dangling reference. -/
theorem noDangling_step {graph : ObjectGraph} (h : graph.NoDangling) (call : Call) :
    (graph.step call).NoDangling := by
  have hnone := graph.validSource_none
  cases call with
  | newRawEvent => exact ⟨forall_mem_alloc h.events ⟨hnone, hnone⟩, h.builders⟩
  | event ref call =>
    simp only [step]
    split
    · rename_i event hevent
      split
      · rename_i hcall
        exact h.setEvent ref (validEvent_apply (h.events event (List.mem_of_getElem? hevent)) hcall)
      · exact h
    · exact h
  | getSender ref =>
    simp only [step]
    split
    · rename_i event hevent
      exact h.getSender ref (List.mem_of_getElem? hevent)
    · exact h
  | getSource ref =>
    simp only [step]
    split
    · rename_i event hevent
      exact h.getSource ref (List.mem_of_getElem? hevent)
    · exact h
  | newSource => exact h.addSource _
  | newSourceRef ref => exact h.addSource _
  | newSourceRefType ref type => exact h.addSource _
  | newSourceRefTypeName ref type name => exact h.addSource _
  | newSourceProperties ref type name properties =>
    simp only [step]
    split
    · exact h.addSource _
    · exact h
  | source ref call =>
    simp only [step]
    split
    · exact
        { events := fun event hevent => validEvent_mono (by simp) (h.events event hevent)
          builders := fun builder hb => validBuilder_mono (by simp) (h.builders builder hb) }
    · exact h
  | newBuilder => exact ⟨h.events, forall_mem_alloc h.builders ⟨hnone, hnone⟩⟩
  | builder ref call =>
    simp only [step]
    split
    · rename_i builder hbuilder
      split
      · rename_i hcall
        have hold := h.builders builder (List.mem_of_getElem? hbuilder)
        exact ⟨h.events, forall_mem_write h.builders (validBuilder_apply hold hcall) ref⟩
      · exact h
    · exact h
  | build ref =>
    simp only [step]
    split
    · rename_i builder hbuilder
      have hold := h.builders builder (List.mem_of_getElem? hbuilder)
      exact ⟨forall_mem_alloc h.events (validEvent_build hold), h.builders⟩
    · exact h

/-- No run of calls makes a dangling reference. -/
theorem noDangling_after (calls : List Call) : (after calls).NoDangling :=
  run_invariant NoDangling (fun _ => True) (fun _ call h _ => noDangling_step h call)
    noDangling_initial fun _ _ => trivial

end ObjectGraph

end BoundaryEventSdk.Event
