import BoundaryEventSdk.Event.ObjectGraph

/-!
# The 255 limit on event properties

`BaseEvent` offers a truncation for property values, and the write paths use it
in different ways:

* `RawEvent.addProperty` truncates neither the name nor the value;
* `Source.addProperty` truncates the name and not the value;
* `setProperties` of both classes, the source constructor and the builder
  truncate the values and not the names.

So the limit holds after a run whose calls keep to it where the code does not,
and `Call.WithinLimit` says what that is for each call.  The `within_iff`
lemmas show that nothing weaker would do for a single write, and
`limited_after` carries the limit through a run.  The last part compares a
loop of `addProperty` with one `setProperties` of the same entries.
-/

namespace BoundaryEventSdk.Event

open BoundaryEventSdk.Java

/-! ## One write -/

/-- Every property that is there is within the limit. -/
def FieldWithin (properties : Option Properties) : Prop :=
  ∀ map ∈ properties, PropertiesWithin map

theorem fieldWithin_none : FieldWithin none := by
  simp [FieldWithin]

theorem fieldWithin_some {properties : Properties} :
    FieldWithin (some properties) ↔ PropertiesWithin properties := by
  simp [FieldWithin]

theorem propertiesWithin_getD {properties : Option Properties} (h : FieldWithin properties) :
    PropertiesWithin (properties.getD .empty) := by
  cases properties with
  | none => exact propertiesWithin_empty
  | some map => exact h map rfl

/-- A `put` keeps the limit exactly when the name and the value are within
it. -/
theorem propertiesWithin_put_iff {properties : Properties} (h : PropertiesWithin properties)
    {name : Option JString} {value : Option Obj} :
    PropertiesWithin (properties.put name value) ↔ NameWithin name ∧ ValueWithin value := by
  constructor
  · intro hput
    exact hput (name, value) (LinkedHashMap.mem_put.mpr (Or.inl rfl))
  · intro hwithin
    obtain ⟨hname, hvalue⟩ := hwithin
    exact propertiesWithin_put h hname hvalue

/-- `RawEvent.addProperty` keeps the limit exactly when the caller does. -/
theorem RawEvent.addProperty_within_iff {S : Type} {event : RawEvent S}
    (h : FieldWithin event.properties) {name : Option JString} {value : Option Obj} :
    FieldWithin (event.addProperty name value).properties ↔
      NameWithin name ∧ ValueWithin value := by
  rw [RawEvent.addProperty, fieldWithin_some]
  exact propertiesWithin_put_iff (propertiesWithin_getD h)

/-- `RawEvent.setProperties` keeps the limit exactly when the names are within
it. -/
theorem RawEvent.setProperties_within_iff {S : Type} (event : RawEvent S)
    (properties : Properties) :
    FieldWithin (event.setProperties (some properties)).state.properties ↔
      ∀ entry ∈ properties.entries, NameWithin entry.1 := by
  rw [RawEvent.setProperties, fieldWithin_some]
  exact propertiesWithin_truncateMap

/-- `Source.addProperty` keeps the limit exactly when the value is within it. -/
theorem Source.addProperty_within_iff {source : Source} (h : FieldWithin source.properties)
    {key : Option JString} {value : Option Obj} :
    FieldWithin (source.addProperty key value).properties ↔ ValueWithin value := by
  rw [Source.addProperty, fieldWithin_some, propertiesWithin_put_iff (propertiesWithin_getD h)]
  exact and_iff_right (nameWithin_truncate key)

/-- `Source.setProperties` keeps the limit exactly when the names are within
it. -/
theorem Source.setProperties_within_iff (source : Source) (properties : Properties) :
    FieldWithin (source.setProperties (some properties)).state.properties ↔
      ∀ entry ∈ properties.entries, NameWithin entry.1 := by
  rw [Source.setProperties, fieldWithin_some]
  exact propertiesWithin_truncateMap

/-! ## The calls that keep the limit -/

/-- The names of a map argument are within the limit, or the argument is
`null`. -/
def NamesWithin (properties : Option Properties) : Prop :=
  ∀ map ∈ properties, ∀ entry ∈ map.entries, NameWithin entry.1

/-- What an event call owes to the limit. -/
def RawEvent.Call.WithinLimit {S : Type} : RawEvent.Call S → Prop
  | .addProperty name value => NameWithin name ∧ ValueWithin value
  | .setProperties properties => NamesWithin properties
  | _ => True

/-- What a source call owes to the limit. -/
def Source.Call.WithinLimit : Source.Call → Prop
  | .addProperty _ value => ValueWithin value
  | .setProperties properties => NamesWithin properties
  | _ => True

/-- What a builder call owes to the limit. -/
def RawEventBuilder.Call.WithinLimit {S : Type} : RawEventBuilder.Call S → Prop
  | .setProperties properties => NamesWithin properties
  | _ => True

/-- What a call owes to the limit: the names that no method truncates, and the
values that `addProperty` does not. -/
def ObjectGraph.Call.WithinLimit : ObjectGraph.Call → Prop
  | .event _ call => call.WithinLimit
  | .newSourceProperties _ _ _ properties => NamesWithin properties
  | .source _ call => call.WithinLimit
  | .builder _ call => call.WithinLimit
  | _ => True

theorem fieldWithin_apply_event {S : Type} {event : RawEvent S} (h : FieldWithin event.properties)
    {call : RawEvent.Call S} (hcall : call.WithinLimit) :
    FieldWithin (event.apply call).state.properties := by
  cases call with
  | addProperty name value => exact (RawEvent.addProperty_within_iff h).mpr hcall
  | removeProperty name =>
    intro map hmap
    obtain ⟨old, hold, rfl⟩ := Option.map_eq_some_iff.mp hmap
    exact propertiesWithin_remove name (h old hold)
  | getProperties => exact fieldWithin_some.mpr (propertiesWithin_getD h)
  | setProperties properties =>
    cases properties with
    | none => exact fieldWithin_some.mpr propertiesWithin_empty
    | some map => exact (event.setProperties_within_iff map).mpr (hcall map rfl)
  | setFingerprintFields fields => cases fields <;> exact h
  | setTags tags => cases tags <;> exact h
  | setSeverityString name =>
    obtain ⟨severity, hstate⟩ := event.setSeverityString_state name
    rw [RawEvent.apply, hstate]
    exact h
  | setStatusString name =>
    obtain ⟨status, hstate⟩ := event.setStatusString_state name
    rw [RawEvent.apply, hstate]
    exact h
  | _ => exact h

theorem fieldWithin_setProperties {source : Source} {properties : Option Properties}
    (h : NamesWithin properties) :
    FieldWithin (source.setProperties properties).state.properties := by
  cases properties with
  | none => exact fieldWithin_some.mpr propertiesWithin_empty
  | some map => exact (source.setProperties_within_iff map).mpr (h map rfl)

theorem fieldWithin_apply_source {source : Source} (h : FieldWithin source.properties)
    {call : Source.Call} (hcall : call.WithinLimit) :
    FieldWithin (source.apply call).state.properties := by
  cases call with
  | addProperty key value => exact (Source.addProperty_within_iff h).mpr hcall
  | getProperties => exact fieldWithin_some.mpr (propertiesWithin_getD h)
  | setProperties properties => exact fieldWithin_setProperties hcall
  | _ => exact h

theorem namesWithin_apply_builder {S : Type} {builder : RawEventBuilder S}
    (h : NamesWithin builder.properties) {call : RawEventBuilder.Call S}
    (hcall : call.WithinLimit) : NamesWithin (builder.apply call).properties := by
  cases call with
  | setProperties properties => exact hcall
  | _ => exact h

/-- `build` makes an event within the limit when the names given to the builder
are. -/
theorem fieldWithin_build {S : Type} {builder : RawEventBuilder S}
    (h : NamesWithin builder.properties) : FieldWithin builder.build.properties := by
  refine run_invariant (fun event : RawEvent S => FieldWithin event.properties)
    RawEvent.Call.WithinLimit
    (fun _ _ he hcall => fieldWithin_apply_event he hcall) fieldWithin_none fun call hcall => ?_
  have hmem := List.reduceOption_mem_iff.mp hcall
  simp only [List.mem_cons, List.not_mem_nil, or_false] at hmem
  rcases hmem with h' | h' | h' | h' | h' | h' | h' | h' | h' | h' | h' | h' <;>
    obtain ⟨argument, harg, rfl⟩ := Option.map_eq_some_iff.mp h'.symm
  case inr.inr.inr.inr.inl =>
    rw [harg] at h
    exact h
  all_goals exact trivial

/-! ## Runs -/

/-- Every object is within the limit, and so are the names that a builder
keeps for later. -/
structure ObjectGraph.Limited (graph : ObjectGraph) : Prop where
  events : ∀ event ∈ graph.events, FieldWithin event.properties
  sources : ∀ source ∈ graph.sources, FieldWithin source.properties
  builders : ∀ builder ∈ graph.builders, NamesWithin builder.properties

namespace ObjectGraph

theorem limited_initial : Limited initial :=
  ⟨by simp [initial], by simp [initial], by simp [initial]⟩

theorem Limited.addSource {graph : ObjectGraph} (h : graph.Limited) {source : Source}
    (hs : FieldWithin source.properties) :
    Limited { graph with sources := graph.sources ++ [source] } :=
  { h with sources := forall_mem_alloc h.sources hs }

theorem Limited.setEvent {graph : ObjectGraph} (h : graph.Limited) (ref : Ref)
    {event : RawEvent Ref} (he : FieldWithin event.properties) :
    Limited { graph with events := graph.events.set ref event } :=
  { h with events := forall_mem_write h.events he ref }

/-- A getter that creates a source leaves the properties of the event alone. -/
theorem Limited.getSender {graph : ObjectGraph} (h : graph.Limited) (ref : Ref)
    {event : RawEvent Ref} (he : event ∈ graph.events) : (graph.getSender ref event).Limited := by
  unfold ObjectGraph.getSender
  split
  · exact (h.addSource fieldWithin_none).setEvent ref (h.events event he)
  · exact h

theorem Limited.getSource {graph : ObjectGraph} (h : graph.Limited) (ref : Ref)
    {event : RawEvent Ref} (he : event ∈ graph.events) : (graph.getSource ref event).Limited := by
  unfold ObjectGraph.getSource
  split
  · exact (h.addSource fieldWithin_none).setEvent ref (h.events event he)
  · exact h

/-- A call that keeps to the limit keeps the objects within it. -/
theorem limited_step {graph : ObjectGraph} (h : graph.Limited) {call : Call}
    (hcall : call.WithinLimit) : (graph.step call).Limited := by
  cases call with
  | newRawEvent => exact { h with events := forall_mem_alloc h.events fieldWithin_none }
  | event ref call =>
    simp only [step]
    split
    · rename_i event hevent
      have hold := h.events event (List.mem_of_getElem? hevent)
      split
      · exact h.setEvent ref (fieldWithin_apply_event hold hcall)
      · exact h
    · exact h
  | getSender ref =>
    simp only [step]
    split
    · rename_i event hevent
      exact h.getSender ref (List.mem_of_getElem? hevent)
    · exact h
  | getSource ref =>
    simp only [step]
    split
    · rename_i event hevent
      exact h.getSource ref (List.mem_of_getElem? hevent)
    · exact h
  | newSource => exact h.addSource fieldWithin_none
  | newSourceRef ref => exact h.addSource fieldWithin_none
  | newSourceRefType ref type => exact h.addSource fieldWithin_none
  | newSourceRefTypeName ref type name => exact h.addSource fieldWithin_none
  | newSourceProperties ref type name properties =>
    simp only [step]
    split
    · exact h.addSource (fieldWithin_setProperties hcall)
    · exact h
  | source ref call =>
    simp only [step]
    split
    · rename_i source hsource
      have hold := h.sources source (List.mem_of_getElem? hsource)
      exact
        { h with sources := forall_mem_write h.sources (fieldWithin_apply_source hold hcall) ref }
    · exact h
  | newBuilder =>
    exact
      { h with
        builders := forall_mem_alloc h.builders (by simp [NamesWithin, RawEventBuilder.new]) }
  | builder ref call =>
    simp only [step]
    split
    · rename_i builder hbuilder
      have hold := h.builders builder (List.mem_of_getElem? hbuilder)
      split
      · exact
          { h with
            builders := forall_mem_write h.builders (namesWithin_apply_builder hold hcall) ref }
      · exact h
    · exact h
  | build ref =>
    simp only [step]
    split
    · rename_i builder hbuilder
      have hold := h.builders builder (List.mem_of_getElem? hbuilder)
      exact { h with events := forall_mem_alloc h.events (fieldWithin_build hold) }
    · exact h

theorem limited_after {calls : List Call} (h : ∀ call ∈ calls, call.WithinLimit) :
    (after calls).Limited :=
  run_invariant Limited Call.WithinLimit (fun _ _ hg hcall => limited_step hg hcall)
    limited_initial h

/-- The properties of an event, of its source and of its sender are within the
limit. -/
def PropertiesLimited (graph : ObjectGraph) (event : RawEvent Ref) : Prop :=
  FieldWithin event.properties ∧
    ∀ ref, event.source = some ref ∨ event.sender = some ref →
      ∀ source, graph.sources[ref]? = some source → FieldWithin source.properties

end ObjectGraph

/-! ## One property at a time -/

/-- Two maps are equal as Java maps: they answer each lookup alike. -/
def SameMap (left right : Properties) : Prop :=
  ∀ key, left.get key = right.get key

/-- A loop of `RawEvent.addProperty` over the entries of a map. -/
def RawEvent.addEach {S : Type} (event : RawEvent S) (properties : Properties) : RawEvent S :=
  properties.entries.foldl (fun event entry => event.addProperty entry.1 entry.2) event

/-- A loop of `Source.addProperty` over the entries of a map. -/
def Source.addEach (source : Source) (properties : Properties) : Source :=
  properties.entries.foldl (fun source entry => source.addProperty entry.1 entry.2) source

/-- Truncation changes a map exactly when a value is over the limit. -/
theorem sameMap_truncateMap_iff (properties : Properties) :
    SameMap properties (truncateMap properties) ↔
      ∀ entry ∈ properties.entries, ValueWithin entry.2 := by
  have hget : ∀ entry ∈ properties.entries,
      (truncateMap properties).get entry.1 = some (truncateObject entry.2) := by
    intro entry hentry
    rw [LinkedHashMap.get_eq_some_iff, truncateMap_entries]
    exact List.mem_map_of_mem hentry
  constructor
  · intro h entry hentry
    have hsame := h entry.1
    rw [hget entry hentry, LinkedHashMap.get_eq_some_iff.mpr hentry] at hsame
    exact truncateObject_eq_self_iff.mp (Option.some.inj hsame).symm
  · intro h key
    have hentries : (truncateMap properties).entries = properties.entries := by
      rw [truncateMap_entries]
      refine (List.map_congr_left fun entry hentry => ?_).trans (List.map_id _)
      rw [truncateObject_eq_self_iff.mpr (h entry hentry)]
      rfl
    rw [LinkedHashMap.ext hentries]

theorem RawEvent.addEach_properties {S : Type} (event : RawEvent S) (properties : Properties) :
    (event.addEach properties).properties.getD .empty =
      properties.entries.foldl (fun acc entry => acc.put entry.1 entry.2)
        (event.properties.getD .empty) := by
  unfold RawEvent.addEach
  generalize properties.entries = entries
  induction entries generalizing event with
  | nil => rfl
  | cons entry entries ih => exact ih (event.addProperty entry.1 entry.2)

theorem Source.addEach_properties (source : Source) (properties : Properties) :
    (source.addEach properties).properties.getD .empty =
      properties.entries.foldl (fun acc entry => acc.put (truncateToMaximumLength entry.1) entry.2)
        (source.properties.getD .empty) := by
  unfold Source.addEach
  generalize properties.entries = entries
  induction entries generalizing source with
  | nil => rfl
  | cons entry entries ih => exact ih (source.addProperty entry.1 entry.2)

/-- On a new event a loop of `addProperty` builds the entries as they are. -/
theorem RawEvent.addEach_new {S : Type} (properties : Properties) :
    ((RawEvent.new : RawEvent S).addEach properties).properties.getD .empty = properties := by
  rw [RawEvent.addEach_properties]
  apply LinkedHashMap.ext
  exact (properties.putAll_entries fun _ value => value).trans (List.map_id' _)

/-- On a new source a loop of `addProperty` builds the entries as they are,
when no name is over the limit. -/
theorem Source.addEach_new {properties : Properties}
    (h : ∀ entry ∈ properties.entries, NameWithin entry.1) :
    (Source.new.addEach properties).properties.getD .empty = properties := by
  rw [Source.addEach_properties]
  have hput : ∀ acc : Properties, ∀ entry ∈ properties.entries,
      acc.put (truncateToMaximumLength entry.1) entry.2 = acc.put entry.1 entry.2 := by
    intro acc entry hentry
    rw [truncateToMaximumLength_eq_self_iff.mpr (h entry hentry)]
  rw [List.foldl_ext _ _ _ hput]
  apply LinkedHashMap.ext
  exact (properties.putAll_entries fun _ value => value).trans (List.map_id' _)

/-- For an event the two ways of writing agree exactly when no value is over
the limit. -/
theorem RawEvent.addEach_sameMap_iff {S : Type} (properties : Properties) :
    SameMap ((RawEvent.new : RawEvent S).addEach properties).getProperties.1
        ((RawEvent.new : RawEvent S).setProperties (some properties)).state.getProperties.1 ↔
      ∀ entry ∈ properties.entries, ValueWithin entry.2 := by
  have hset : ((RawEvent.new : RawEvent S).setProperties (some properties)).state.getProperties.1 =
      truncateMap properties := rfl
  rw [hset, RawEvent.getProperties, RawEvent.addEach_new]
  exact sameMap_truncateMap_iff properties

/-- For a source the two ways of writing agree exactly when neither a name nor
a value is over the limit. -/
theorem Source.addEach_sameMap_iff (properties : Properties) :
    SameMap (Source.new.addEach properties).getProperties.1
        (Source.new.setProperties (some properties)).state.getProperties.1 ↔
      PropertiesWithin properties := by
  have hset : (Source.new.setProperties (some properties)).state.getProperties.1 =
      truncateMap properties := rfl
  rw [hset, Source.getProperties]
  constructor
  · intro h
    have hnames : ∀ entry ∈ properties.entries, NameWithin entry.1 := by
      intro entry hentry
      have htruncated : (entry.1, truncateObject entry.2) ∈ (truncateMap properties).entries := by
        rw [truncateMap_entries]
        exact List.mem_map_of_mem hentry
      have hadded := h entry.1
      rw [LinkedHashMap.get_eq_some_iff.mpr htruncated, LinkedHashMap.get_eq_some_iff,
        Source.addEach_properties] at hadded
      rcases LinkedHashMap.mem_putAll hadded with hold | ⟨other, _, hother⟩
      · simp [Source.new] at hold
      · rw [congrArg Prod.fst hother]
        exact nameWithin_truncate other.1
    rw [Source.addEach_new hnames] at h
    intro entry hentry
    exact ⟨hnames entry hentry, (sameMap_truncateMap_iff properties).mp h entry hentry⟩
  · intro h
    rw [Source.addEach_new fun entry hentry => (h entry hentry).1]
    exact (sameMap_truncateMap_iff properties).mpr fun entry hentry => (h entry hentry).2

/-! ## The limit as a whole -/

/-- The properties of events, sources and senders stay within the limit in
every state of a run whose calls keep to it, and one property at a time gives
the same map as all at once exactly for entries within the limit. -/
theorem property_limit (calls : List ObjectGraph.Call) (properties : Properties) :
    ((∀ call ∈ calls, call.WithinLimit) →
      ∀ event ∈ (ObjectGraph.after calls).events,
        (ObjectGraph.after calls).PropertiesLimited event) ∧
    (SameMap ((RawEvent.new : RawEvent Ref).addEach properties).getProperties.1
        ((RawEvent.new : RawEvent Ref).setProperties (some properties)).state.getProperties.1 ↔
      ∀ entry ∈ properties.entries, ValueWithin entry.2) ∧
    (SameMap (Source.new.addEach properties).getProperties.1
        (Source.new.setProperties (some properties)).state.getProperties.1 ↔
      PropertiesWithin properties) := by
  refine ⟨?_, RawEvent.addEach_sameMap_iff properties, Source.addEach_sameMap_iff properties⟩
  intro hcalls event hevent
  have hlimited := ObjectGraph.limited_after hcalls
  refine ⟨hlimited.events event hevent, fun ref _ source hsource => ?_⟩
  exact hlimited.sources source (List.mem_of_getElem? hsource)

/-- Calls that write one short property to an event and one to its source. -/
def shortCalls : List ObjectGraph.Call :=
  [.newRawEvent, .event 0 (.addProperty (utf16 "hostname") (some (.string (utf16 "localhost")))),
    .getSource 0, .source 0 (.addProperty (utf16 "port") (some (.number 22)))]

/-- Short properties stay within the limit. -/
theorem property_limit_short :
    (ObjectGraph.after shortCalls).PropertiesLimited
      { properties := some (LinkedHashMap.empty.put (utf16 "hostname")
          (some (.string (utf16 "localhost")))),
        source := some 0 } := by
  refine (property_limit _ .empty).1 ?_ _ (by decide)
  intro call hcall
  simp only [shortCalls, List.mem_cons, List.not_mem_nil, or_false] at hcall
  rcases hcall with rfl | rfl | rfl | rfl
  · trivial
  · refine ⟨fun text htext => ?_, fun text htext => ?_⟩
    · rw [← Option.some.inj htext]
      decide
    · rw [← Obj.string.inj (Option.some.inj htext)]
      decide
  · trivial
  · exact fun text htext => nomatch htext

/-- A string of 256 units, one more than the limit. -/
def overLimit : JString := List.replicate 256 88

theorem overLimit_length : ¬ overLimit.length ≤ maximumStringLength := by
  rw [overLimit, List.length_replicate]
  decide

/-- The map with one entry, whose value is over the limit. -/
def overLimitProperties : Properties :=
  LinkedHashMap.empty.put (utf16 "X") (some (.string overLimit))

/-- Calls that write the entry to a new event. -/
def overLimitCalls : List ObjectGraph.Call :=
  [.newRawEvent, .event 0 (.addProperty (utf16 "X") (some (.string overLimit)))]

/-- `RawEvent.addProperty` stores a value over the limit as it is, and one
property at a time then differs from all at once. -/
theorem addProperty_over_limit :
    (¬ ∀ event ∈ (ObjectGraph.after overLimitCalls).events,
        (ObjectGraph.after overLimitCalls).PropertiesLimited event) ∧
    ¬ SameMap
      ((RawEvent.new : RawEvent Ref).addEach overLimitProperties).getProperties.1
      ((RawEvent.new : RawEvent Ref).setProperties
        (some overLimitProperties)).state.getProperties.1 := by
  have hstored : (((utf16 "X" : JString) : Option JString), some (Obj.string overLimit)) ∈
      overLimitProperties.entries := LinkedHashMap.mem_put.mpr (Or.inl rfl)
  constructor
  · intro h
    have hevent := h { properties := some overLimitProperties } List.mem_cons_self
    exact overLimit_length ((hevent.1 _ rfl _ hstored).2 overLimit rfl)
  · intro h
    have hvalue := (RawEvent.addEach_sameMap_iff overLimitProperties).mp h _ hstored
    exact overLimit_length (hvalue overLimit rfl)

end BoundaryEventSdk.Event
