import BoundaryEventSdk.Event.ObjectGraph

/-!
# The strings of an event stay within the API limit

Every string that a client gives to an event or a source, through any order of
constructors, setters and builder calls, is stored as the truncation of the
argument.  To say which argument that is, a history runs beside the objects.
`EventArguments`, `SourceArguments` and `BuilderArguments` hold, in place of
each stored string, the argument that last set or added it, and `record`
updates them from the call alone.  The only look at the object is for a
removal, which has to drop the argument at the position where the object drops
its element.

`EventArguments.record_stores`, `SourceArguments.record_stores` and
`BuilderArguments.record_holds` are the step lemmas, one for each class, and
`Arguments.record_stores` is the step lemma of the graph.
`BuilderArguments.built_stores` connects a builder with what it builds: the
arguments of the event are those that the setters of the builder were given.
-/

namespace BoundaryEventSdk.Event

open BoundaryEventSdk.Java

/-! ## The history of one event -/

/-- The arguments behind the strings of an event. -/
structure EventArguments where
  fingerprintFields : List (Option JString) := []
  message : Option JString := none
  tags : List (Option JString) := []
  title : Option JString := none
  deriving DecidableEq

namespace EventArguments

variable {S : Type}

/-- The arguments after a call on `event`. -/
def record (arguments : EventArguments) (event : RawEvent S) : RawEvent.Call S → EventArguments
  | .addFingerprintField name =>
    { arguments with fingerprintFields := arguments.fingerprintFields ++ [name] }
  | .removeFingerprintField name =>
    let position := (event.fingerprintFields.getD []).idxOf name
    { arguments with fingerprintFields := arguments.fingerprintFields.eraseIdx position }
  | .setFingerprintFields fields => { arguments with fingerprintFields := fields.getD [] }
  | .setMessage message => { arguments with message := message }
  | .setTags tags => { arguments with tags := tags.getD [] }
  | .addTag tag => { arguments with tags := arguments.tags ++ [tag] }
  | .removeTag tag =>
    let position := (event.tags.getD []).idxOf tag
    { arguments with tags := arguments.tags.eraseIdx position }
  | .setTitle title => { arguments with title := title }
  | _ => arguments

/-- Every string of the event is the truncation of its argument. -/
structure Stores (event : RawEvent S) (arguments : EventArguments) : Prop where
  fingerprintFields :
    List.Forall₂ Fits (event.fingerprintFields.getD []) arguments.fingerprintFields
  message : Fits event.message arguments.message
  tags : List.Forall₂ Fits (event.tags.getD []) arguments.tags
  title : Fits event.title arguments.title

theorem stores_new : Stores (RawEvent.new : RawEvent S) {} :=
  ⟨.nil, .none, .nil, .none⟩

private theorem getD_erase (list : Option (List (Option JString))) (text : Option JString) :
    (list.map fun texts => texts.erase text).getD [] = (list.getD []).erase text := by
  cases list <;> rfl

/-- A call on an event keeps its strings the truncations of their
arguments. -/
theorem record_stores {event : RawEvent S} {arguments : EventArguments} (h : Stores event arguments)
    (call : RawEvent.Call S) :
    Stores (event.apply call).state (arguments.record event call) := by
  cases call with
  | addFingerprintField name =>
    exact { h with
      fingerprintFields := related_alloc h.fingerprintFields (truncateToMaximumLength_fits name) }
  | removeFingerprintField name =>
    refine { h with fingerprintFields := ?_ }
    simp only [RawEvent.apply, RawEvent.removeFingerprintField, getD_erase, record]
    exact related_erase h.fingerprintFields name
  | setFingerprintFields fields =>
    cases fields with
    | none => exact { h with fingerprintFields := .nil }
    | some fields => exact { h with fingerprintFields := truncateList_fits fields }
  | setMessage message => exact { h with message := truncateToMaximumLength_fits message }
  | setTags tags =>
    cases tags with
    | none => exact { h with tags := .nil }
    | some tags => exact { h with tags := truncateList_fits tags }
  | addTag tag => exact { h with tags := related_alloc h.tags (truncateToMaximumLength_fits tag) }
  | removeTag tag =>
    refine { h with tags := ?_ }
    simp only [RawEvent.apply, RawEvent.removeTag, getD_erase, record]
    exact related_erase h.tags tag
  | setTitle title => exact { h with title := truncateToMaximumLength_fits title }
  | setProperties properties => cases properties <;> exact { h with }
  | setSeverityString name =>
    obtain ⟨severity, hstate⟩ := event.setSeverityString_state name
    rw [RawEvent.apply, hstate]
    exact { h with }
  | setStatusString name =>
    obtain ⟨status, hstate⟩ := event.setStatusString_state name
    rw [RawEvent.apply, hstate]
    exact { h with }
  | _ => exact { h with }

/-- The arguments after a list of calls on `event`. -/
def after (arguments : EventArguments) (event : RawEvent S) (calls : List (RawEvent.Call S)) :
    EventArguments :=
  history (fun event call => (event.apply call).state)
    (fun event arguments call => record arguments event call) event arguments calls

/-- A list of calls that starts with the setter for an argument that is not `null`. -/
private theorem after_option {α : Type} (argument : Option α) (setter : α → RawEvent.Call S)
    (set : EventArguments → α → EventArguments)
    (hset : ∀ (event : RawEvent S) arguments value,
      record arguments event (setter value) = set arguments value)
    {calls : List (Option (RawEvent.Call S))} {arguments result : EventArguments}
    (hrest : ∀ event,
      after (argument.elim arguments (set arguments)) event calls.reduceOption = result)
    (event : RawEvent S) :
    after arguments event (argument.map setter :: calls).reduceOption = result := by
  cases argument with
  | none =>
    rw [Option.map_none, List.reduceOption_cons_of_none]
    exact hrest event
  | some value =>
    rw [Option.map_some, List.reduceOption_cons_of_some]
    unfold after history
    rw [hset]
    exact hrest (event.apply (setter value)).state

/-- So it does when the setter stores no string. -/
private theorem after_skip {α : Type} (argument : Option α) (setter : α → RawEvent.Call S)
    (hsetter : ∀ (event : RawEvent S) arguments value,
      record arguments event (setter value) = arguments)
    {calls : List (Option (RawEvent.Call S))} {arguments result : EventArguments}
    (hrest : ∀ event, after arguments event calls.reduceOption = result) (event : RawEvent S) :
    after arguments event (argument.map setter :: calls).reduceOption = result := by
  apply after_option argument setter (fun arguments _ => arguments) hsetter
  have hsame : argument.elim arguments (fun _ => arguments) = arguments := by
    cases argument <;> rfl
  rw [hsame]
  exact hrest

/-- `build` passes on the arguments of the builder. -/
theorem after_buildCalls (builder : RawEventBuilder S) (event : RawEvent S) :
    after {} event builder.buildCalls =
      { fingerprintFields := builder.fingerprintFields.getD []
        message := builder.message
        tags := builder.tags.getD []
        title := builder.title } := by
  unfold RawEventBuilder.buildCalls
  apply after_skip builder.createdAt _ fun _ _ _ => rfl
  apply after_option builder.fingerprintFields _
    (fun arguments fields => { arguments with fingerprintFields := fields }) fun _ _ _ => rfl
  apply after_option builder.message _
    (fun arguments message => { arguments with message := some message }) fun _ _ _ => rfl
  apply after_skip builder.organizationId _ fun _ _ _ => rfl
  apply after_skip builder.properties _ fun _ _ _ => rfl
  apply after_skip builder.receivedAt _ fun _ _ _ => rfl
  apply after_skip builder.sender _ fun _ _ _ => rfl
  apply after_skip builder.severity _ fun _ _ _ => rfl
  apply after_skip builder.source _ fun _ _ _ => rfl
  apply after_skip builder.status _ fun _ _ _ => rfl
  apply after_option builder.tags _
    (fun arguments tags => { arguments with tags := tags }) fun _ _ _ => rfl
  apply after_option builder.title _
    (fun arguments title => { arguments with title := some title }) fun _ _ _ => rfl
  intro event
  show _ = _
  cases builder.fingerprintFields <;> cases builder.message <;> cases builder.tags <;>
    cases builder.title <;> rfl

/-- A list of calls keeps the strings of an event the truncations of their arguments. -/
theorem after_stores {event : RawEvent S} {arguments : EventArguments}
    (h : Stores event arguments) (calls : List (RawEvent.Call S)) :
    Stores (run (fun event call => (event.apply call).state) event calls)
      (after arguments event calls) :=
  run_related Stores (fun _ _ call h => record_stores h call) h calls

end EventArguments

/-! ## The history of one builder -/

/-- The arguments that a builder was given last, `null` where it was given none. -/
structure BuilderArguments where
  fingerprintFields : Option (List (Option JString)) := none
  message : Option JString := none
  tags : Option (List (Option JString)) := none
  title : Option JString := none
  deriving DecidableEq

namespace BuilderArguments

variable {S : Type}

/-- The arguments after a call on a builder. -/
def record (arguments : BuilderArguments) : RawEventBuilder.Call S → BuilderArguments
  | .setFingerprintFields fields => { arguments with fingerprintFields := fields }
  | .setMessage message => { arguments with message := message }
  | .setTags tags => { arguments with tags := tags }
  | .setTitle title => { arguments with title := title }
  | _ => arguments

/-- The arguments of an event that is built: those the builder was given. -/
def built (arguments : BuilderArguments) : EventArguments where
  fingerprintFields := arguments.fingerprintFields.getD []
  message := arguments.message
  tags := arguments.tags.getD []
  title := arguments.title

/-- The builder holds the arguments it was given, as they are. -/
structure Holds (builder : RawEventBuilder S) (arguments : BuilderArguments) : Prop where
  fingerprintFields : builder.fingerprintFields = arguments.fingerprintFields
  message : builder.message = arguments.message
  tags : builder.tags = arguments.tags
  title : builder.title = arguments.title

theorem holds_new : Holds (RawEventBuilder.new : RawEventBuilder S) {} :=
  ⟨rfl, rfl, rfl, rfl⟩

theorem record_holds {builder : RawEventBuilder S} {arguments : BuilderArguments}
    (h : Holds builder arguments) (call : RawEventBuilder.Call S) :
    Holds (builder.apply call) (arguments.record call) := by
  cases call with
  | setFingerprintFields fields => exact { h with fingerprintFields := rfl }
  | setMessage message => exact { h with message := rfl }
  | setTags tags => exact { h with tags := rfl }
  | setTitle title => exact { h with title := rfl }
  | _ => exact { h with }

/-- The strings of an event that is built are the truncations of the arguments that the
builder was given. -/
theorem built_stores {builder : RawEventBuilder S} {arguments : BuilderArguments}
    (h : Holds builder arguments) : EventArguments.Stores builder.build arguments.built := by
  have hrun := EventArguments.after_stores EventArguments.stores_new builder.buildCalls
  rw [EventArguments.after_buildCalls, h.fingerprintFields, h.message, h.tags, h.title] at hrun
  exact hrun

end BuilderArguments

/-! ## The history of one source -/

/-- The arguments behind the strings of a source. -/
structure SourceArguments where
  ref : Option JString := none
  type : Option JString := none
  name : Option JString := none
  deriving DecidableEq

namespace SourceArguments

/-- The arguments after a call on a source. -/
def record (arguments : SourceArguments) : Source.Call → SourceArguments
  | .setRef ref => { arguments with ref := ref }
  | .setType type => { arguments with type := type }
  | .setName name => { arguments with name := name }
  | _ => arguments

/-- Every string of the source is the truncation of its argument. -/
structure Stores (source : Source) (arguments : SourceArguments) : Prop where
  ref : Fits source.ref arguments.ref
  type : Fits source.type arguments.type
  name : Fits source.name arguments.name

theorem stores_new : Stores Source.new {} :=
  ⟨.none, .none, .none⟩

theorem stores_ofRef (ref : Option JString) :
    Stores (Source.ofRef ref) { ref := ref, type := defaultSourceType } :=
  ⟨truncateToMaximumLength_fits ref, truncateToMaximumLength_fits defaultSourceType, .none⟩

theorem stores_ofRefType (ref type : Option JString) :
    Stores (Source.ofRefType ref type) { ref := ref, type := type } :=
  ⟨truncateToMaximumLength_fits ref, truncateToMaximumLength_fits type, .none⟩

theorem stores_ofRefTypeName (ref type name : Option JString) :
    Stores (Source.ofRefTypeName ref type name) { ref := ref, type := type, name := name } :=
  ⟨truncateToMaximumLength_fits ref, truncateToMaximumLength_fits type,
    truncateToMaximumLength_fits name⟩

/-- `setProperties` touches no string field, also where it throws. -/
theorem stores_setProperties {source : Source} {arguments : SourceArguments}
    (h : Stores source arguments) (properties : Option Properties) :
    Stores (source.setProperties properties).state arguments := by
  cases properties <;> exact { h with }

/-- A call on a source keeps its strings the truncations of their arguments. -/
theorem record_stores {source : Source} {arguments : SourceArguments} (h : Stores source arguments)
    (call : Source.Call) : Stores (source.apply call).state (arguments.record call) := by
  cases call with
  | setRef ref => exact { h with ref := truncateToMaximumLength_fits ref }
  | setType type => exact { h with type := truncateToMaximumLength_fits type }
  | setName name => exact { h with name := truncateToMaximumLength_fits name }
  | setProperties properties => exact stores_setProperties h properties
  | getProperties => exact { h with }
  | addProperty key value => exact { h with }

end SourceArguments

/-! ## The history of the object graph -/

/-- The arguments behind the strings of all objects. -/
structure Arguments where
  events : List EventArguments := []
  sources : List SourceArguments := []
  builders : List BuilderArguments := []

namespace Arguments

/-- The arguments of a getter that may create a source. -/
def created (arguments : Arguments) (missing : Bool) : Arguments :=
  if missing then { arguments with sources := arguments.sources ++ [{}] } else arguments

/-- The arguments after one call on `graph`.  A call that the graph ignores, or
a constructor that throws, sets nothing. -/
def record (graph : ObjectGraph) (arguments : Arguments) : ObjectGraph.Call → Arguments
  | .newRawEvent => { arguments with events := arguments.events ++ [{}] }
  | .event ref call =>
    match graph.events[ref]?, arguments.events[ref]? with
    | some event, some old =>
      if graph.ValidEventCall call then
        { arguments with events := arguments.events.set ref (old.record event call) }
      else arguments
    | _, _ => arguments
  | .getSender ref =>
    arguments.created (graph.events[ref]?.any fun event => event.sender.isNone)
  | .getSource ref =>
    arguments.created (graph.events[ref]?.any fun event => event.source.isNone)
  | .newSource => { arguments with sources := arguments.sources ++ [{}] }
  | .newSourceRef ref =>
    { arguments with sources := arguments.sources ++ [{ ref := ref, type := defaultSourceType }] }
  | .newSourceRefType ref type =>
    { arguments with sources := arguments.sources ++ [{ ref := ref, type := type }] }
  | .newSourceRefTypeName ref type name =>
    { arguments with sources := arguments.sources ++ [{ ref := ref, type := type, name := name }] }
  | .newSourceProperties ref type name properties =>
    if properties = none then arguments
    else
      { arguments with
        sources := arguments.sources ++ [{ ref := ref, type := type, name := name }] }
  | .source ref call =>
    match graph.sources[ref]?, arguments.sources[ref]? with
    | some _, some old => { arguments with sources := arguments.sources.set ref (old.record call) }
    | _, _ => arguments
  | .newBuilder => { arguments with builders := arguments.builders ++ [{}] }
  | .builder ref call =>
    match arguments.builders[ref]? with
    | some old =>
      if graph.ValidBuilderCall call then
        { arguments with builders := arguments.builders.set ref (old.record call) }
      else arguments
    | none => arguments
  | .build ref =>
    match arguments.builders[ref]? with
    | some given => { arguments with events := arguments.events ++ [given.built] }
    | none => arguments

/-- The arguments behind the objects after a list of calls. -/
def after (calls : List ObjectGraph.Call) : Arguments :=
  history ObjectGraph.step (fun graph arguments call => record graph arguments call)
    ObjectGraph.initial {} calls

/-- Every string of every event and source is the truncation of its argument, and every
builder holds its arguments. -/
structure Stores (graph : ObjectGraph) (arguments : Arguments) : Prop where
  events : Related EventArguments.Stores graph.events arguments.events
  sources : Related SourceArguments.Stores graph.sources arguments.sources
  builders : Related BuilderArguments.Holds graph.builders arguments.builders

theorem stores_initial : Stores ObjectGraph.initial {} :=
  ⟨.nil, .nil, .nil⟩

/-- A constructor adds the source and its arguments. -/
theorem Stores.addSource {graph : ObjectGraph} {arguments : Arguments} (h : Stores graph arguments)
    {source : Source} {made : SourceArguments} (hs : SourceArguments.Stores source made) :
    Stores { graph with sources := graph.sources ++ [source] }
      { arguments with sources := arguments.sources ++ [made] } :=
  ⟨h.events, related_alloc h.sources hs, h.builders⟩

/-- An event may be overwritten by one with the same strings. -/
theorem Stores.setEvent {graph : ObjectGraph} {arguments : Arguments} (h : Stores graph arguments)
    {ref : Ref} {event event' : RawEvent Ref} (he : graph.events[ref]? = some event)
    (hsame : ∀ old, EventArguments.Stores event old → EventArguments.Stores event' old) :
    Stores { graph with events := graph.events.set ref event' } arguments := by
  obtain ⟨old, hold, hstores⟩ := h.events.lookup he
  refine ⟨related_write_left h.events ?_, h.sources, h.builders⟩
  intro b hb
  rw [hold] at hb
  cases hb
  exact hsame old hstores

/-- A getter that creates a source changes no string of an event. -/
theorem Stores.getSource {graph : ObjectGraph} {arguments : Arguments} (h : Stores graph arguments)
    {ref : Ref} {event : RawEvent Ref} (he : graph.events[ref]? = some event) :
    Stores (graph.getSource ref event) (arguments.created event.source.isNone) := by
  unfold ObjectGraph.getSource created
  by_cases hsource : event.source = none
  · rw [if_pos hsource, if_pos (by simp [hsource])]
    exact (h.addSource SourceArguments.stores_new).setEvent he fun _ hstores => { hstores with }
  · rw [if_neg hsource, if_neg (by simp [hsource])]
    exact h

theorem Stores.getSender {graph : ObjectGraph} {arguments : Arguments} (h : Stores graph arguments)
    {ref : Ref} {event : RawEvent Ref} (he : graph.events[ref]? = some event) :
    Stores (graph.getSender ref event) (arguments.created event.sender.isNone) := by
  unfold ObjectGraph.getSender created
  by_cases hsender : event.sender = none
  · rw [if_pos hsender, if_pos (by simp [hsender])]
    exact (h.addSource SourceArguments.stores_new).setEvent he fun _ hstores => { hstores with }
  · rw [if_neg hsender, if_neg (by simp [hsender])]
    exact h

/-- One call keeps every string the truncation of its argument. -/
theorem record_stores {graph : ObjectGraph} {arguments : Arguments} (h : Stores graph arguments)
    (call : ObjectGraph.Call) : Stores (graph.step call) (arguments.record graph call) := by
  cases call with
  | newRawEvent =>
    exact ⟨related_alloc h.events EventArguments.stores_new, h.sources, h.builders⟩
  | event ref call =>
    cases he : graph.events[ref]? with
    | none => simpa [ObjectGraph.step, record, he] using h
    | some event =>
      obtain ⟨old, hold, hstores⟩ := h.events.lookup he
      simp only [ObjectGraph.step, record, he, hold]
      split
      · exact ⟨related_write h.events (EventArguments.record_stores hstores call) ref, h.sources,
          h.builders⟩
      · exact h
  | getSender ref =>
    cases he : graph.events[ref]? with
    | none => simpa [ObjectGraph.step, record, created, he] using h
    | some event => simpa [ObjectGraph.step, record, he] using h.getSender he
  | getSource ref =>
    cases he : graph.events[ref]? with
    | none => simpa [ObjectGraph.step, record, created, he] using h
    | some event => simpa [ObjectGraph.step, record, he] using h.getSource he
  | newSource => exact h.addSource SourceArguments.stores_new
  | newSourceRef ref => exact h.addSource (SourceArguments.stores_ofRef ref)
  | newSourceRefType ref type => exact h.addSource (SourceArguments.stores_ofRefType ref type)
  | newSourceRefTypeName ref type name =>
    exact h.addSource (SourceArguments.stores_ofRefTypeName ref type name)
  | newSourceProperties ref type name properties =>
    cases properties with
    | none => exact h
    | some properties =>
      exact h.addSource (SourceArguments.stores_setProperties
        (SourceArguments.stores_ofRefTypeName ref type name) (some properties))
  | source ref call =>
    cases hs : graph.sources[ref]? with
    | none => simpa [ObjectGraph.step, record, hs] using h
    | some source =>
      obtain ⟨old, hold, hstores⟩ := h.sources.lookup hs
      simp only [ObjectGraph.step, record, hs, hold]
      exact ⟨h.events, related_write h.sources (SourceArguments.record_stores hstores call) ref,
        h.builders⟩
  | newBuilder =>
    exact ⟨h.events, h.sources, related_alloc h.builders BuilderArguments.holds_new⟩
  | builder ref call =>
    cases hb : graph.builders[ref]? with
    | none =>
      simpa [ObjectGraph.step, record, hb, h.builders.lookup_none hb] using h
    | some builder =>
      obtain ⟨old, hold, hholds⟩ := h.builders.lookup hb
      simp only [ObjectGraph.step, record, hb, hold]
      split
      · exact ⟨h.events, h.sources,
          related_write h.builders (BuilderArguments.record_holds hholds call) ref⟩
      · exact h
  | build ref =>
    cases hb : graph.builders[ref]? with
    | none =>
      simpa [ObjectGraph.step, record, hb, h.builders.lookup_none hb] using h
    | some builder =>
      obtain ⟨given, hgiven, hholds⟩ := h.builders.lookup hb
      simp only [ObjectGraph.step, record, hb, hgiven]
      exact ⟨related_alloc h.events (BuilderArguments.built_stores hholds), h.sources,
        h.builders⟩

theorem stores_after (calls : List ObjectGraph.Call) :
    Stores (ObjectGraph.after calls) (after calls) :=
  run_related Stores (fun _ _ call h => record_stores h call) stores_initial calls

end Arguments

/-- The strings of an event and of its source and sender are truncations of the
arguments that last set or added them. -/
structure EventFits (graph : ObjectGraph) (arguments : Arguments) (event : RawEvent Ref)
    (own : EventArguments) : Prop where
  strings : EventArguments.Stores event own
  sources : ∀ ref, event.source = some ref ∨ event.sender = some ref →
    ∃ source made, graph.sources[ref]? = some source ∧ arguments.sources[ref]? = some made ∧
      SourceArguments.Stores source made

/-- After every run of constructors, setters and builder calls, each event has
its strings, and the strings of its source and sender, within the limit, and
each is a prefix of the argument that last set or added it, the whole argument
where that was within the limit. -/
theorem strings_within_limit (calls : List ObjectGraph.Call) :
    Related (EventFits (ObjectGraph.after calls) (Arguments.after calls))
      (ObjectGraph.after calls).events (Arguments.after calls).events := by
  have hstores := Arguments.stores_after calls
  have hdangling := ObjectGraph.noDangling_after calls
  refine List.forall₂_iff_get.mpr ⟨hstores.events.length_eq, fun i hi hi' => ?_⟩
  refine ⟨hstores.events.get hi hi', fun ref href => ?_⟩
  have hvalid := hdangling.events _ (List.get_mem (ObjectGraph.after calls).events ⟨i, hi⟩)
  have hlt : ref < (ObjectGraph.after calls).sources.length := by
    rcases href with href | href
    · exact hvalid.2 ref href
    · exact hvalid.1 ref href
  have hsource := List.getElem?_eq_getElem hlt
  obtain ⟨made, hmade, hfits⟩ := hstores.sources.lookup hsource
  exact ⟨_, made, hsource, hmade, hfits⟩

end BoundaryEventSdk.Event
