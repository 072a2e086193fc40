import BoundaryEventSdk.Event.ObjectMethods

/-!
# Reading an event

Seven getters of an event store the default that they return when they find
`null`.  `equals` and `hashCode` tell the default from `null`, and the JSON
serialisation writes a default severity, status, source or sender and skips a
field that is `null`.  So a client that looks at an event can change what is
sent, although the class comment says that the lazy initialisation is there to
keep unspecified fields out of the JSON.

A read never makes a field `null` and never overwrites one that is not.
`reads_preserve_iff` follows from these two facts: the reads preserve the event
exactly when each field that they could initialise is not `null`.
-/

namespace BoundaryEventSdk.Event

open BoundaryEventSdk.Java

namespace RawEvent

/-- `RawEvent.getSender`. -/
def getSender (event : OwnedEvent) : Source × OwnedEvent :=
  let sender := event.sender.getD Source.new
  (sender, { event with sender := some sender })

/-- `RawEvent.getSource`. -/
def getSource (event : OwnedEvent) : Source × OwnedEvent :=
  let source := event.source.getD Source.new
  (source, { event with source := some source })

/-- The calls that read an event. -/
inductive Read where
  | getCreatedAt
  | getFingerprintFields
  | getMessage
  | getOrganizationId
  | getProperties
  | getReceivedAt
  | getSender
  | getSeverity
  | getSource
  | getStatus
  | getTags
  | getTitle
  | toString
  | equals (other : OwnedEvent)
  | hashCode
  deriving DecidableEq

/-- The event after a read. -/
def read (event : OwnedEvent) : Read → OwnedEvent
  | .getFingerprintFields => event.getFingerprintFields.2
  | .getProperties => event.getProperties.2
  | .getSender => event.getSender.2
  | .getSeverity => event.getSeverity.2
  | .getSource => event.getSource.2
  | .getStatus => event.getStatus.2
  | .getTags => event.getTags.2
  | _ => event

/-- The fields that the serialisation writes: not `null`, and not an empty
string or collection.  Whether a date counts as empty is up to the
serialiser. -/
def writtenFields (emptyDate : Date → Bool) (event : OwnedEvent) : List String :=
  [("createdAt", event.createdAt.any fun date => !emptyDate date),
    ("fingerprintFields", event.fingerprintFields.any fun fields => !fields.isEmpty),
    ("message", event.message.any fun text => !text.isEmpty),
    ("organizationId", event.organizationId.any fun text => !text.isEmpty),
    ("properties", event.properties.any fun properties => !properties.entries.isEmpty),
    ("receivedAt", event.receivedAt.any fun date => !emptyDate date),
    ("sender", event.sender.isSome),
    ("severity", event.severity.isSome),
    ("source", event.source.isSome),
    ("status", event.status.isSome),
    ("tags", event.tags.any fun tags => !tags.isEmpty),
    ("title", event.title.any fun text => !text.isEmpty)].filterMap fun field =>
      if field.2 then some field.1 else none

/-- Nobody can tell the event from a copy that was taken before. -/
structure Preserved (hashes : HashCodes) (emptyDate : Date → Bool) (before after : OwnedEvent) :
    Prop where
  equals_copy : after.equals before = true
  copy_equals : before.equals after = true
  hashCode_eq : after.hashCode hashes = before.hashCode hashes
  written_eq : after.writtenFields emptyDate = before.writtenFields emptyDate

theorem preserved_refl (hashes : HashCodes) (emptyDate : Date → Bool) (event : OwnedEvent) :
    Preserved hashes emptyDate event event where
  equals_copy := event.equals_refl
  copy_equals := event.equals_refl
  hashCode_eq := rfl
  written_eq := rfl

/-- The field that the read could initialise is not `null`. -/
def Read.FieldSet (event : OwnedEvent) : Read → Prop
  | .getFingerprintFields => event.fingerprintFields.isSome = true
  | .getProperties => event.properties.isSome = true
  | .getSender => event.sender.isSome = true
  | .getSeverity => event.severity.isSome = true
  | .getSource => event.source.isSome = true
  | .getStatus => event.status.isSome = true
  | .getTags => event.tags.isSome = true
  | _ => True

/-! ## What reads do to the fields -/

/-- After a read its field is not `null`. -/
theorem fieldSet_read (event : OwnedEvent) (read : Read) : read.FieldSet (event.read read) := by
  cases read with
  | getFingerprintFields => rfl
  | getProperties => rfl
  | getSender => rfl
  | getSeverity => rfl
  | getSource => rfl
  | getStatus => rfl
  | getTags => rfl
  | _ => exact trivial

/-- A read leaves no field `null` that was not. -/
theorem fieldSet_mono {event : OwnedEvent} {read : Read} (h : read.FieldSet event) (next : Read) :
    read.FieldSet (event.read next) := by
  cases next with
  | getFingerprintFields => cases read <;> first | exact h | rfl
  | getProperties => cases read <;> first | exact h | rfl
  | getSender => cases read <;> first | exact h | rfl
  | getSeverity => cases read <;> first | exact h | rfl
  | getSource => cases read <;> first | exact h | rfl
  | getStatus => cases read <;> first | exact h | rfl
  | getTags => cases read <;> first | exact h | rfl
  | _ => exact h

/-- A lazy initialisation of a field that is not `null` changes nothing. -/
theorem initialise_eq_self {σ υ : Type} (field : σ → Option υ) (update : σ → Option υ → σ)
    (hself : ∀ s, update s (field s) = s) {s : σ} {default : υ} (h : (field s).isSome = true) :
    update s (some ((field s).getD default)) = s := by
  obtain ⟨value, hvalue⟩ := Option.isSome_iff_exists.mp h
  rw [hvalue, Option.getD_some, ← hvalue]
  exact hself s

/-- A read of a field that is not `null` changes nothing. -/
theorem read_eq_self {event : OwnedEvent} {read : Read} (h : read.FieldSet event) :
    event.read read = event := by
  cases read with
  | getFingerprintFields =>
    exact initialise_eq_self (fun event : OwnedEvent => event.fingerprintFields)
      (fun event value => { event with fingerprintFields := value }) (fun _ => rfl) h
  | getProperties =>
    exact initialise_eq_self (fun event : OwnedEvent => event.properties)
      (fun event value => { event with properties := value }) (fun _ => rfl) h
  | getSender =>
    exact initialise_eq_self (fun event : OwnedEvent => event.sender)
      (fun event value => { event with sender := value }) (fun _ => rfl) h
  | getSeverity =>
    exact initialise_eq_self (fun event : OwnedEvent => event.severity)
      (fun event value => { event with severity := value }) (fun _ => rfl) h
  | getSource =>
    exact initialise_eq_self (fun event : OwnedEvent => event.source)
      (fun event value => { event with source := value }) (fun _ => rfl) h
  | getStatus =>
    exact initialise_eq_self (fun event : OwnedEvent => event.status)
      (fun event value => { event with status := value }) (fun _ => rfl) h
  | getTags =>
    exact initialise_eq_self (fun event : OwnedEvent => event.tags)
      (fun event value => { event with tags := value }) (fun _ => rfl) h
  | _ => rfl

/-- Equal events have the same fields `null`. -/
theorem fieldSet_of_equals {event other : OwnedEvent} (h : event.equals other = true)
    {read : Read} (hset : read.FieldSet event) : read.FieldSet other := by
  simp only [equals, Bool.and_eq_true, beq_iff_eq] at h
  obtain ⟨⟨⟨⟨⟨⟨⟨⟨⟨⟨⟨_, hfields⟩, _⟩, _⟩, hproperties⟩, _⟩, hsender⟩, hseverity⟩, hsource⟩,
    hstatus⟩, htags⟩, _⟩ := h
  cases read with
  | getFingerprintFields => exact (isSome_eq_of_fieldEquals hfields).symm.trans hset
  | getProperties => exact (isSome_eq_of_fieldEquals hproperties).symm.trans hset
  | getSender => exact (isSome_eq_of_fieldEquals hsender).symm.trans hset
  | getSeverity => exact (congrArg Option.isSome hseverity).symm.trans hset
  | getSource => exact (isSome_eq_of_fieldEquals hsource).symm.trans hset
  | getStatus => exact (congrArg Option.isSome hstatus).symm.trans hset
  | getTags => exact (isSome_eq_of_fieldEquals htags).symm.trans hset
  | _ => exact trivial

/-! ## A sequence of reads -/

/-- The fields that a sequence of reads asks for are set at its end. -/
theorem fieldSet_run {event : OwnedEvent} {reads : List Read} {next : Read} (h : next ∈ reads) :
    next.FieldSet (run RawEvent.read event reads) := by
  induction reads using List.reverseRecOn with
  | nil => cases h
  | append_singleton reads last ih =>
    rw [run_concat]
    rcases List.mem_append.mp h with hfront | hlast
    · exact fieldSet_mono (ih hfront) last
    · rw [List.mem_singleton.mp hlast]
      exact fieldSet_read _ last

theorem run_eq_self {event : OwnedEvent} {reads : List Read}
    (h : ∀ read ∈ reads, read.FieldSet event) : run RawEvent.read event reads = event :=
  run_invariant (fun state => state = event) (fun read => read.FieldSet event)
    (fun state read hstate hread => by rw [hstate, read_eq_self hread]) rfl h

/-- Reads preserve the event exactly when no field that they could initialise is
`null`. -/
theorem reads_preserve_iff (hashes : HashCodes) (emptyDate : Date → Bool) (event : OwnedEvent)
    (reads : List Read) :
    Preserved hashes emptyDate event (run RawEvent.read event reads) ↔
      ∀ read ∈ reads, read.FieldSet event := by
  constructor
  · intro hpreserved read hread
    exact fieldSet_of_equals hpreserved.equals_copy (fieldSet_run hread)
  · intro hset
    rw [run_eq_self hset]
    exact preserved_refl hashes emptyDate event

/-- A look at the severity of a new event changes the event and its JSON. -/
theorem not_preserved_getSeverity :
    (¬ ∃ hashes emptyDate, Preserved hashes emptyDate RawEvent.new
        (run RawEvent.read RawEvent.new [.getSeverity])) ∧
      (RawEvent.new : OwnedEvent).writtenFields (fun _ => false) = [] ∧
      (run RawEvent.read RawEvent.new [.getSeverity]).writtenFields (fun _ => false) =
        ["severity"] := by
  refine ⟨?_, by decide, by decide⟩
  intro hpreserved
  obtain ⟨_, _, hpreserved⟩ := hpreserved
  exact absurd hpreserved.equals_copy (by decide)

/-! ## What reads do to the JSON

An empty collection is skipped like `null`, so of the seven getters only four
show. -/

/-- The field of a read whose default is written to the JSON. -/
def Read.shownField : Read → Option String
  | .getSender => some "sender"
  | .getSeverity => some "severity"
  | .getSource => some "source"
  | .getStatus => some "status"
  | _ => none

variable {emptyDate : Date → Bool}

theorem writtenFields_read {event : OwnedEvent} {read : Read}
    (h : read.shownField.isSome = true → read.FieldSet event) :
    (event.read read).writtenFields emptyDate = event.writtenFields emptyDate := by
  cases read with
  | getFingerprintFields =>
    cases hfields : event.fingerprintFields <;>
      simp [RawEvent.read, RawEvent.getFingerprintFields, writtenFields, hfields]
  | getProperties =>
    cases hproperties : event.properties <;>
      simp [RawEvent.read, RawEvent.getProperties, writtenFields, hproperties]
  | getTags =>
    cases htags : event.tags <;>
      simp [RawEvent.read, RawEvent.getTags, writtenFields, htags]
  | getSender => rw [read_eq_self (h rfl)]
  | getSeverity => rw [read_eq_self (h rfl)]
  | getSource => rw [read_eq_self (h rfl)]
  | getStatus => rw [read_eq_self (h rfl)]
  | _ => rfl

theorem mem_writtenFields_iff (event : OwnedEvent) {read : Read} {name : String}
    (hname : read.shownField = some name) :
    name ∈ event.writtenFields emptyDate ↔ read.FieldSet event := by
  cases read with
  | getSender =>
    cases hname
    simp [writtenFields, Read.FieldSet]
  | getSeverity =>
    cases hname
    simp [writtenFields, Read.FieldSet]
  | getSource =>
    cases hname
    simp [writtenFields, Read.FieldSet]
  | getStatus =>
    cases hname
    simp [writtenFields, Read.FieldSet]
  | _ => cases hname

/-- Reads leave the JSON fields alone exactly when no severity, status, source
or sender that they ask for is `null`. -/
theorem writtenFields_run_iff (event : OwnedEvent) (reads : List Read) :
    (run RawEvent.read event reads).writtenFields emptyDate = event.writtenFields emptyDate ↔
      ∀ read ∈ reads, read.shownField.isSome = true → read.FieldSet event := by
  constructor
  · intro hwritten read hread hshown
    obtain ⟨name, hname⟩ := Option.isSome_iff_exists.mp hshown
    rw [← mem_writtenFields_iff event hname, ← hwritten, mem_writtenFields_iff _ hname]
    exact fieldSet_run hread
  · intro hset
    induction reads generalizing event with
    | nil => rfl
    | cons read reads ih =>
      rw [run_cons, ih (event.read read), writtenFields_read (hset read List.mem_cons_self)]
      intro next hnext hshown
      exact fieldSet_mono (hset next (List.mem_cons_of_mem read hnext) hshown) read

end RawEvent

end BoundaryEventSdk.Event
