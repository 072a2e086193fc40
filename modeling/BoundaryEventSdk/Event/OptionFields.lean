import BoundaryEventSdk.Event.EventCLI

/-!
# One option for each field

The command line is meant to determine an event option by option: each option
has a field, and the field is what the option says.

`configureEvent_eq_ok` gives the event of a command line in closed form.  It
shows three options without effect (severity, status and tags), one option that
fills two fields (the source fills the sender as well), and one that is never
read (the sender).  `optionByOption_iff` says for which command lines none of
this matters.
-/

namespace BoundaryEventSdk.Event

open BoundaryEventSdk.Java

namespace EventCLI

variable (libraries : Libraries) (cmd : CommandLine)

/-- The source that one to three parts describe: the ref, the type, which is
`host` by default, and the name. -/
def sourceOf : List JString → Option Source
  | [ref] => some ((Source.new.setRef ref).setType (utf16 "host"))
  | [ref, type] => some ((Source.new.setRef ref).setType type)
  | [ref, type, name] => some (((Source.new.setRef ref).setType type).setName name)
  | _ => none

/-- Two parts are one too few for the debug messages. -/
theorem getSourceType_getOptionValues (option : Char) :
    getSourceType (cmd.getOptionValues option) =
      if (cmd option).length = 2 then .error .arrayIndexOutOfBounds
      else .ok (sourceOf (cmd option)) := by
  rw [CommandLine.getOptionValues]
  match cmd option with
  | [] => rfl
  | [_] => rfl
  | [_, _] => rfl
  | [_, _, _] => rfl
  | _ :: _ :: _ :: _ :: rest =>
    rw [if_neg (List.cons_ne_nil _ _), if_neg (by simp)]
    simp [getSourceType, loggedPart, element, sourceOf, pure, Except.pure]

/-! ## The event in closed form -/

/-- The event of the command line, with these dates. -/
def configured (createdAt receivedAt : Option Date) : OwnedEvent where
  createdAt := createdAt
  fingerprintFields :=
    if cmd 'f' = [] then none else some ((cmd 'f').map fun s => some (truncateText s))
  message := truncateToMaximumLength (cmd.getOptionValue 'm')
  organizationId := cmd.getOptionValue 'o'
  properties :=
    if cmd 'p' = [] then none
    else some (LinkedHashMap.empty.put (some []) (some (.string [])))
  receivedAt := receivedAt
  sender := sourceOf (cmd 'u')
  source := sourceOf (cmd 'u')
  title := truncateToMaximumLength (cmd.getOptionValue 'n')

theorem foldl_addFingerprintField (fields : List JString) (event : OwnedEvent) :
    (fields.foldl (fun event s => event.addFingerprintField (some s)) event) =
      if fields = [] then event
      else { event with
        fingerprintFields := some (event.fingerprintFields.getD [] ++
          fields.map fun s => some (truncateText s)) } := by
  induction fields generalizing event with
  | nil => rfl
  | cons s fields ih =>
    rw [List.foldl_cons, ih, if_neg (List.cons_ne_nil s fields)]
    cases fields with
    | nil => rfl
    | cons next fields =>
      rw [if_neg (List.cons_ne_nil next fields)]
      simp [RawEvent.addFingerprintField, truncateToMaximumLength]

theorem extractFingerprintFields_eq {event : OwnedEvent} (h : event.fingerprintFields = none) :
    extractFingerprintFields cmd event =
      { event with
        fingerprintFields :=
          if cmd 'f' = [] then none else some ((cmd 'f').map fun s => some (truncateText s)) } := by
  rw [extractFingerprintFields, CommandLine.getOptionValues, optionFingerprintFields]
  by_cases hf : cmd 'f' = []
  · simp only [hf, if_true]
    rw [← h]
  · simp only [hf, if_false]
    rw [foldl_addFingerprintField, if_neg hf, h]
    rfl

theorem extractOrganizationId_eq {event : OwnedEvent} (h : event.organizationId = none) :
    extractOrganizationId cmd event =
      { event with organizationId := cmd.getOptionValue 'o' } := by
  rw [extractOrganizationId, optionOrgId]
  cases cmd.getOptionValue 'o' with
  | none =>
    show event = { event with organizationId := none }
    rw [← h]
  | some orgId => rfl

theorem extractMessage_eq {event : OwnedEvent} (h : event.message = none) :
    extractMessage cmd event =
      { event with message := truncateToMaximumLength (cmd.getOptionValue 'm') } := by
  rw [extractMessage]
  cases cmd.getOptionValue 'm' with
  | none =>
    show event = { event with message := none }
    rw [← h]
  | some message => rfl

theorem extractProperties_eq {event : OwnedEvent} (h : event.properties = none) :
    extractProperties cmd event =
      { event with
        properties :=
          if cmd 'p' = [] then none
          else some (LinkedHashMap.empty.put (some []) (some (.string []))) } := by
  rw [extractProperties, CommandLine.getOptionValues]
  by_cases hp : cmd 'p' = []
  · simp only [hp, if_true]
    rw [← h]
  · simp only [hp, if_false]
    rw [RawEvent.addProperty, h]
    rfl

theorem extractTitle_eq {event : OwnedEvent} (h : event.title = none) :
    extractTitle cmd event =
      { event with title := truncateToMaximumLength (cmd.getOptionValue 'n') } := by
  rw [extractTitle]
  cases cmd.getOptionValue 'n' with
  | none =>
    show event = { event with title := none }
    rw [← h]
  | some title => rfl

/-- The option of the source, when its value goes to a field that is unset. -/
theorem bind_getSourceType_eq {event : OwnedEvent}
    (update : OwnedEvent → Option Source → OwnedEvent) (h : update event none = event)
    {extract : Option Source → Except Throwable OwnedEvent}
    (hnone : extract none = .ok event)
    (hsome : ∀ source, extract (some source) = .ok (update event (some source))) :
    (getSourceType (cmd.getOptionValues 'u') >>= extract) =
      if (cmd 'u').length = 2 then .error .arrayIndexOutOfBounds
      else .ok (update event (sourceOf (cmd 'u'))) := by
  rw [getSourceType_getOptionValues]
  by_cases hu : (cmd 'u').length = 2
  · rw [if_pos hu, if_pos hu]
    rfl
  · rw [if_neg hu, if_neg hu, ok_bind]
    cases sourceOf (cmd 'u') with
    | none => rw [hnone, h]
    | some source => exact hsome source

/-- The two methods that read the option of the source. -/
theorem extractSource_eq {event : OwnedEvent} (h : event.source = none) :
    extractSource cmd event =
      if (cmd 'u').length = 2 then .error .arrayIndexOutOfBounds
      else .ok { event with source := sourceOf (cmd 'u') } :=
  bind_getSourceType_eq cmd (fun event source => { event with source := source })
    (by rw [← h]) rfl fun _ => rfl

theorem extractSender_eq {event : OwnedEvent} (h : event.sender = none) :
    extractSender cmd event =
      if (cmd 'u').length = 2 then .error .arrayIndexOutOfBounds
      else .ok { event with sender := sourceOf (cmd 'u') } :=
  bind_getSourceType_eq cmd (fun event sender => { event with sender := sender })
    (by rw [← h]) rfl fun _ => rfl

/-- The event before the first access to the option of the source. -/
def beforeSender (createdAt receivedAt : Option Date) : OwnedEvent :=
  RawEvent.setReceivedAt (extractMessage cmd (extractOrganizationId cmd
    (extractFingerprintFields cmd (RawEvent.new.setCreatedAt createdAt)))) receivedAt

theorem beforeSender_eq (createdAt receivedAt : Option Date) :
    beforeSender cmd createdAt receivedAt =
      { configured cmd createdAt receivedAt with
        properties := none, sender := none, source := none, title := none } := by
  rw [beforeSender, extractFingerprintFields_eq cmd rfl, extractOrganizationId_eq cmd rfl,
    extractMessage_eq cmd rfl]
  rfl

/-- The event of a command line whose dates can be read. -/
theorem configureEvent_of_dates {createdAt receivedAt : Option Date}
    (hcreated : parseDateTime libraries (libraries.getValue (cmd 'z')) = .ok createdAt)
    (hreceived : parseDateTime libraries (libraries.getValue (cmd 'r')) = .ok receivedAt) :
    configureEvent libraries cmd =
      if (cmd 'u').length = 2 then .error .arrayIndexOutOfBounds
      else .ok (configured cmd createdAt receivedAt) := by
  rw [configureEvent, extractCreatedAt, optionCreatedAt, hcreated]
  simp only [ok_bind, pure, Except.pure, extractReceivedAt, optionReceivedAt, hreceived]
  rw [← beforeSender, beforeSender_eq, extractSender_eq cmd rfl]
  by_cases hu : (cmd 'u').length = 2
  · rw [if_pos hu, if_pos hu]
    rfl
  · rw [if_neg hu, if_neg hu, ok_bind]
    simp only [extractSeverity, extractStatus, extractTags]
    rw [extractSource_eq cmd rfl, if_neg hu, ok_bind, extractProperties_eq cmd rfl,
      extractTitle_eq cmd rfl]
    rfl

theorem configureEvent_eq_ok {event : OwnedEvent} :
    configureEvent libraries cmd = .ok event ↔
      ∃ createdAt receivedAt,
        parseDateTime libraries (libraries.getValue (cmd 'z')) = .ok createdAt ∧
          parseDateTime libraries (libraries.getValue (cmd 'r')) = .ok receivedAt ∧
            (cmd 'u').length ≠ 2 ∧ configured cmd createdAt receivedAt = event := by
  constructor
  · intro h
    cases hcreated : parseDateTime libraries (libraries.getValue (cmd 'z')) with
    | error e =>
      rw [configureEvent, extractCreatedAt, optionCreatedAt, hcreated] at h
      cases h
    | ok createdAt =>
      cases hreceived : parseDateTime libraries (libraries.getValue (cmd 'r')) with
      | error e =>
        rw [configureEvent, extractCreatedAt, optionCreatedAt, hcreated] at h
        simp only [ok_bind, pure, Except.pure, extractReceivedAt, optionReceivedAt, hreceived,
          error_bind, reduceCtorEq] at h
      | ok receivedAt =>
        rw [configureEvent_of_dates libraries cmd hcreated hreceived] at h
        split at h
        · cases h
        · rename_i hu
          exact ⟨createdAt, receivedAt, rfl, rfl, hu, Except.ok.inj h⟩
  · intro h
    obtain ⟨createdAt, receivedAt, hcreated, hreceived, hu, rfl⟩ := h
    rw [configureEvent_of_dates libraries cmd hcreated hreceived, if_neg hu]

/-! ## What the options are meant to say -/

/-- Source and sender are given in one to three parts, if at all. -/
structure PartsGiven : Prop where
  source : (cmd optionSource).length ≤ 3
  sender : (cmd optionSender).length ≤ 3

/-- The severity that the option names. -/
def severityOf (values : List JString) : Option Severity :=
  values.head?.bind fun name => (Severity.valueOf (some name)).toOption

/-- The status that the option names. -/
def statusOf (values : List JString) : Option Status :=
  values.head?.bind fun name => (Status.valueOf (some name)).toOption

/-- The tags that the option gives. -/
def tagsOf (values : List JString) : Option (List (Option JString)) :=
  if values = [] then none else some (values.map fun tag => some (truncateText tag))

/-- The event is what the options say: source, sender, severity, status and tags
in full, and of each other field that it is unset without its option. -/
structure Described (event : OwnedEvent) : Prop where
  source : (cmd optionSource).length ≤ 3 → event.source = sourceOf (cmd optionSource)
  sender : (cmd optionSender).length ≤ 3 → event.sender = sourceOf (cmd optionSender)
  severity : event.severity = severityOf (cmd optionSeverity)
  status : event.status = statusOf (cmd optionStatus)
  tags : event.tags = tagsOf (cmd optionTags)
  createdAt : cmd optionCreatedAt = [] → event.createdAt = none
  receivedAt : cmd optionReceivedAt = [] → event.receivedAt = none
  fingerprintFields : cmd optionFingerprintFields = [] → event.fingerprintFields = none
  organizationId : cmd optionOrgId = [] → event.organizationId = none
  message : cmd optionMessage = [] → event.message = none
  properties : cmd optionProperties = [] → event.properties = none
  title : cmd optionTitle = [] → event.title = none

/-- Two events that agree in each field but the one of the option. -/
structure AgreeApartFrom (option : Char) (event other : OwnedEvent) : Prop where
  createdAt : option ≠ optionCreatedAt → event.createdAt = other.createdAt
  fingerprintFields :
    option ≠ optionFingerprintFields → event.fingerprintFields = other.fingerprintFields
  message : option ≠ optionMessage → event.message = other.message
  organizationId : option ≠ optionOrgId → event.organizationId = other.organizationId
  properties : option ≠ optionProperties → event.properties = other.properties
  receivedAt : option ≠ optionReceivedAt → event.receivedAt = other.receivedAt
  sender : option ≠ optionSender → event.sender = other.sender
  severity : option ≠ optionSeverity → event.severity = other.severity
  source : option ≠ optionSource → event.source = other.source
  status : option ≠ optionStatus → event.status = other.status
  tags : option ≠ optionTags → event.tags = other.tags
  title : option ≠ optionTitle → event.title = other.title

/-- The command line makes an event, and it is what the options say. -/
def MeansItsOptions : Prop :=
  ∃ event, configureEvent libraries cmd = .ok event ∧ Described cmd event

/-- Command lines that differ in the values of one option make events that
differ in its field only. -/
def ChangesOneField (other : CommandLine) : Prop :=
  ∀ option, (∀ option', option' ≠ option → cmd option' = other option') →
    ∀ event event', configureEvent libraries cmd = .ok event →
      configureEvent libraries other = .ok event' → AgreeApartFrom option event event'

/-- What the command line owes to the code: the dates can be read, the source
has not two parts, the sender is the source, and the other options that the code
ignores say nothing. -/
structure Harmless : Prop where
  createdAt : ∀ text ∈ libraries.getValue (cmd optionCreatedAt),
    ∃ date, libraries.parseDateTime text = .ok date
  receivedAt : ∀ text ∈ libraries.getValue (cmd optionReceivedAt),
    ∃ date, libraries.parseDateTime text = .ok date
  source : (cmd optionSource).length ≠ 2
  sender : sourceOf (cmd optionSender) = sourceOf (cmd optionSource)
  severity : severityOf (cmd optionSeverity) = none
  status : statusOf (cmd optionStatus) = none
  tags : cmd optionTags = []

variable {libraries cmd}

theorem parseDateTime_ok_iff {s : Option JString} :
    (∃ date, parseDateTime libraries s = .ok date) ↔
      ∀ text ∈ s, ∃ date, libraries.parseDateTime text = .ok date := by
  cases s with
  | none => simp [parseDateTime]
  | some text =>
    cases hdate : libraries.parseDateTime text with
    | error e => simp [parseDateTime, hdate, Except.map]
    | ok date => simp [parseDateTime, hdate, Except.map]

theorem harmless_of_meansItsOptions (hparts : PartsGiven cmd)
    (h : MeansItsOptions libraries cmd) : Harmless libraries cmd := by
  obtain ⟨event, hevent, hdescribed⟩ := h
  obtain ⟨createdAt, receivedAt, hcreated, hreceived, hu, rfl⟩ :=
    (configureEvent_eq_ok libraries cmd).mp hevent
  constructor
  · exact parseDateTime_ok_iff.mp ⟨createdAt, hcreated⟩
  · exact parseDateTime_ok_iff.mp ⟨receivedAt, hreceived⟩
  · exact hu
  · exact (hdescribed.sender hparts.sender).symm
  · exact hdescribed.severity.symm
  · exact hdescribed.status.symm
  · by_contra ht
    have htags := hdescribed.tags
    rw [tagsOf, if_neg ht] at htags
    cases htags

theorem meansItsOptions_of_harmless (hvalue : libraries.getValue [] = none)
    (h : Harmless libraries cmd) : MeansItsOptions libraries cmd := by
  obtain ⟨createdAt, hcreated⟩ := parseDateTime_ok_iff.mpr h.createdAt
  obtain ⟨receivedAt, hreceived⟩ := parseDateTime_ok_iff.mpr h.receivedAt
  have habsent : ∀ {option : Char} {date : Option Date}, cmd option = [] →
      parseDateTime libraries (libraries.getValue (cmd option)) = .ok date → date = none := by
    intro option date hoption hdate
    rw [hoption, hvalue] at hdate
    exact (Except.ok.inj hdate).symm
  refine ⟨configured cmd createdAt receivedAt, (configureEvent_eq_ok libraries cmd).mpr
    ⟨createdAt, receivedAt, hcreated, hreceived, h.source, rfl⟩, ?_⟩
  constructor
  · exact fun _ => rfl
  · exact fun _ => h.sender.symm
  · exact h.severity.symm
  · exact h.status.symm
  · rw [h.tags]
    rfl
  · exact fun hoption => habsent hoption hcreated
  · exact fun hoption => habsent hoption hreceived
  · exact fun hoption => if_pos hoption
  · intro hoption
    show (cmd optionOrgId).head? = none
    rw [hoption]
    rfl
  · intro hoption
    show truncateToMaximumLength (cmd optionMessage).head? = none
    rw [hoption]
    rfl
  · exact fun hoption => if_pos hoption
  · intro hoption
    show truncateToMaximumLength (cmd optionTitle).head? = none
    rw [hoption]
    rfl

/-- Where the sender is the source, every field depends on its own option. -/
theorem changesOneField_of_harmless {other : CommandLine} (h : Harmless libraries cmd)
    (hother : Harmless libraries other) : ChangesOneField libraries cmd other := by
  intro option hsame event event' hevent hevent'
  obtain ⟨createdAt, receivedAt, hcreated, hreceived, _, rfl⟩ :=
    (configureEvent_eq_ok libraries cmd).mp hevent
  obtain ⟨createdAt', receivedAt', hcreated', hreceived', _, rfl⟩ :=
    (configureEvent_eq_ok libraries other).mp hevent'
  constructor
  · intro hoption
    rw [hsame 'z' hoption.symm, hcreated'] at hcreated
    exact (Except.ok.inj hcreated).symm
  · intro hoption
    show (if cmd 'f' = [] then none else _) = if other 'f' = [] then none else _
    rw [hsame 'f' hoption.symm]
  · intro hoption
    show truncateToMaximumLength (cmd 'm').head? = truncateToMaximumLength (other 'm').head?
    rw [hsame 'm' hoption.symm]
  · intro hoption
    show (cmd 'o').head? = (other 'o').head?
    rw [hsame 'o' hoption.symm]
  · intro hoption
    show (if cmd 'p' = [] then none else _) = if other 'p' = [] then none else _
    rw [hsame 'p' hoption.symm]
  · intro hoption
    rw [hsame 'r' hoption.symm, hreceived'] at hreceived
    exact (Except.ok.inj hreceived).symm
  · intro hoption
    show sourceOf (cmd optionSource) = sourceOf (other optionSource)
    rw [← h.sender, ← hother.sender, hsame optionSender hoption.symm]
  · exact fun _ => rfl
  · intro hoption
    show sourceOf (cmd optionSource) = sourceOf (other optionSource)
    rw [hsame optionSource hoption.symm]
  · exact fun _ => rfl
  · exact fun _ => rfl
  · intro hoption
    show truncateToMaximumLength (cmd 'n').head? = truncateToMaximumLength (other 'n').head?
    rw [hsame 'n' hoption.symm]

/-- Two command lines determine their events option by option exactly when both
are harmless. -/
theorem optionByOption_iff (libraries : Libraries) (cmd other : CommandLine)
    (hvalue : libraries.getValue [] = none) (hparts : PartsGiven cmd)
    (hparts' : PartsGiven other) :
    MeansItsOptions libraries cmd ∧ MeansItsOptions libraries other ∧
        ChangesOneField libraries cmd other ↔
      Harmless libraries cmd ∧ Harmless libraries other := by
  constructor
  · intro h
    exact ⟨harmless_of_meansItsOptions hparts h.1, harmless_of_meansItsOptions hparts' h.2.1⟩
  · intro h
    exact ⟨meansItsOptions_of_harmless hvalue h.1, meansItsOptions_of_harmless hvalue h.2,
      changesOneField_of_harmless h.1 h.2⟩

/-! ## Some command lines -/

/-- An option returns its first value, and no date is given below. -/
def firstValue : Libraries where
  getValue := List.head?
  parseDateTime _ := .error .illegalArgument

/-- A command line with a fingerprint field, this title and these options. -/
def titled (title : String) (options : List (Char × List JString)) : CommandLine :=
  fun option => ((('f', [utf16 "@title"]) :: ('n', [utf16 title]) :: options).lookup option).getD []

/-- The host as source and sender, with any title. -/
theorem harmless_localhost (title : String) :
    Harmless firstValue
      (titled title [('u', [utf16 "localhost"]), ('x', [utf16 "localhost", utf16 "host"])]) where
  createdAt := by simp [firstValue, titled, optionCreatedAt, List.lookup_cons]
  receivedAt := by simp [firstValue, titled, optionReceivedAt, List.lookup_cons]
  source := by simp [titled, optionSource, List.lookup_cons]
  sender := rfl
  severity := rfl
  status := rfl
  tags := rfl

theorem optionByOption_localhost :
    MeansItsOptions firstValue
        (titled "HELLO" [('u', [utf16 "localhost"]), ('x', [utf16 "localhost", utf16 "host"])]) ∧
      MeansItsOptions firstValue
        (titled "Hello" [('u', [utf16 "localhost"]), ('x', [utf16 "localhost", utf16 "host"])]) ∧
      ChangesOneField firstValue
        (titled "HELLO" [('u', [utf16 "localhost"]), ('x', [utf16 "localhost", utf16 "host"])])
        (titled "Hello" [('u', [utf16 "localhost"]), ('x', [utf16 "localhost", utf16 "host"])]) :=
  (optionByOption_iff firstValue
    (titled "HELLO" [('u', [utf16 "localhost"]), ('x', [utf16 "localhost", utf16 "host"])])
    (titled "Hello" [('u', [utf16 "localhost"]), ('x', [utf16 "localhost", utf16 "host"])])
    rfl ⟨by decide, by decide⟩ ⟨by decide, by decide⟩).mpr
      ⟨harmless_localhost "HELLO", harmless_localhost "Hello"⟩

/-- A source of two parts throws, and a severity is ignored. -/
theorem not_meansItsOptions :
    PartsGiven (titled "HELLO" [('u', [utf16 "web1", utf16 "server"])]) ∧
      ¬ MeansItsOptions firstValue (titled "HELLO" [('u', [utf16 "web1", utf16 "server"])]) ∧
      PartsGiven (titled "HELLO" [('u', [utf16 "web1"]), ('y', [utf16 "CRITICAL"])]) ∧
      ¬ MeansItsOptions firstValue
        (titled "HELLO" [('u', [utf16 "web1"]), ('y', [utf16 "CRITICAL"])]) := by
  have htwo : PartsGiven (titled "HELLO" [('u', [utf16 "web1", utf16 "server"])]) :=
    ⟨by decide, by decide⟩
  have hsevere : PartsGiven (titled "HELLO" [('u', [utf16 "web1"]), ('y', [utf16 "CRITICAL"])]) :=
    ⟨by decide, by decide⟩
  refine ⟨htwo, fun h => ?_, hsevere, fun h => ?_⟩
  · exact absurd rfl (harmless_of_meansItsOptions htwo h).source
  · exact absurd (harmless_of_meansItsOptions hsevere h).severity (by decide +kernel)

end EventCLI

end BoundaryEventSdk.Event
