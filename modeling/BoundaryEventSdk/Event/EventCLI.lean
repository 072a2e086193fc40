import BoundaryEventSdk.Event.ObjectMethods

/-!
# `EventCLI`: an event from the command line

The event command-line interface parses its arguments with commons-cli and
fills a new event from the options, one method for each field.

A parsed command line gives each option the list of its values, which is empty
for an option that is absent.  Two methods do not ask the command line but the
`Option` object that they registered with the parser.  What such an object
returns for the values of its option is up to the library, and which texts are
dates is up to `DatatypeConverter`, so both are parameters.
-/

namespace BoundaryEventSdk.Event

open BoundaryEventSdk.Java

/-- A parsed command line: the values of each option. -/
abbrev CommandLine := Char → List JString

/-- `CommandLine.getOptionValues`. -/
def CommandLine.getOptionValues (cmd : CommandLine) (option : Char) : Option (List JString) :=
  if cmd option = [] then none else some (cmd option)

/-- `CommandLine.getOptionValue`: the first value. -/
def CommandLine.getOptionValue (cmd : CommandLine) (option : Char) : Option JString :=
  (cmd option).head?

/-- What the interface uses of its libraries. -/
structure Libraries where
  /-- `Option.getValue` of a registered option, from the values of the option. -/
  getValue : List JString → Option JString
  /-- `DatatypeConverter.parseDateTime`. -/
  parseDateTime : JString → Except Throwable Date

namespace EventCLI

/-- `EventCLI.OPTION_ORG_ID`. -/
def optionOrgId : Char := 'o'

/-- `EventCLI.OPTION_CREATED_AT`. -/
def optionCreatedAt : Char := 'z'

/-- `EventCLI.OPTION_FINGERPRINT_FIELDS`. -/
def optionFingerprintFields : Char := 'f'

/-- `EventCLI.OPTION_MESSAGE`. -/
def optionMessage : Char := 'm'

/-- `EventCLI.OPTION_PROPERTIES`. -/
def optionProperties : Char := 'p'

/-- `EventCLI.OPTION_RECEIVED_AT`. -/
def optionReceivedAt : Char := 'r'

/-- `EventCLI.OPTION_SENDER`. -/
def optionSender : Char := 'x'

/-- `EventCLI.OPTION_SEVERITY`. -/
def optionSeverity : Char := 'y'

/-- `EventCLI.OPTION_SOURCE`. -/
def optionSource : Char := 'u'

/-- `EventCLI.OPTION_STATUS`. -/
def optionStatus : Char := 'w'

/-- `EventCLI.OPTION_TAGS`. -/
def optionTags : Char := 't'

/-- `EventCLI.OPTION_TITLE`. -/
def optionTitle : Char := 'n'

variable (libraries : Libraries) (cmd : CommandLine)

/-- `EventCLI.parseDateTime`. -/
def parseDateTime (s : Option JString) : Except Throwable (Option Date) :=
  match s with
  | some s => (libraries.parseDateTime s).map some
  | none => .ok none

def extractCreatedAt (event : OwnedEvent) : Except Throwable OwnedEvent := do
  let createdAt := libraries.getValue (cmd optionCreatedAt)
  return event.setCreatedAt (← parseDateTime libraries createdAt)

def extractReceivedAt (event : OwnedEvent) : Except Throwable OwnedEvent := do
  let receivedAt := libraries.getValue (cmd optionReceivedAt)
  return event.setReceivedAt (← parseDateTime libraries receivedAt)

def extractFingerprintFields (event : OwnedEvent) : OwnedEvent :=
  match cmd.getOptionValues optionFingerprintFields with
  | some fingerprintFields =>
    fingerprintFields.foldl (fun event s => event.addFingerprintField (some s)) event
  | none => event

def extractOrganizationId (event : OwnedEvent) : OwnedEvent :=
  match cmd.getOptionValue optionOrgId with
  | some orgId => event.setOrganizationId (some orgId)
  | none => event

def extractMessage (event : OwnedEvent) : OwnedEvent :=
  match cmd.getOptionValue 'm' with
  | some message => event.setMessage (some message)
  | none => event

/-- The values of the option are not looked at. -/
def extractProperties (event : OwnedEvent) : OwnedEvent :=
  match cmd.getOptionValues 'p' with
  | some _ => event.addProperty (some []) (some (.string []))
  | none => event

/-- The value, of an option that there is none of, is not used. -/
def extractSeverity (event : OwnedEvent) : OwnedEvent :=
  let _ := cmd.getOptionValue 's'
  event

/-- The body of the method is empty. -/
def extractStatus (event : OwnedEvent) : OwnedEvent := event

/-- The values are not used. -/
def extractTags (event : OwnedEvent) : OwnedEvent :=
  let _ := cmd.getOptionValues 't'
  event

/-- The access to an array. -/
def element (strs : List JString) (index : Nat) : Except Throwable JString :=
  match strs[index]? with
  | some s => .ok s
  | none => .error .arrayIndexOutOfBounds

/-- The text of a part in the debug messages, which are put together whether
they are logged or not. -/
def loggedPart (strs : Option (List JString)) (length index : Nat) : Except Throwable JString :=
  match strs with
  | some strs => if length ≤ strs.length then element strs index else .ok []
  | none => .ok []

/-- `EventCLI.getSourceType`.  The third debug message tests for two parts and
reads the third. -/
def getSourceType (strs : Option (List JString)) : Except Throwable (Option Source) := do
  let _ ← loggedPart strs 1 0
  let _ ← loggedPart strs 2 1
  let _ ← loggedPart strs 2 2
  match strs with
  | some [ref] => return some ((Source.new.setRef ref).setType (utf16 "host"))
  | some [ref, type] => return some ((Source.new.setRef ref).setType type)
  | some [ref, type, name] => return some (((Source.new.setRef ref).setType type).setName name)
  | _ => return none

def extractSource (event : OwnedEvent) : Except Throwable OwnedEvent := do
  match ← getSourceType (cmd.getOptionValues 'u') with
  | some source => return event.setSource (some source)
  | none => return event

/-- The sender is read from the option of the source. -/
def extractSender (event : OwnedEvent) : Except Throwable OwnedEvent := do
  match ← getSourceType (cmd.getOptionValues 'u') with
  | some sender => return event.setSender (some sender)
  | none => return event

def extractTitle (event : OwnedEvent) : OwnedEvent :=
  match cmd.getOptionValue 'n' with
  | some title => event.setTitle (some title)
  | none => event

/-- `EventCLI.configureEvent`, on the event of a new `EventCLI`. -/
def configureEvent : Except Throwable OwnedEvent := do
  let event ← extractCreatedAt libraries cmd RawEvent.new
  let event := extractFingerprintFields cmd event
  let event := extractOrganizationId cmd event
  let event := extractMessage cmd event
  let event ← extractReceivedAt libraries cmd event
  let event ← extractSender cmd event
  let event := extractSeverity cmd event
  let event := extractStatus event
  let event := extractTags cmd event
  let event ← extractSource cmd event
  let event := extractProperties cmd event
  return extractTitle cmd event

end EventCLI

end BoundaryEventSdk.Event
