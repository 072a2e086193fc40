import BoundaryEventSdk.Service.Recovery

/-!
# `SendSSHServiceTests`: what the bean was told and what it sends

A client calls setters on the bean, in any order and as often as it likes, and
`process` puts an SSH service test into the message.  The bean keeps some
settings in fields of its own and the rest in the configuration of the service
test.  `get_run` says that the getters give back the last call of each setter,
and `ofTest_process` that the service test agrees with the getters on all but
two settings: its type is a literal, and its model is the one of the
constructor.
-/

namespace BoundaryEventSdk.Service

open BoundaryEventSdk.Java
open BoundaryEventSdk.Event (Date OwnedEvent Severity Status)

/-- The fields of a `SendSSHServiceTests`. -/
structure SendSSHServiceTests where
  configuration : SshxConfiguration
  model : SshxServiceModel := {}
  serviceTestName : Option JString := none
  serviceName : Option JString := none
  requestId : Option JString
  expectedOutput : Option JString := none
  serviceTestType : Option JString := none

/-- A message with the body and the header that `process` sets. -/
structure ServiceTestMessage where
  body : Option JString
  serviceTest : ServiceTest SshxConfiguration SshxServiceModel

/-- The settings of the bean, each with a setter. -/
inductive Setting where
  | serviceName
  | serviceTestName
  | serviceTestType
  | requestId
  | host
  | user
  | password
  | command
  | expectedOutput
  deriving DecidableEq, Repr

namespace SendSSHServiceTests

/-- `new SendSSHServiceTests()`, from what `new SshxConfiguration()` is and the
identifier of a new request. -/
def new (newSshxConfiguration : SshxConfiguration) (requestId : JString) : SendSSHServiceTests where
  configuration := newSshxConfiguration
  requestId := some requestId

/-! ## Setters and getters -/

section Setters

variable (bean : SendSSHServiceTests) (value : Option JString)

def setServiceName : SendSSHServiceTests :=
  { bean with serviceName := value }

def setServiceTestName : SendSSHServiceTests :=
  { bean with serviceTestName := value }

def setServiceTestType : SendSSHServiceTests :=
  { bean with serviceTestType := value }

def setRequestId : SendSSHServiceTests :=
  { bean with requestId := value }

def setHost : SendSSHServiceTests :=
  { bean with configuration := { bean.configuration with host := value } }

def setUser : SendSSHServiceTests :=
  { bean with configuration := { bean.configuration with username := value } }

def setPassword : SendSSHServiceTests :=
  { bean with configuration := { bean.configuration with password := value } }

def setCommand : SendSSHServiceTests :=
  { bean with configuration := { bean.configuration with command := value } }

def setExpectedOutput : SendSSHServiceTests :=
  { bean with expectedOutput := value }

end Setters

/-- A call of a setter. -/
def set (bean : SendSSHServiceTests) (call : Setting × Option JString) : SendSSHServiceTests :=
  match call.1 with
  | .serviceName => bean.setServiceName call.2
  | .serviceTestName => bean.setServiceTestName call.2
  | .serviceTestType => bean.setServiceTestType call.2
  | .requestId => bean.setRequestId call.2
  | .host => bean.setHost call.2
  | .user => bean.setUser call.2
  | .password => bean.setPassword call.2
  | .command => bean.setCommand call.2
  | .expectedOutput => bean.setExpectedOutput call.2

/-- The getter of a setting. -/
def get (bean : SendSSHServiceTests) : Setting → Option JString
  | .serviceName => bean.serviceName
  | .serviceTestName => bean.serviceTestName
  | .serviceTestType => bean.serviceTestType
  | .requestId => bean.requestId
  | .host => bean.configuration.host
  | .user => bean.configuration.username
  | .password => bean.configuration.password
  | .command => bean.configuration.command
  | .expectedOutput => bean.expectedOutput

/-- `SendSSHServiceTests.process`. -/
def process (bean : SendSSHServiceTests) : ServiceTestMessage where
  body := bean.get .command
  serviceTest :=
    { name := bean.get .serviceTestName
      serviceTestType := some (utf16 "ssh")
      serviceName := bean.get .serviceName
      requestId := bean.get .requestId
      configuration := bean.configuration
      model := bean.model }

/-- A setter changes its own setting. -/
theorem get_set (bean : SendSSHServiceTests) (call : Setting × Option JString)
    (setting : Setting) :
    (bean.set call).get setting = if call.1 = setting then call.2 else bean.get setting := by
  obtain ⟨setter, value⟩ := call
  cases setter <;> cases setting <;> rfl

/-- No setter reaches the model. -/
theorem model_set (bean : SendSSHServiceTests) (call : Setting × Option JString) :
    (bean.set call).model = bean.model := by
  obtain ⟨setter, value⟩ := call
  cases setter <;> rfl

end SendSSHServiceTests

/-! ## A run of setters -/

/-- What the last call of the setter was given, if there was one. -/
def lastSet (calls : List (Setting × Option JString)) (setting : Setting) :
    Option (Option JString) :=
  (calls.reverse.find? fun call => call.1 = setting).map Prod.snd

theorem lastSet_cons (call : Setting × Option JString) (calls : List (Setting × Option JString))
    (setting : Setting) :
    lastSet (call :: calls) setting =
      (lastSet calls setting).or (if call.1 = setting then some call.2 else none) := by
  rw [lastSet, lastSet, List.reverse_cons, List.find?_append]
  cases calls.reverse.find? fun call => call.1 = setting with
  | some last => rfl
  | none =>
    by_cases hcall : call.1 = setting
    · simp [hcall]
    · simp [hcall]

/-- The value that a service test has for a setting. -/
def Setting.ofTest (serviceTest : ServiceTest SshxConfiguration SshxServiceModel) :
    Setting → Option JString
  | .serviceName => serviceTest.serviceName
  | .serviceTestName => serviceTest.name
  | .serviceTestType => serviceTest.serviceTestType
  | .requestId => serviceTest.requestId
  | .host => serviceTest.configuration.host
  | .user => serviceTest.configuration.username
  | .password => serviceTest.configuration.password
  | .command => serviceTest.configuration.command
  | .expectedOutput => serviceTest.model.expectedOutput

namespace SendSSHServiceTests

/-- The getters give back the last call of each setter. -/
theorem get_run (bean : SendSSHServiceTests) (calls : List (Setting × Option JString))
    (setting : Setting) :
    (run set bean calls).get setting = (lastSet calls setting).getD (bean.get setting) := by
  induction calls generalizing bean with
  | nil => rfl
  | cons call calls ih =>
    rw [run_cons, ih, get_set, lastSet_cons]
    cases lastSet calls setting with
    | some value => rfl
    | none =>
      by_cases hcall : call.1 = setting
      · simp [hcall]
      · simp [hcall]

theorem model_run (bean : SendSSHServiceTests) (calls : List (Setting × Option JString)) :
    (run set bean calls).model = bean.model := by
  refine run_invariant (fun current : SendSSHServiceTests => current.model = bean.model)
    (fun _ => True) ?_ rfl fun _ _ => trivial
  intro current call hmodel _
  rw [model_set, hmodel]

/-- The service test has the settings of the bean, except for two. -/
theorem ofTest_process (bean : SendSSHServiceTests) (setting : Setting) :
    setting.ofTest bean.process.serviceTest =
      if setting = .serviceTestType then some (utf16 "ssh")
      else if setting = .expectedOutput then bean.model.expectedOutput
      else bean.get setting := by
  cases setting <;> rfl

end SendSSHServiceTests

/-! ## The verdict -/

/-- With an output and a pattern, the SSH processor takes its verdict from the
match. -/
theorem sshResultToEvent_verdict {compile : JString → Option (JString → Bool)} {now : Date}
    {serviceTest : ServiceTest SshxConfiguration SshxServiceModel} {regex : JString}
    {matcher : JString → Bool} (hregex : serviceTest.model.expectedOutput = some regex)
    (hcompile : compile regex = some matcher) (text : JString) :
    ∃ event, sshResultToEvent compile now serviceTest { output := some text } = .ok event ∧
      event.status = some (if matcher text then .CLOSED else .OPEN) ∧
      event.severity = some (if matcher text then .INFO else .WARN) := by
  unfold sshResultToEvent
  simp only [hregex, deref_some, ok_bind, hcompile]
  refine ⟨_, rfl, ?_, ?_⟩
  · cases matcher text <;> rfl
  · cases matcher text <;> rfl

/-- The service test that the bean sends after the calls. -/
def sentTest (newSshxConfiguration : SshxConfiguration) (requestId : JString)
    (calls : List (Setting × Option JString)) : ServiceTest SshxConfiguration SshxServiceModel :=
  (run SendSSHServiceTests.set (.new newSshxConfiguration requestId) calls).process.serviceTest

/-- The service test has what each setter was given last, and the verdict on an
output is that of the expected output that was set last. -/
structure ChecksConfigured (compile : JString → Option (JString → Bool))
    (newSshxConfiguration : SshxConfiguration) (requestId : JString)
    (calls : List (Setting × Option JString)) : Prop where
  carries : ∀ setting value, lastSet calls setting = some value →
    setting.ofTest (sentTest newSshxConfiguration requestId calls) = value
  verdict : ∀ regex matcher, lastSet calls .expectedOutput = some (some regex) →
    compile regex = some matcher → ∀ now text, ∃ event,
      sshResultToEvent compile now (sentTest newSshxConfiguration requestId calls)
          { output := some text } = .ok event ∧
        event.status = some (if matcher text then .CLOSED else .OPEN) ∧
        event.severity = some (if matcher text then .INFO else .WARN)

/-- The bean checks what it was told exactly when it was told the type `ssh`, if
any, and the empty expected output, if any. -/
theorem checksConfigured_iff (compile : JString → Option (JString → Bool))
    (newSshxConfiguration : SshxConfiguration) (requestId : JString)
    (calls : List (Setting × Option JString)) :
    ChecksConfigured compile newSshxConfiguration requestId calls ↔
      (∀ value, lastSet calls .serviceTestType = some value → value = some (utf16 "ssh")) ∧
        ∀ value, lastSet calls .expectedOutput = some value → value = some [] := by
  have htest : ∀ setting, setting.ofTest (sentTest newSshxConfiguration requestId calls) =
      if setting = .serviceTestType then some (utf16 "ssh")
      else if setting = .expectedOutput then some []
      else (lastSet calls setting).getD
        ((SendSSHServiceTests.new newSshxConfiguration requestId).get setting) := by
    intro setting
    rw [sentTest, SendSSHServiceTests.ofTest_process, SendSSHServiceTests.model_run,
      SendSSHServiceTests.get_run]
    rfl
  constructor
  · intro h
    constructor
    · intro value hlast
      rw [← h.carries _ _ hlast, htest, if_pos rfl]
    · intro value hlast
      rw [← h.carries _ _ hlast, htest, if_neg (by decide), if_pos rfl]
  · intro h
    obtain ⟨htype, houtput⟩ := h
    constructor
    · intro setting value hlast
      rw [htest]
      split_ifs with hsetting hsetting'
      · rw [hsetting] at hlast
        exact (htype value hlast).symm
      · rw [hsetting'] at hlast
        exact (houtput value hlast).symm
      · rw [hlast, Option.getD_some]
    · intro regex matcher hlast hcompile now text
      have hregex := htest .expectedOutput
      rw [if_neg (by decide), if_pos rfl, ← houtput _ hlast] at hregex
      exact sshResultToEvent_verdict hregex hcompile text

/-- The settings of a bean that expects the output `OK`. -/
def expectOk : List (Setting × Option JString) :=
  [(.serviceTestType, some (utf16 "SSH")), (.expectedOutput, some (utf16 "OK"))]

/-- `String.matches` for patterns without special characters. -/
def literalPattern (regex : JString) : Option (JString → Bool) :=
  some fun text => text == regex

/-- The output `OK` opens a warning. -/
theorem checksConfigured_expectOk :
    ¬ ChecksConfigured literalPattern ⟨none, 22, 0, none, none, none⟩ (utf16 "id") expectOk ∧
      ∃ event, sshResultToEvent literalPattern 0
          (sentTest ⟨none, 22, 0, none, none, none⟩ (utf16 "id") expectOk)
          { output := some (utf16 "OK") } = .ok event ∧
        event.status = some .OPEN ∧ event.severity = some .WARN := by
  refine ⟨?_, _, rfl, rfl, rfl⟩
  intro h
  exact absurd (h.carries .expectedOutput _ rfl) (by decide)

end BoundaryEventSdk.Service
