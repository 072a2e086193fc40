import BoundaryEventSdk.Prunsrv.ListOptions

/-!
# The configuration of a service

The options of a service are kept in the registry.  A run of the service runner
parses the command line, reads the environment, loads the options that are not
given, adds to the lists that are only added to, and saves the options that are
given.

* `cmdlineLoadEnvVars_eq` says what the environment does to the options,
  `loadConfiguration_eq` what loading them does, and `saveConfiguration_eq` what is
  saved.
* `Stores` is what loading leaves of a list and saving needs: the new strings, and
  whether they are to be written.
* `Takes.load` and `Takes.save` are the same for a number: one that is given is
  saved, and another one is read from the registry.
-/

namespace BoundaryEventSdk.Prunsrv

open BoundaryEventSdk.C

def SIZ_HUGMAX : Nat := 8191

/-- Allowed commands. -/
def commands : List Block :=
  [wide "TS", wide "RS", wide "ES", wide "SS", wide "US", wide "IS", wide "DS", wide "?",
    wide "VS"]

def altcmds : List Block :=
  [wide "run", wide "service", wide "start", wide "stop", wide "update", wide "install",
    wide "delete", wide "help", wide "version"]

/-- An option that has the registry name and the subkey of the table. -/
def entry (szName szRegistry : String) (szSubkey : Option String) (dwType : UInt32)
    (dwValue : Nat) : CmdlineOpt :=
  ⟨wide szName, wide szRegistry, szSubkey.map wide, dwType, none, dwValue⟩

/-- Allowed parameters. -/
def options : List CmdlineOpt := [
  entry "Description" "Description" none (APXCMDOPT_STR ||| APXCMDOPT_SRV) 0,
  entry "DisplayName" "DisplayName" none (APXCMDOPT_STR ||| APXCMDOPT_SRV) 0,
  entry "Install" "ImagePath" none (APXCMDOPT_STE ||| APXCMDOPT_SRV) 0,
  entry "ServiceUser" "ServiceUser" none (APXCMDOPT_STR ||| APXCMDOPT_SRV) 0,
  entry "ServicePassword" "ServicePassword" none (APXCMDOPT_STR ||| APXCMDOPT_SRV) 0,
  entry "Startup" "Startup" none (APXCMDOPT_STR ||| APXCMDOPT_SRV) 0,
  entry "Type" "Type" none (APXCMDOPT_STR ||| APXCMDOPT_SRV) 0,
  entry "DependsOn" "DependsOn" none (APXCMDOPT_MSZ ||| APXCMDOPT_REG) 0,
  entry "Environment" "Environment" none (APXCMDOPT_MSZ ||| APXCMDOPT_REG) 0,
  entry "User" "User" none (APXCMDOPT_STR ||| APXCMDOPT_REG) 0,
  entry "Password" "Password" none (APXCMDOPT_BIN ||| APXCMDOPT_REG) 0,
  entry "LibraryPath" "LibraryPath" none (APXCMDOPT_STE ||| APXCMDOPT_REG) 0,
  entry "JavaHome" "JavaHome" "Java" (APXCMDOPT_STE ||| APXCMDOPT_REG) 0,
  entry "Jvm" "Jvm" "Java" (APXCMDOPT_STE ||| APXCMDOPT_REG) 0,
  entry "JvmOptions" "Options" "Java" (APXCMDOPT_MSZ ||| APXCMDOPT_REG) 0,
  entry "Classpath" "Classpath" "Java" (APXCMDOPT_STE ||| APXCMDOPT_REG) 0,
  entry "JvmMs" "JvmMs" "Java" (APXCMDOPT_INT ||| APXCMDOPT_REG) 0,
  entry "JvmMx" "JvmMx" "Java" (APXCMDOPT_INT ||| APXCMDOPT_REG) 0,
  entry "JvmSs" "JvmSs" "Java" (APXCMDOPT_INT ||| APXCMDOPT_REG) 0,
  entry "StopImage" "Image" "Stop" (APXCMDOPT_STE ||| APXCMDOPT_REG) 0,
  entry "StopPath" "WorkingPath" "Stop" (APXCMDOPT_STE ||| APXCMDOPT_REG) 0,
  entry "StopClass" "Class" "Stop" (APXCMDOPT_STR ||| APXCMDOPT_REG) 0,
  entry "StopParams" "Params" "Stop" (APXCMDOPT_MSZ ||| APXCMDOPT_REG) 0,
  entry "StopMethod" "Method" "Stop" (APXCMDOPT_STR ||| APXCMDOPT_REG) 0,
  entry "StopMode" "Mode" "Stop" (APXCMDOPT_STR ||| APXCMDOPT_REG) 0,
  entry "StopTimeout" "Timeout" "Stop" (APXCMDOPT_INT ||| APXCMDOPT_REG) 0,
  entry "StartImage" "Image" "Start" (APXCMDOPT_STE ||| APXCMDOPT_REG) 0,
  entry "StartPath" "WorkingPath" "Start" (APXCMDOPT_STE ||| APXCMDOPT_REG) 0,
  entry "StartClass" "Class" "Start" (APXCMDOPT_STR ||| APXCMDOPT_REG) 0,
  entry "StartParams" "Params" "Start" (APXCMDOPT_MSZ ||| APXCMDOPT_REG) 0,
  entry "StartMethod" "Method" "Start" (APXCMDOPT_STR ||| APXCMDOPT_REG) 0,
  entry "StartMode" "Mode" "Start" (APXCMDOPT_STR ||| APXCMDOPT_REG) 0,
  entry "LogPath" "Path" "Log" (APXCMDOPT_STE ||| APXCMDOPT_REG) 0,
  entry "LogPrefix" "Prefix" "Log" (APXCMDOPT_STR ||| APXCMDOPT_REG) 0,
  entry "LogLevel" "Level" "Log" (APXCMDOPT_STR ||| APXCMDOPT_REG) 0,
  entry "StdError" "StdError" "Log" (APXCMDOPT_STE ||| APXCMDOPT_REG) 0,
  entry "StdOutput" "StdOutput" "Log" (APXCMDOPT_STE ||| APXCMDOPT_REG) 0,
  entry "LogJniMessages" "LogJniMessages" "Log" (APXCMDOPT_INT ||| APXCMDOPT_REG) 1,
  entry "PidFile" "PidFile" "Log" (APXCMDOPT_STR ||| APXCMDOPT_REG) 0,
  entry "Rotate" "Rotate" "Log" (APXCMDOPT_INT ||| APXCMDOPT_REG) 0]

/-! ## The environment -/

/-- What `GetEnvironmentVariableW` says of a variable. -/
inductive EnvVar where
  | value (szVar : WString) (hne : szVar.chars ≠ [])
  /-- The length is zero, and the error is `ERROR_ENVVAR_NOT_FOUND`. -/
  | notFound
  /-- The length is zero, and the error is another one. -/
  | error

/-- The name of the variable of an option. -/
def szEnv (szName : Block) : Block :=
  (wide "PR_" ++ szName).take 63

/-- An option is set to the value of its variable. -/
def CmdlineOpt.loadEnv (szVar : WString) (o : CmdlineOpt) : Option CmdlineOpt :=
  if o.has APXCMDOPT_STR then
    some { o with szValue := some szVar.block, dwType := o.dwType ||| APXCMDOPT_FOUND }
  else if o.has APXCMDOPT_INT then
    (atoul szVar.chars).map fun v =>
      { o with dwValue := v.toNat, dwType := o.dwType ||| APXCMDOPT_FOUND }
  else if o.has APXCMDOPT_MSZ then
    -- The values of the command line are not looked at.
    (appendMsz none 0 szVar).map fun msz =>
      { o with
        szValue := some msz.1
        dwValue := msz.2
        dwType := o.dwType ||| (APXCMDOPT_FOUND ||| APXCMDOPT_ADD) }
  else
    some o

/-- A variable that is too long is not looked at. -/
def CmdlineOpt.loadVariable (szVar : WString) (o : CmdlineOpt) : Option CmdlineOpt :=
  if szVar.chars.length ≥ SIZ_HUGMAX then some o else o.loadEnv szVar

/-- `apxCmdlineLoadEnvVars`. -/
def cmdlineLoadEnvVars (env : Block → EnvVar) : List CmdlineOpt → Option (List CmdlineOpt)
  | [] => some []
  | o :: lpOptions =>
    match env (szEnv o.szName) with
    | .error => some (o :: lpOptions)
    | .notFound => (cmdlineLoadEnvVars env lpOptions).map (o :: ·)
    | .value szVar _ => do
      let o ← o.loadVariable szVar
      let lpOptions ← cmdlineLoadEnvVars env lpOptions
      return o :: lpOptions

/-! ## The registry -/

/-- A value of the registry. -/
inductive RegValue where
  | sz (data : Block)
  | dword (data : UInt32)
  | multiSz (data : Block)
  deriving DecidableEq

/-- The data of a value as characters. -/
def RegValue.chars : RegValue → Block
  | sz data => data
  | dword data => [data.toUInt16, (data >>> 16).toUInt16]
  | multiSz data => data

/-- The keys that options are kept under. -/
inductive Root where
  | service
  | paramSoftware
  deriving DecidableEq

/-- The values of a service, by the key, the subkey and the name. -/
abbrev Registry := Root → Option Block → Block → Option RegValue

def Registry.setValue (reg : Registry) (dwFrom : Root) (szSubkey : Option Block)
    (szValueName : Block) (value : Option RegValue) : Registry :=
  fun root subkey name =>
    if root = dwFrom ∧ subkey = szSubkey ∧ name = szValueName then value else reg root subkey name

/-- `apxRegistryGetStringW`. -/
def registryGetString (reg : Registry) (dwFrom : Root) (szSubkey : Option Block)
    (szValueName : Block) : Option Block :=
  match reg dwFrom szSubkey szValueName with
  | some (.sz data) => some data
  | _ => none

/-- `apxRegistryGetNumberW`. -/
def registryGetNumber (reg : Registry) (dwFrom : Root) (szSubkey : Option Block)
    (szValueName : Block) : UInt32 :=
  match reg dwFrom szSubkey szValueName with
  | some (.dword data) => data
  | _ => 0

/-- `apxRegistryGetMzStrW`: a value of any type that is not empty. -/
def registryGetMzStr (reg : Registry) (dwFrom : Root) (szSubkey : Option Block)
    (szValueName : Block) : Option Block :=
  (reg dwFrom szSubkey szValueName).bind fun value =>
    if value.chars = [] then none else some value.chars

/-- The length that `apxRegistryGetMzStrW` gives: twice the number of bytes, and what was
there before if there is no value. -/
def registryGetMzStrLength (lpData : Option Block) (dwLength : Nat) : Nat :=
  match lpData with
  | some data => data.length * 2 * 2
  | none => dwLength

/-- `apxRegistrySetStrW`. -/
def registrySetStr (reg : Registry) (dwFrom : Root) (szSubkey : Option Block)
    (szValueName : Block) (szValue : Option Block) : Option Registry :=
  match szValue with
  | none => some (reg.setValue dwFrom szSubkey szValueName none)
  | some data =>
    let text := data.takeWhile (· ≠ 0)
    if text.length < data.length then
      some (reg.setValue dwFrom szSubkey szValueName
        (if text = [] then none else some (.sz (text ++ [0]))))
    else
      none

/-- `apxRegistrySetMzStrW`. -/
def registrySetMzStr (reg : Registry) (dwFrom : Root) (szSubkey : Option Block)
    (szValueName : Block) (lpData : Option Block) (dwLength : Nat) : Option Registry :=
  (moveMemory lpData (dwLength / 2)).map fun data =>
    reg.setValue dwFrom szSubkey szValueName (some (.multiSz data))

/-! ## Loading and saving -/

/-- Where an option is loaded from. -/
def CmdlineOpt.dwFrom (o : CmdlineOpt) : Root :=
  if o.has APXCMDOPT_REG then .paramSoftware else .service

/-- The body of the loop of `loadConfiguration`.  `expand` is `apxExpandStrW`. -/
def loadOption (expand : Block → Block) (reg : Registry) (o : CmdlineOpt) : Option CmdlineOpt :=
  if o.has APXCMDOPT_FOUND = false then
    if o.has APXCMDOPT_STR then
      let szValue := registryGetString reg o.dwFrom o.szSubkey o.szRegistry
      some { o with szValue := if o.has APXCMDOPT_STE then szValue.map expand else szValue }
    else if o.has APXCMDOPT_INT then
      some { o with
        dwValue := (registryGetNumber reg o.dwFrom o.szSubkey o.szRegistry).toNat }
    else if o.has APXCMDOPT_MSZ then
      let szValue := registryGetMzStr reg o.dwFrom o.szSubkey o.szRegistry
      some { o with
        szValue := szValue
        dwValue := registryGetMzStrLength szValue o.dwValue }
    else
      some o
  else if o.has APXCMDOPT_ADD then
    if o.has APXCMDOPT_MSZ then
      -- The list of the registry, and the one that is added.
      let ov := registryGetMzStr reg o.dwFrom o.szSubkey o.szRegistry
      (multiSzCombine ov o.szValue).map fun combined =>
        match combined with
        | some (rv, length) => { o with szValue := some rv, dwValue := length }
        | none => { o with szValue := none, dwValue := registryGetMzStrLength ov o.dwValue }
    else
      some o
  else
    some o

/-- `loadConfiguration`, if the keys of the service can be opened. -/
def loadConfiguration (expand : Block → Block) (reg : Registry) :
    List CmdlineOpt → Option (List CmdlineOpt)
  | [] => some []
  | o :: lpOptions => do
    let o ← loadOption expand reg o
    let lpOptions ← loadConfiguration expand reg lpOptions
    return o :: lpOptions

/-- The body of the loop of `saveConfiguration`. -/
def saveOption (reg : Registry) (o : CmdlineOpt) : Option Registry :=
  if o.has APXCMDOPT_SRV || !o.has APXCMDOPT_FOUND then
    some reg
  else if o.has APXCMDOPT_STR then
    registrySetStr reg .paramSoftware o.szSubkey o.szRegistry o.szValue
  else if o.has APXCMDOPT_INT then
    some (reg.setValue .paramSoftware o.szSubkey o.szRegistry
      (some (.dword (UInt32.ofNat o.dwValue))))
  else if o.has APXCMDOPT_MSZ then
    registrySetMzStr reg .paramSoftware o.szSubkey o.szRegistry o.szValue o.dwValue
  else
    some reg

/-- `saveConfiguration`. -/
def saveConfiguration (reg : Registry) (lpOptions : List CmdlineOpt) : Option Registry :=
  lpOptions.foldlM saveOption reg

/-! ## The environment of a run -/

/-- The variable that an option is set to, by the names of the options. -/
def readVariable (env : Block → EnvVar) : List Block → Block → Option WString
  | [], _ => none
  | szName :: rest, name =>
    match env (szEnv szName) with
    | .error => none
    | .notFound => readVariable env rest name
    | .value szVar _ =>
      if name = szName then (if szVar.chars.length ≥ SIZ_HUGMAX then none else some szVar)
      else readVariable env rest name

theorem CmdlineOpt.loadEnv_static {o o' : CmdlineOpt} {szVar : WString}
    (h : o.loadEnv szVar = some o') :
    o'.szName = o.szName ∧ o'.szRegistry = o.szRegistry ∧ o'.szSubkey = o.szSubkey := by
  unfold CmdlineOpt.loadEnv at h
  split_ifs at h
  · cases h
    exact ⟨rfl, rfl, rfl⟩
  · obtain ⟨v, _, rfl⟩ := Option.map_eq_some_iff.mp h
    exact ⟨rfl, rfl, rfl⟩
  · obtain ⟨msz, _, rfl⟩ := Option.map_eq_some_iff.mp h
    exact ⟨rfl, rfl, rfl⟩
  · cases h
    exact ⟨rfl, rfl, rfl⟩

theorem CmdlineOpt.loadEnv_msz {o o' : CmdlineOpt} {szVar : WString}
    (h : o.loadEnv szVar = some o') : o'.has APXCMDOPT_MSZ = o.has APXCMDOPT_MSZ := by
  unfold CmdlineOpt.loadEnv at h
  split_ifs at h
  · cases h
    exact CmdlineOpt.has_or rfl (by decide)
  · obtain ⟨v, _, rfl⟩ := Option.map_eq_some_iff.mp h
    exact CmdlineOpt.has_or rfl (by decide)
  · obtain ⟨msz, _, rfl⟩ := Option.map_eq_some_iff.mp h
    exact CmdlineOpt.has_or rfl (by decide)
  · cases h
    rfl

theorem Implements.loadEnv {change : Change} {o : CmdlineOpt} (h : Implements change o)
    (szVar : WString) : ∃ o', o.loadEnv szVar = some o' ∧ Implements (.add [szVar]) o' := by
  obtain ⟨hstr, hint, hmsz, _⟩ := h.has
  have hload : o.loadEnv szVar = some { o with
      szValue := some (listBlock [szVar])
      dwValue := (listBlock [szVar]).length * 2
      dwType := o.dwType ||| (APXCMDOPT_FOUND ||| APXCMDOPT_ADD) } := by
    unfold CmdlineOpt.loadEnv
    rw [if_neg (by rw [hstr]; decide), if_neg (by rw [hint]; decide), if_pos hmsz, appendMsz_first]
    rfl
  refine ⟨_, hload, ?_, rfl, rfl⟩
  show o.dwType ||| _ = APXCMDOPT_MSZ ||| APXCMDOPT_REG ||| APXCMDOPT_FOUND ||| APXCMDOPT_ADD
  rcases h.dwType_cases with htype | htype | htype <;> rw [htype] <;> decide

theorem Takes.loadEnv {number : Option UInt32} {o o' : CmdlineOpt} {szVar : WString}
    (h : Takes number o) (hload : o.loadEnv szVar = some o') :
    Takes (some (numberOf szVar.chars)) o' := by
  obtain ⟨hstr, hint, hmsz, hreg, hsrv⟩ := h.kind
  unfold CmdlineOpt.loadEnv at hload
  rw [if_neg (by rw [hstr]; decide), if_pos hint] at hload
  obtain ⟨v, hv, rfl⟩ := Option.map_eq_some_iff.mp hload
  refine ⟨⟨?_, ?_, ?_, ?_, ?_⟩, ?_, fun v' hv' => ?_⟩
  · exact (CmdlineOpt.has_or rfl (by decide)).trans hstr
  · exact (CmdlineOpt.has_or rfl (by decide)).trans hint
  · exact (CmdlineOpt.has_or rfl (by decide)).trans hmsz
  · exact (CmdlineOpt.has_or rfl (by decide)).trans hreg
  · exact (CmdlineOpt.has_or rfl (by decide)).trans hsrv
  · exact @CmdlineOpt.has_or_self o _ APXCMDOPT_FOUND rfl (by decide)
  · cases hv'
    rw [← atoul_eq_some hv]

theorem Ready.loadEnv {o : CmdlineOpt} (h : Ready o) {szVar : WString}
    (hval : o.has APXCMDOPT_INT = true → szVar.chars ≠ [45]) :
    ∃ o', o.loadEnv szVar = some o' ∧ Ready o' := by
  cases h with
  | text hstr hmsz =>
    refine ⟨{ o with szValue := some szVar.block, dwType := o.dwType ||| APXCMDOPT_FOUND },
      if_pos hstr, .text ?_ ?_ fun _ => ⟨szVar, rfl⟩⟩
    · exact (CmdlineOpt.has_or rfl (by decide)).trans hstr
    · exact (CmdlineOpt.has_or rfl (by decide)).trans hmsz
  | number hstr hint hmsz =>
    obtain ⟨v, hv⟩ := atoul_isSome (hval hint)
    refine ⟨{ o with dwValue := v.toNat, dwType := o.dwType ||| APXCMDOPT_FOUND }, ?_,
      .number ?_ ?_ ?_⟩
    · unfold CmdlineOpt.loadEnv
      rw [if_neg (by rw [hstr]; decide), if_pos hint, hv]
      rfl
    · exact (CmdlineOpt.has_or rfl (by decide)).trans hstr
    · exact (CmdlineOpt.has_or rfl (by decide)).trans hint
    · exact (CmdlineOpt.has_or rfl (by decide)).trans hmsz
  | list change h =>
    obtain ⟨o', hload, hstep⟩ := h.loadEnv szVar
    exact ⟨o', hload, .list _ hstep⟩
  | other hstr hint hmsz =>
    refine ⟨o, ?_, .other hstr hint hmsz⟩
    unfold CmdlineOpt.loadEnv
    rw [if_neg (by rw [hstr]; decide), if_neg (by rw [hint]; decide),
      if_neg (by rw [hmsz]; decide)]

/-- An option before and after its variable is read. -/
def AfterVariable (szVar : Option WString) (o o' : CmdlineOpt) : Prop :=
  match szVar with
  | some szVar => o.loadEnv szVar = some o'
  | none => o' = o

theorem readVariable_eq_none {env : Block → EnvVar} {szNames : List Block} {name : Block}
    (h : name ∉ szNames) : readVariable env szNames name = none := by
  induction szNames with
  | nil => rfl
  | cons szName rest ih =>
    rw [List.mem_cons, not_or] at h
    unfold readVariable
    split
    · rfl
    · exact ih h.2
    · rw [if_neg h.1, ih h.2]

/-- Each option is set to its variable. -/
theorem cmdlineLoadEnvVars_eq {env : Block → EnvVar} {lpOptions : List CmdlineOpt}
    {szVars : Block → Option WString} (hnames : (names lpOptions).Nodup)
    (hvars : ∀ o ∈ lpOptions, szVars o.szName = readVariable env (names lpOptions) o.szName)
    (hready : ∀ o ∈ lpOptions, Ready o)
    (hminus : ∀ o ∈ lpOptions, o.has APXCMDOPT_INT = true →
      ∀ szVar, szVars o.szName = some szVar → szVar.chars ≠ [45]) :
    ∃ lpOptions', cmdlineLoadEnvVars env lpOptions = some lpOptions' ∧
      List.Forall₂ (fun o o' => AfterVariable (szVars o.szName) o o' ∧ Ready o')
        lpOptions lpOptions' := by
  induction lpOptions with
  | nil => exact ⟨[], rfl, .nil⟩
  | cons o lpOptions ih =>
    obtain ⟨hfresh, hnames⟩ := List.nodup_cons.mp hnames
    obtain ⟨hvar, hvars⟩ := List.forall_mem_cons.mp hvars
    obtain ⟨ho, hready⟩ := List.forall_mem_cons.mp hready
    obtain ⟨hone, hminus⟩ := List.forall_mem_cons.mp hminus
    have hfresh : o.szName ∉ names lpOptions := hfresh
    have hother : ∀ o' ∈ lpOptions, o'.szName ≠ o.szName := by
      intro o' ho' hsame
      apply hfresh
      show o.szName ∈ _
      rw [← hsame]
      exact List.mem_map_of_mem ho'
    have hcons : names (o :: lpOptions) = o.szName :: names lpOptions := rfl
    rw [hcons] at hvar hvars
    cases henv : env (szEnv o.szName) with
    | error =>
      refine ⟨o :: lpOptions, ?_, .cons ⟨?_, ho⟩ (List.forall₂_same.mpr fun o' ho' => ⟨?_, ?_⟩)⟩
      · rw [cmdlineLoadEnvVars, henv]
      · rw [hvar, readVariable, henv]
        rfl
      · rw [hvars o' ho', readVariable, henv]
        rfl
      · exact hready o' ho'
    | notFound =>
      obtain ⟨rest, hload, hall⟩ := ih hnames (fun o' ho' => by
        rw [hvars o' ho', readVariable, henv]) hready hminus
      refine ⟨o :: rest, ?_, .cons ⟨?_, ho⟩ hall⟩
      · rw [cmdlineLoadEnvVars, henv]
        dsimp only
        rw [hload]
        rfl
      · rw [hvar, readVariable, henv]
        dsimp only
        rw [readVariable_eq_none hfresh]
        rfl
    | value szVar hne =>
      obtain ⟨rest, hload, hall⟩ := ih hnames (fun o' ho' => by
        rw [hvars o' ho', readVariable, henv]
        exact if_neg (hother o' ho')) hready hminus
      rw [readVariable, henv] at hvar
      dsimp only at hvar
      rw [if_pos rfl] at hvar
      have hset : ∃ o', o.loadVariable szVar = some o' ∧
          AfterVariable (szVars o.szName) o o' ∧ Ready o' := by
        rw [hvar] at hone ⊢
        unfold CmdlineOpt.loadVariable
        split_ifs at hone ⊢
        · exact ⟨o, rfl, rfl, ho⟩
        · obtain ⟨o', ho', hready'⟩ := ho.loadEnv fun hint => hone hint szVar rfl
          exact ⟨o', ho', ho', hready'⟩
      obtain ⟨o', ho', hafter⟩ := hset
      refine ⟨o' :: rest, ?_, .cons hafter hall⟩
      rw [cmdlineLoadEnvVars, henv]
      dsimp only
      rw [ho', hload]
      rfl

/-! ## Loading and saving numbers -/

/-- A number that is given is not loaded, and another one is that of the registry. -/
theorem Takes.load {number : Option UInt32} {o : CmdlineOpt} (h : Takes number o)
    (expand : Block → Block) (reg : Registry) :
    ∃ o', loadOption expand reg o = some o' ∧ Takes number o' ∧
      o'.dwValue = (number.getD
        (registryGetNumber reg .paramSoftware o.szSubkey o.szRegistry)).toNat := by
  obtain ⟨hstr, hint, hmsz, hreg, hsrv⟩ := h.kind
  have hfound := h.found
  have hfrom : o.dwFrom = .paramSoftware := if_pos hreg
  unfold loadOption
  cases number with
  | none =>
    have hfound : o.has APXCMDOPT_FOUND = false := hfound
    rw [if_pos hfound, if_neg (by rw [hstr]; decide), if_pos hint, hfrom]
    exact ⟨_, rfl, ⟨h.kind, hfound, nofun⟩, rfl⟩
  | some v =>
    have hfound : o.has APXCMDOPT_FOUND = true := hfound
    have hlist : ¬o.has APXCMDOPT_MSZ = true := by
      rw [hmsz]
      decide
    rw [if_neg (by rw [hfound]; decide), if_neg hlist, ite_self]
    exact ⟨o, rfl, h, h.value v rfl⟩

/-- A number that is given is written, and another one is left alone. -/
theorem Takes.save {number : Option UInt32} {o : CmdlineOpt} (h : Takes number o)
    (reg : Registry) : ∃ reg', saveOption reg o = some reg' ∧
      registryGetNumber reg' .paramSoftware o.szSubkey o.szRegistry =
        number.getD (registryGetNumber reg .paramSoftware o.szSubkey o.szRegistry) := by
  obtain ⟨hstr, hint, hmsz, hreg, hsrv⟩ := h.kind
  have hfound := h.found
  unfold saveOption
  cases number with
  | none =>
    have hfound : o.has APXCMDOPT_FOUND = false := hfound
    rw [hsrv, hfound, if_pos (by decide)]
    exact ⟨reg, rfl, rfl⟩
  | some v =>
    have hfound : o.has APXCMDOPT_FOUND = true := hfound
    rw [hsrv, hfound, if_neg (by decide), if_neg (by rw [hstr]; decide), if_pos hint,
      h.value v rfl, UInt32.ofNat_toNat]
    refine ⟨_, rfl, ?_⟩
    unfold registryGetNumber Registry.setValue
    rw [if_pos ⟨rfl, rfl, rfl⟩]
    rfl

/-! ## Loading and saving lists -/

/-- The option can be saved. -/
def Savable (o : CmdlineOpt) : Prop :=
  ∀ reg, ∃ reg', saveOption reg o = some reg'

/-- The list after a change. -/
def Change.apply (old : List Block) : Change → List Block
  | .keep => old
  | .add values => old ++ stringsOf values
  | .replace values => stringsOf values

/-- The option has the new strings of a list, and saves them unless they are the old ones. -/
structure Stores (o : CmdlineOpt) (old new : List Block) : Prop where
  list : o.has APXCMDOPT_STR = false ∧ o.has APXCMDOPT_INT = false ∧
    o.has APXCMDOPT_MSZ = true ∧ o.has APXCMDOPT_REG = true ∧ o.has APXCMDOPT_SRV = false
  value : Lists o.szValue new
  content : (o.has APXCMDOPT_FOUND = false ∧ new = old) ∨
    (o.has APXCMDOPT_FOUND = true ∧ ∃ block, o.szValue = some block ∧
      o.dwValue = block.length * 2)

theorem Stores.save {o : CmdlineOpt} {old new : List Block} (h : Stores o old new)
    (reg : Registry) : ∃ reg', saveOption reg o = some reg' ∧
      (Lists (registryGetMzStr reg .paramSoftware o.szSubkey o.szRegistry) old →
        Lists (registryGetMzStr reg' .paramSoftware o.szSubkey o.szRegistry) new) := by
  obtain ⟨⟨hstr, hint, hmsz, _, hsrv⟩, hlists, hcontent⟩ := h
  unfold saveOption
  rcases hcontent with ⟨hfound, rfl⟩ | ⟨hfound, block, hvalue, hlength⟩
  · rw [hsrv, hfound, if_pos (by decide)]
    exact ⟨reg, rfl, id⟩
  · have hencodes : Encodes 0 block new := by
      rw [hvalue] at hlists
      exact hlists
    have hmove : moveMemory o.szValue (o.dwValue / 2) = some block := by
      rw [hvalue, hlength, Nat.mul_div_cancel _ (by decide)]
      unfold moveMemory
      dsimp only
      rw [if_pos (Nat.le_refl _), List.take_length]
    rw [hsrv, hfound, if_neg (by decide), if_neg (by rw [hstr]; decide),
      if_neg (by rw [hint]; decide), if_pos hmsz]
    refine ⟨reg.setValue .paramSoftware o.szSubkey o.szRegistry (some (.multiSz block)), ?_,
      fun _ => ?_⟩
    · unfold registrySetMzStr
      rw [hmove]
      rfl
    · have hne : block ≠ [] := by
        obtain ⟨_, rest, rfl⟩ := hencodes
        exact List.append_ne_nil_of_right_ne_nil _ (List.cons_ne_nil _ _)
      have hget : registryGetMzStr (reg.setValue .paramSoftware o.szSubkey o.szRegistry
          (some (.multiSz block))) .paramSoftware o.szSubkey o.szRegistry = some block := by
        unfold registryGetMzStr Registry.setValue
        rw [if_pos ⟨rfl, rfl, rfl⟩]
        exact if_neg hne
      rw [hget]
      exact hencodes

/-- A list that is not loaded is the new one of a service that has none. -/
theorem Implements.stores {change : Change} {o : CmdlineOpt} (h : Implements change o) :
    Stores o [] (change.apply []) := by
  refine ⟨h.has, ?_, ?_⟩
  · rw [h.szValue]
    cases change with
    | keep => rfl
    | add values => exact encodes_listBlock values
    | replace values => exact encodes_listBlock values
  have hfound := h.dwType
  unfold CmdlineOpt.has
  cases change with
  | keep =>
    have htype : o.dwType = APXCMDOPT_MSZ ||| APXCMDOPT_REG := hfound
    rw [htype]
    exact .inl ⟨by decide, rfl⟩
  | add values =>
    have htype : o.dwType = APXCMDOPT_MSZ ||| APXCMDOPT_REG ||| APXCMDOPT_FOUND |||
      APXCMDOPT_ADD := hfound
    rw [htype]
    exact .inr ⟨by decide, _, h.szValue, h.dwValue⟩
  | replace values =>
    have htype : o.dwType = APXCMDOPT_MSZ ||| APXCMDOPT_REG ||| APXCMDOPT_FOUND := hfound
    rw [htype]
    exact .inr ⟨by decide, _, h.szValue, h.dwValue⟩

theorem Implements.load {change : Change} {o : CmdlineOpt} (h : Implements change o)
    (expand : Block → Block) {reg : Registry} {old : List Block}
    (hold : Lists (registryGetMzStr reg .paramSoftware o.szSubkey o.szRegistry) old) :
    ∃ o', loadOption expand reg o = some o' ∧ o'.szName = o.szName ∧
      o'.szRegistry = o.szRegistry ∧ o'.szSubkey = o.szSubkey ∧
      Stores o' old (change.apply old) := by
  obtain ⟨hstr, hint, hmsz, hreg, hsrv⟩ := h.has
  have hfrom : o.dwFrom = .paramSoftware := if_pos hreg
  have hdwType := h.dwType
  unfold loadOption
  cases change with
  | keep =>
    have htype : o.dwType = APXCMDOPT_MSZ ||| APXCMDOPT_REG := hdwType
    have hfound : o.has APXCMDOPT_FOUND = false := by
      unfold CmdlineOpt.has
      rw [htype]
      decide
    rw [if_pos hfound, if_neg (by rw [hstr]; decide), if_neg (by rw [hint]; decide), if_pos hmsz,
      hfrom]
    exact ⟨_, rfl, rfl, rfl, rfl, h.has, hold, .inl ⟨hfound, rfl⟩⟩
  | add values =>
    have htype : o.dwType = APXCMDOPT_MSZ ||| APXCMDOPT_REG ||| APXCMDOPT_FOUND |||
      APXCMDOPT_ADD := hdwType
    have hflags : o.has APXCMDOPT_FOUND = true ∧ o.has APXCMDOPT_ADD = true := by
      unfold CmdlineOpt.has
      rw [htype]
      decide
    have hvalue : o.szValue = some (listBlock values) := h.szValue
    have hnew : Lists o.szValue (stringsOf values) := by
      rw [hvalue]
      exact encodes_listBlock values
    rw [if_neg (by rw [hflags.1]; decide), if_pos hflags.2, if_pos hmsz, hfrom]
    dsimp only
    rw [multiSzCombine_eq hold hnew (by rw [hvalue]; nofun)]
    refine ⟨_, rfl, rfl, rfl, rfl, h.has, ?_, .inr ⟨hflags.1, _, rfl, ?_⟩⟩
    · refine encodes_encodeStrings (fun s hs => ?_) []
      rcases List.mem_append.mp hs with hs | hs
      · exact hold.proper s hs
      · exact hnew.proper s hs
    · show _ = (encodeStrings (0 : WChar) (old ++ stringsOf values) ++ [0]).length * 2
      rw [List.length_append, Nat.add_mul]
      rfl
  | replace values =>
    have htype : o.dwType = APXCMDOPT_MSZ ||| APXCMDOPT_REG ||| APXCMDOPT_FOUND := hdwType
    have hflags : o.has APXCMDOPT_FOUND = true ∧ o.has APXCMDOPT_ADD = false := by
      unfold CmdlineOpt.has
      rw [htype]
      decide
    rw [if_neg (by rw [hflags.1]; decide), if_neg (by rw [hflags.2]; decide)]
    refine ⟨o, rfl, rfl, rfl, rfl, h.has, ?_, .inr ⟨hflags.1, _, h.szValue, h.dwValue⟩⟩
    rw [h.szValue]
    exact encodes_listBlock values

theorem Ready.savable {o : CmdlineOpt} (h : Ready o) : Savable o := by
  intro reg
  by_cases hskip : (o.has APXCMDOPT_SRV || !o.has APXCMDOPT_FOUND) = true
  · exact ⟨reg, if_pos hskip⟩
  cases h with
  | text hstr hmsz hvalue =>
    unfold saveOption
    rw [if_neg hskip, if_pos hstr]
    rw [Bool.or_eq_true, not_or, Bool.not_eq_true', Bool.not_eq_false] at hskip
    obtain ⟨val, hval⟩ := hvalue hskip.2
    have htake : val.block.takeWhile (· ≠ 0) = val.chars := by
      unfold WString.block
      rw [List.takeWhile_append_of_pos (by
        intro c hc
        exact decide_eq_true fun hzero => val.noZero (hzero ▸ hc)),
        List.takeWhile_cons_of_neg (by simp), List.append_nil]
    have hlength : val.chars.length < val.block.length := by
      unfold WString.block
      rw [List.length_append]
      exact Nat.lt_succ_self _
    rw [hval]
    unfold registrySetStr
    dsimp only
    rw [htake, if_pos hlength]
    exact ⟨_, rfl⟩
  | number hstr hint hmsz =>
    unfold saveOption
    rw [if_neg hskip, if_neg (by rw [hstr]; decide), if_pos hint]
    exact ⟨_, rfl⟩
  | list change h =>
    obtain ⟨reg', hsave, _⟩ := h.stores.save reg
    exact ⟨reg', hsave⟩
  | other hstr hint hmsz =>
    unfold saveOption
    rw [if_neg hskip, if_neg (by rw [hstr]; decide), if_neg (by rw [hint]; decide),
      if_neg (by rw [hmsz]; decide)]
    exact ⟨reg, rfl⟩

/-- An option before and after it is loaded. -/
structure Loads (reg : Registry) (o o' : CmdlineOpt) : Prop where
  static : o'.szName = o.szName ∧ o'.szRegistry = o.szRegistry ∧ o'.szSubkey = o.szSubkey
  savable : Savable o'
  stores : ∀ change old, Implements change o →
    Lists (registryGetMzStr reg .paramSoftware o.szSubkey o.szRegistry) old →
    Stores o' old (change.apply old)
  number : ∀ number, Takes number o → Takes number o' ∧
    o'.dwValue = (number.getD
      (registryGetNumber reg .paramSoftware o.szSubkey o.szRegistry)).toNat

/-- An option that is no list is loaded without its type being changed. -/
theorem loadOption_plain {o : CmdlineOpt} (hmsz : o.has APXCMDOPT_MSZ = false)
    (expand : Block → Block) (reg : Registry) :
    ∃ o', loadOption expand reg o = some o' ∧ o'.szName = o.szName ∧
      o'.szRegistry = o.szRegistry ∧ o'.szSubkey = o.szSubkey ∧ o'.dwType = o.dwType ∧
      (o.has APXCMDOPT_FOUND = true → o'.szValue = o.szValue) := by
  have hnot : o.has APXCMDOPT_MSZ ≠ true := by
    rw [hmsz]
    decide
  unfold loadOption
  rw [if_neg hnot, if_neg hnot]
  by_cases hfound : o.has APXCMDOPT_FOUND = false
  · rw [if_pos hfound]
    split_ifs <;>
      exact ⟨_, rfl, rfl, rfl, rfl, rfl, fun h => absurd (hfound.symm.trans h) (by decide)⟩
  · rw [if_neg hfound]
    split_ifs <;> exact ⟨o, rfl, rfl, rfl, rfl, rfl, fun _ => rfl⟩

theorem Ready.load {o : CmdlineOpt} (h : Ready o) (expand : Block → Block) {reg : Registry}
    (hreg : ∀ change, Implements change o →
      ∃ old, Lists (registryGetMzStr reg .paramSoftware o.szSubkey o.szRegistry) old) :
    ∃ o', loadOption expand reg o = some o' ∧ Loads reg o o' := by
  have hnumber : ∀ o', loadOption expand reg o = some o' → ∀ number, Takes number o →
      Takes number o' ∧ o'.dwValue = (number.getD
        (registryGetNumber reg .paramSoftware o.szSubkey o.szRegistry)).toNat := by
    intro o' hload number h
    obtain ⟨o'', hload', htakes⟩ := h.load expand reg
    rw [hload, Option.some.injEq] at hload'
    exact hload' ▸ htakes
  have hplain : o.has APXCMDOPT_MSZ = false →
      (∀ o', o'.dwType = o.dwType →
        (o.has APXCMDOPT_FOUND = true → o'.szValue = o.szValue) → Ready o') →
      ∃ o', loadOption expand reg o = some o' ∧ Loads reg o o' := by
    intro hmsz hready
    obtain ⟨o', hload, hname, hregistry, hsubkey, htype, hvalue⟩ :=
      loadOption_plain hmsz expand reg
    refine ⟨o', hload, ⟨hname, hregistry, hsubkey⟩, (hready o' htype hvalue).savable, ?_,
      hnumber o' hload⟩
    intro change old hlist
    exact absurd (hlist.has.2.2.1.symm.trans hmsz) (by decide)
  have hflag : ∀ {o' : CmdlineOpt} {flag : UInt32}, o'.dwType = o.dwType →
      o'.has flag = o.has flag := by
    intro o' flag htype
    unfold CmdlineOpt.has
    rw [htype]
  cases h with
  | text hstr hmsz hvalue =>
    refine hplain hmsz fun o' htype hsame =>
      .text ((hflag htype).trans hstr) ((hflag htype).trans hmsz) fun hfound => ?_
    have hfound := (hflag htype).symm.trans hfound
    rw [hsame hfound]
    exact hvalue hfound
  | number hstr hint hmsz =>
    exact hplain hmsz fun o' htype _ => .number ((hflag htype).trans hstr)
      ((hflag htype).trans hint) ((hflag htype).trans hmsz)
  | list change h =>
    obtain ⟨old, hold⟩ := hreg change h
    obtain ⟨o', hload, hname, hregistry, hsubkey, hstores⟩ := h.load expand hold
    refine ⟨o', hload, ⟨hname, hregistry, hsubkey⟩, fun reg₁ => ?_, fun change old h hold => ?_,
      hnumber o' hload⟩
    · obtain ⟨reg', hsave, _⟩ := hstores.save reg₁
      exact ⟨reg', hsave⟩
    · obtain ⟨o'', hload', _, _, _, hstores'⟩ := h.load expand hold
      rw [hload, Option.some.injEq] at hload'
      exact hload' ▸ hstores'
  | other hstr hint hmsz =>
    exact hplain hmsz fun o' htype _ => .other ((hflag htype).trans hstr)
      ((hflag htype).trans hint) ((hflag htype).trans hmsz)

theorem loadConfiguration_eq {expand : Block → Block} {reg : Registry}
    {lpOptions : List CmdlineOpt}
    (h : ∀ o ∈ lpOptions, ∃ o', loadOption expand reg o = some o' ∧ Loads reg o o') :
    ∃ lpOptions', loadConfiguration expand reg lpOptions = some lpOptions' ∧
      List.Forall₂ (Loads reg) lpOptions lpOptions' := by
  induction lpOptions with
  | nil => exact ⟨[], rfl, .nil⟩
  | cons o lpOptions ih =>
    obtain ⟨⟨o', ho, hloads⟩, hrest⟩ := List.forall_mem_cons.mp h
    obtain ⟨rest, hload, hall⟩ := ih hrest
    refine ⟨o' :: rest, ?_, .cons hloads hall⟩
    rw [loadConfiguration, ho, hload]
    rfl

/-- Where an option is saved. -/
def CmdlineOpt.key (o : CmdlineOpt) : Option Block × Block :=
  (o.szSubkey, o.szRegistry)

theorem saveOption_frame {reg reg' : Registry} {o : CmdlineOpt} {szSubkey : Option Block}
    {szValueName : Block} (h : saveOption reg o = some reg')
    (hkey : (szSubkey, szValueName) ≠ o.key) :
    reg' .paramSoftware szSubkey szValueName = reg .paramSoftware szSubkey szValueName := by
  have hset : ∀ value, reg.setValue .paramSoftware o.szSubkey o.szRegistry value .paramSoftware
      szSubkey szValueName = reg .paramSoftware szSubkey szValueName := by
    intro value
    unfold Registry.setValue
    rw [if_neg]
    intro hsame
    exact hkey (Prod.ext hsame.2.1 hsame.2.2)
  unfold saveOption at h
  split_ifs at h
  · cases h
    rfl
  · unfold registrySetStr at h
    split at h
    · cases h
      exact hset _
    · dsimp only at h
      split_ifs at h <;> cases h <;> exact hset _
  · cases h
    exact hset _
  · obtain ⟨data, _, rfl⟩ := Option.map_eq_some_iff.mp h
    exact hset _
  · cases h
    rfl

theorem saveConfiguration_frame {reg reg' : Registry} {lpOptions : List CmdlineOpt}
    {szSubkey : Option Block} {szValueName : Block}
    (h : saveConfiguration reg lpOptions = some reg')
    (hkey : (szSubkey, szValueName) ∉ lpOptions.map (·.key)) :
    reg' .paramSoftware szSubkey szValueName = reg .paramSoftware szSubkey szValueName := by
  induction lpOptions generalizing reg with
  | nil =>
    cases h
    rfl
  | cons o lpOptions ih =>
    rw [List.map_cons, List.mem_cons, not_or] at hkey
    unfold saveConfiguration at h
    rw [List.foldlM_cons] at h
    obtain ⟨reg₁, hsave, hrest⟩ := Option.bind_eq_some_iff.mp h
    rw [ih hrest hkey.2, saveOption_frame hsave hkey.1]

theorem registryGetMzStr_congr {reg reg' : Registry} {szSubkey : Option Block}
    {szValueName : Block}
    (h : reg' .paramSoftware szSubkey szValueName = reg .paramSoftware szSubkey szValueName) :
    registryGetMzStr reg' .paramSoftware szSubkey szValueName =
      registryGetMzStr reg .paramSoftware szSubkey szValueName := by
  unfold registryGetMzStr
  rw [h]

theorem registryGetNumber_congr {reg reg' : Registry} {szSubkey : Option Block}
    {szValueName : Block}
    (h : reg' .paramSoftware szSubkey szValueName = reg .paramSoftware szSubkey szValueName) :
    registryGetNumber reg' .paramSoftware szSubkey szValueName =
      registryGetNumber reg .paramSoftware szSubkey szValueName := by
  unfold registryGetNumber
  rw [h]

/-- Each option is saved under its own key: the value there is the one of the beginning
before it is saved, and the one of the end behind it. -/
theorem saveConfiguration_eq {lpOptions : List CmdlineOpt} (hkeys : (lpOptions.map (·.key)).Nodup)
    (hsavable : ∀ o ∈ lpOptions, Savable o) (reg : Registry) :
    ∃ reg', saveConfiguration reg lpOptions = some reg' ∧
      ∀ o ∈ lpOptions, ∃ before after, saveOption before o = some after ∧
        before .paramSoftware o.szSubkey o.szRegistry =
          reg .paramSoftware o.szSubkey o.szRegistry ∧
        reg' .paramSoftware o.szSubkey o.szRegistry =
          after .paramSoftware o.szSubkey o.szRegistry := by
  induction lpOptions generalizing reg with
  | nil => exact ⟨reg, rfl, nofun⟩
  | cons o lpOptions ih =>
    obtain ⟨hfresh, hkeys⟩ := List.nodup_cons.mp hkeys
    obtain ⟨ho, hsavable⟩ := List.forall_mem_cons.mp hsavable
    obtain ⟨reg₁, hsave⟩ := ho reg
    obtain ⟨reg', hrest, hall⟩ := ih hkeys hsavable reg₁
    refine ⟨reg', ?_, List.forall_mem_cons.mpr ⟨?_, ?_⟩⟩
    · unfold saveConfiguration
      rw [List.foldlM_cons, hsave]
      exact hrest
    · exact ⟨reg, reg₁, hsave, rfl, saveConfiguration_frame hrest hfresh⟩
    · intro o' ho'
      obtain ⟨before, after, hone, hbefore, hafter⟩ := hall o' ho'
      refine ⟨before, after, hone, ?_, hafter⟩
      rw [hbefore, saveOption_frame hsave]
      intro hsame
      apply hfresh
      show o.key ∈ _
      rw [← hsame]
      exact List.mem_map_of_mem (f := CmdlineOpt.key) ho'

end BoundaryEventSdk.Prunsrv
