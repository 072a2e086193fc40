import Mathlib.Logic.Function.Basic
import BoundaryEventSdk.Prunsrv.Configuration

/-!
# Runs of the service runner

`main` as far as it changes the configuration of services: `//US` and `//IS` save
the options that are given, and `//DS` deletes them.

`Config` is what the lists and the numbers of a service should be, and
`Configs.step` what a run should do to them.  The strings that are kept of the
values of a call replace a list of the service, or they are added to it, and the
last number that is given replaces a number.  A variable of the environment takes
the place of what the command line gives.  Other services keep theirs.

`lists_kept` says that the registry has these lists and numbers after any runs,
and that no run reads or writes outside of a block.
-/

namespace BoundaryEventSdk.Prunsrv

open BoundaryEventSdk.C

/-! ## The program -/

/-- A run of the program: what it is given, and what Windows says. -/
structure Call where
  argv : List WString
  mh : Block
  iswalnum : WChar → Bool
  env : Block → EnvVar
  expand : Block → Block
  /-- The service manager does what it is asked for. -/
  scm : Bool
  /-- The values of a new service. -/
  created : Option Block → Block → Option RegValue

/-- The keys of a new service. -/
def newRegistry (created : Option Block → Block → Option RegValue) : Registry
  | .service => created
  | .paramSoftware => fun _ _ => none

/-- The commands that load the options. -/
def loadIfUsed (call : Call) (reg : Registry) (dwCmdIndex : Nat) (lpOptions : List CmdlineOpt) :
    Option (List CmdlineOpt) :=
  if dwCmdIndex < 6 then loadConfiguration call.expand reg lpOptions else some lpOptions

/-- What the command changes: `//US` and `//IS` save the options, `//US` after they are
loaded, and `//DS` deletes the keys.  `//US` installs a service that there is not. -/
def docmd (call : Call) (reg : Option Registry) (dwCmdIndex : Nat) (lpOptions : List CmdlineOpt) :
    Option (Option Registry) :=
  match reg with
  | some reg => do
    let lpOptions ← loadIfUsed call reg dwCmdIndex lpOptions
    if dwCmdIndex = 5 ∧ call.scm = true then (saveConfiguration reg lpOptions).map some
    else if dwCmdIndex = 7 ∧ call.scm = true then some none
    else some (some reg)
  | none =>
    if (dwCmdIndex = 5 ∨ dwCmdIndex = 6) ∧ call.scm = true then
      (saveConfiguration (newRegistry call.created) lpOptions).map some
    else some none

/-- What is parsed, with the environment. -/
def readOptions (call : Call) : Option (Option Cmdline) := do
  match ← cmdlineParse call.iswalnum call.mh call.argv options commands altcmds with
  | none => return none
  | some lpCmdline =>
    let lpOptions ← cmdlineLoadEnvVars call.env lpCmdline.lpOptions
    return some { lpCmdline with lpOptions := lpOptions }

def SIZ_RESMAX : Nat := 255

/-- The keys of the services. -/
abbrev Services := Block → Option Registry

section

-- Windows takes two names for the same if and only if they are folded to the same one.
variable (fold : Block → Block)

/-- `main`. -/
def main (services : Services) (call : Call) : Option Services := do
  match ← readOptions call with
  | none => return services
  | some lpCmdline =>
    if lpCmdline.szApplication.length ≤ SIZ_RESMAX then
      let name := fold lpCmdline.szApplication
      let reg ← docmd call (services name) lpCmdline.dwCmdIndex lpCmdline.lpOptions
      return Function.update services name reg
    else
      -- `apxCreateRegistryW` opens and creates no key.
      return services

/-- The options that `serviceMain` is run with: `//TS` and `//RS` run a service that there
is, when its options are loaded. -/
def serviceOptions (services : Services) (call : Call) : Option (Option (List CmdlineOpt)) := do
  match ← readOptions call with
  | none => return none
  | some lpCmdline =>
    if lpCmdline.szApplication.length ≤ SIZ_RESMAX ∧
        (lpCmdline.dwCmdIndex = 1 ∨ lpCmdline.dwCmdIndex = 2) then
      match services (fold lpCmdline.szApplication) with
      | some reg => (loadConfiguration call.expand reg lpCmdline.lpOptions).map some
      | none => return none
    else
      return none

end

/-! ## What the configuration should be -/

/-- The lists and the numbers of a service, by the names of the options. -/
structure Config where
  lists : Block → List Block
  numbers : Block → UInt32

/-- The configuration of a new service. -/
def Config.empty : Config :=
  ⟨fun _ => [], fun _ => 0⟩

/-- What a call does to a list.  A variable of the environment is added, whatever the command
line says. -/
def Call.change (call : Call) (values : List Given) (name : Block) : Change :=
  match readVariable call.env (names options) name with
  | some szVar => .add [szVar]
  | none => changeOf (values.filter fun g => g.name = name)

/-- The number that a call gives. -/
def Call.number (call : Call) (values : List Given) (name : Block) : Option UInt32 :=
  match readVariable call.env (names options) name with
  | some szVar => some (numberOf szVar.chars)
  | none => (values.filter fun g => g.name = name).getLast?.map fun g => numberOf g.value.chars

def Config.update (config : Config) (call : Call) (values : List Given) : Config where
  lists name := (call.change values name).apply (config.lists name)
  numbers name := (call.number values name).getD (config.numbers name)

/-- The command, the name of the service, and the words of the options. -/
def Call.command (call : Call) : Option (Nat × Block × List WString) :=
  match call.argv, splitLast 92 call.mh with
  | _ :: args, some (_, file) =>
    cmdlineCommand call.iswalnum (executable file) args commands altcmds
  | _, _ => none

/-- What a call that is accepted asks for. -/
structure Request where
  dwCmdIndex : Nat
  szApplication : Block
  values : List Given
  deriving DecidableEq

def Call.request (call : Call) : Option Request := do
  let (dwCmdIndex, szApplication, words) ← call.command
  let (values, _) ← given (· ∈ names options) words
  return ⟨dwCmdIndex, szApplication, values⟩

/-- The configuration of the service that a call asks for, after the call. -/
def Config.step (config : Option Config) (call : Call) (request : Request) : Option Config :=
  match call.scm, config with
  | false, _ => config
  | true, some config =>
    if request.dwCmdIndex = 5 then some (config.update call request.values)
    else if request.dwCmdIndex = 7 then none
    else some config
  | true, none =>
    if request.dwCmdIndex = 5 ∨ request.dwCmdIndex = 6 then
      some (Config.empty.update call request.values)
    else none

def Config.after (config : Option Config) (call : Call) : Option Config :=
  match call.request with
  | some request => Config.step config call request
  | none => config

/-- A call asks for a service. -/
def Call.isFor (fold : Block → Block) (name : Block) (call : Call) : Bool :=
  call.request.any fun request =>
    request.szApplication.length ≤ SIZ_RESMAX && fold request.szApplication == name

/-- The configurations of the services. -/
abbrev Configs := Block → Option Config

/-- The configurations after a run. -/
def Configs.step (fold : Block → Block) (configs : Configs) (call : Call) : Configs :=
  fun name => if call.isFor fold name then Config.after (configs name) call else configs name

/-- No number is given as a minus alone. -/
structure Call.Defined (call : Call) : Prop where
  words : ∀ dwCmdIndex szApplication words,
    call.command = some (dwCmdIndex, szApplication, words) →
    givesMinus (isNumber options) words = false
  environment : ∀ name szVar, isNumber options name = true →
    readVariable call.env (names options) name = some szVar → szVar.chars ≠ [45]

/-- The registry has the lists and the numbers of a configuration. -/
structure Represents (reg : Registry) (config : Config) : Prop where
  lists : ∀ o ∈ options, o.dwType = APXCMDOPT_MSZ ||| APXCMDOPT_REG →
    Lists (registryGetMzStr reg .paramSoftware o.szSubkey o.szRegistry) (config.lists o.szName)
  numbers : ∀ o ∈ options, o.has APXCMDOPT_INT = true →
    registryGetNumber reg .paramSoftware o.szSubkey o.szRegistry = config.numbers o.szName

/-- The service is there in both, or in neither. -/
def Agree : Option Registry → Option Config → Prop
  | some reg, some config => Represents reg config
  | none, none => True
  | _, _ => False

def Agrees (services : Services) (configs : Configs) : Prop :=
  ∀ name, Agree (services name) (configs name)

/-! ## Runs -/

theorem names_options : (names options).Nodup := by
  decide +kernel

theorem keys_options : (options.map (·.key)).Nodup := by
  decide +kernel

theorem szName_entry (szName szRegistry : String) (szSubkey : Option String) (dwType : UInt32)
    (dwValue : Nat) : (entry szName szRegistry szSubkey dwType dwValue).szName = wide szName :=
  rfl

/-- The kinds of the options of the table. -/
theorem options_cases : ∀ o ∈ options,
    (o.has APXCMDOPT_STR = true ∧ o.has APXCMDOPT_MSZ = false ∧ o.has APXCMDOPT_FOUND = false) ∨
    (o.has APXCMDOPT_STR = false ∧ o.has APXCMDOPT_INT = true ∧ o.has APXCMDOPT_MSZ = false) ∨
    (o.dwType = APXCMDOPT_MSZ ||| APXCMDOPT_REG ∧ o.szValue = none ∧ o.dwValue = 0) ∨
    (o.has APXCMDOPT_STR = false ∧ o.has APXCMDOPT_INT = false ∧ o.has APXCMDOPT_MSZ = false) := by
  decide +kernel

theorem implements_of_mem {o : CmdlineOpt} (ho : o ∈ options)
    (htype : o.dwType = APXCMDOPT_MSZ ||| APXCMDOPT_REG) : Implements .keep o := by
  have hmsz : o.has APXCMDOPT_MSZ = true := by
    unfold CmdlineOpt.has
    rw [htype]
    decide
  rcases options_cases o ho with h | h | h | h
  · exact absurd (h.2.1.symm.trans hmsz) (by decide)
  · exact absurd (h.2.2.symm.trans hmsz) (by decide)
  · exact ⟨h.1, h.2.1, h.2.2⟩
  · exact absurd (h.2.2.symm.trans hmsz) (by decide)

theorem ready_of_mem {o : CmdlineOpt} (ho : o ∈ options) : Ready o := by
  rcases options_cases o ho with h | h | h | h
  · exact .text h.1 h.2.1 fun hfound => absurd (h.2.2.symm.trans hfound) (by decide)
  · exact .number h.1 h.2.1 h.2.2
  · exact .list .keep ⟨h.1, h.2.1, h.2.2⟩
  · exact .other h.1 h.2.1 h.2.2

theorem isList_of_mem {o : CmdlineOpt} (ho : o ∈ options) (hmsz : o.has APXCMDOPT_MSZ = true) :
    o.dwType = APXCMDOPT_MSZ ||| APXCMDOPT_REG := by
  rcases options_cases o ho with h | h | h | h
  · exact absurd (h.2.1.symm.trans hmsz) (by decide)
  · exact absurd (h.2.2.symm.trans hmsz) (by decide)
  · exact h.1
  · exact absurd (h.2.2.symm.trans hmsz) (by decide)

theorem numbers_options : ∀ o ∈ options, o.has APXCMDOPT_INT = true →
    (o.has APXCMDOPT_STR = false ∧ o.has APXCMDOPT_INT = true ∧ o.has APXCMDOPT_MSZ = false ∧
      o.has APXCMDOPT_REG = true ∧ o.has APXCMDOPT_SRV = false) ∧
    o.has APXCMDOPT_FOUND = false := by
  decide +kernel

theorem takes_of_mem {o : CmdlineOpt} (ho : o ∈ options) (hint : o.has APXCMDOPT_INT = true) :
    Takes none o := by
  obtain ⟨hkind, hfound⟩ := numbers_options o ho hint
  exact ⟨hkind, hfound, nofun⟩

/-- An option of the table, and the same option before it is saved. -/
structure Prepared (reg : Registry) (change : Block → Change) (number : Block → Option UInt32)
    (o o' : CmdlineOpt) : Prop where
  key : o'.key = o.key
  savable : Savable o'
  stores : o.dwType = APXCMDOPT_MSZ ||| APXCMDOPT_REG → ∀ old,
    Lists (registryGetMzStr reg .paramSoftware o.szSubkey o.szRegistry) old →
    Stores o' old ((change o.szName).apply old)
  takes : o.has APXCMDOPT_INT = true → Takes (number o.szName) o'

theorem keys_of_prepared {reg : Registry} {change : Block → Change}
    {number : Block → Option UInt32} {lpOptions lpOptions' : List CmdlineOpt}
    (h : List.Forall₂ (Prepared reg change number) lpOptions lpOptions') :
    lpOptions'.map (·.key) = lpOptions.map (·.key) := by
  induction h with
  | nil => rfl
  | cons hfirst _ ih => exact congrArg₂ List.cons hfirst.key ih

theorem forall₂_left {α : Type} {R : α → α → Prop} {xs ys : List α} (h : List.Forall₂ R xs ys)
    {x : α} (hx : x ∈ xs) : ∃ y ∈ ys, R x y := by
  induction h with
  | nil => cases hx
  | cons hfirst _ ih =>
    rcases List.mem_cons.mp hx with rfl | hx
    · exact ⟨_, List.mem_cons_self, hfirst⟩
    · obtain ⟨y, hy, hxy⟩ := ih hx
      exact ⟨y, List.mem_cons_of_mem _ hy, hxy⟩

theorem forall₂_right {α : Type} {R : α → α → Prop} {xs ys : List α} (h : List.Forall₂ R xs ys)
    {y : α} (hy : y ∈ ys) : ∃ x ∈ xs, R x y :=
  forall₂_left (R := fun y x => R x y) h.flip hy

/-- The configuration that the registry has after the options are saved. -/
theorem save_represents {reg : Registry} {config : Config} {call : Call} {values : List Given}
    {lpOptions : List CmdlineOpt} (hreg : Represents reg config)
    (h : List.Forall₂ (Prepared reg (call.change values) (call.number values)) options
      lpOptions) :
    ∃ reg', saveConfiguration reg lpOptions = some reg' ∧
      Represents reg' (config.update call values) := by
  have hkeys : (lpOptions.map (·.key)).Nodup := by
    rw [keys_of_prepared h]
    exact keys_options
  have hsavable : ∀ o' ∈ lpOptions, Savable o' := by
    intro o' ho'
    obtain ⟨o, _, hprepared⟩ := forall₂_right h ho'
    exact hprepared.savable
  obtain ⟨reg', hsave, hall⟩ := saveConfiguration_eq hkeys hsavable reg
  refine ⟨reg', hsave, fun o ho htype => ?_, fun o ho hint => ?_⟩
  · obtain ⟨o', ho', hprepared⟩ := forall₂_left h ho
    obtain ⟨hsubkey, hregistry⟩ := Prod.mk.inj hprepared.key
    obtain ⟨before, after, hone, hbefore, hafter⟩ := hall o' ho'
    have hold := hreg.lists o ho htype
    obtain ⟨after', hone', hnew⟩ := (hprepared.stores htype _ hold).save before
    rw [hone, Option.some.injEq] at hone'
    subst hone'
    rw [← hsubkey, ← hregistry] at hold ⊢
    rw [registryGetMzStr_congr hafter]
    apply hnew
    rw [registryGetMzStr_congr hbefore]
    exact hold
  · obtain ⟨o', ho', hprepared⟩ := forall₂_left h ho
    obtain ⟨hsubkey, hregistry⟩ := Prod.mk.inj hprepared.key
    obtain ⟨before, after, hone, hbefore, hafter⟩ := hall o' ho'
    have hold := hreg.numbers o ho hint
    obtain ⟨after', hone', hnew⟩ := (hprepared.takes hint).save before
    rw [hone, Option.some.injEq] at hone'
    subst hone'
    rw [← hsubkey, ← hregistry] at hold ⊢
    rw [registryGetNumber_congr hafter, hnew, registryGetNumber_congr hbefore, hold]
    rfl

/-- An option of the table, and the same option after the command line and the
environment. -/
structure IsSet (change : Block → Change) (number : Block → Option UInt32) (o o' : CmdlineOpt) :
    Prop where
  static : o'.szName = o.szName ∧ o'.szRegistry = o.szRegistry ∧ o'.szSubkey = o.szSubkey
  msz : o'.has APXCMDOPT_MSZ = o.has APXCMDOPT_MSZ
  ready : Ready o'
  list : o.dwType = APXCMDOPT_MSZ ||| APXCMDOPT_REG → Implements (change o.szName) o'
  takes : o.has APXCMDOPT_INT = true → Takes (number o.szName) o'

theorem forall₂_mem {α : Type} {R : α → α → Prop} {xs ys : List α} (h : List.Forall₂ R xs ys) :
    List.Forall₂ (fun x y => x ∈ xs ∧ R x y) xs ys := by
  induction h with
  | nil => exact .nil
  | cons hfirst _ ih =>
    refine .cons ⟨List.mem_cons_self, hfirst⟩ (ih.imp ?_)
    rintro x y ⟨hx, hxy⟩
    exact ⟨List.mem_cons_of_mem _ hx, hxy⟩

theorem isSet_of_after {call : Call} {values : List Given} {o o₁ o' : CmdlineOpt}
    (ho : o ∈ options) (hafter : After values o o₁)
    (hvar : AfterVariable (readVariable call.env (names options) o.szName) o₁ o')
    (hready : Ready o') : IsSet (call.change values) (call.number values) o o' := by
  obtain ⟨hname, hregistry, hsubkey⟩ := hafter.static
  have hchange : o.dwType = APXCMDOPT_MSZ ||| APXCMDOPT_REG →
      Implements (changeOf (o.ofName values)) o₁ := fun htype =>
    implements_after (implements_of_mem ho htype) hafter
  have hnumber : o.has APXCMDOPT_INT = true →
      Takes ((o.ofName values).getLast?.map fun g => numberOf g.value.chars) o₁ := fun hint =>
    takes_after (takes_of_mem ho hint) hafter
  have hmsz := @After.has values o o₁ APXCMDOPT_MSZ hafter (by decide) (by decide) (by decide)
  cases hszVar : readVariable call.env (names options) o.szName with
  | none =>
    rw [hszVar] at hvar
    have hsame : o' = o₁ := hvar
    subst hsame
    refine ⟨⟨hname, hregistry, hsubkey⟩, hmsz, hready, fun htype => ?_, fun hint => ?_⟩
    · unfold Call.change
      rw [hszVar]
      exact hchange htype
    · unfold Call.number
      rw [hszVar]
      exact hnumber hint
  | some szVar =>
    rw [hszVar] at hvar
    have hload : o₁.loadEnv szVar = some o' := hvar
    obtain ⟨hname', hregistry', hsubkey'⟩ := CmdlineOpt.loadEnv_static hload
    refine ⟨⟨hname'.trans hname, hregistry'.trans hregistry, hsubkey'.trans hsubkey⟩,
      (CmdlineOpt.loadEnv_msz hload).trans hmsz, hready, fun htype => ?_, fun hint => ?_⟩
    · obtain ⟨o'', hload', hstep⟩ := (hchange htype).loadEnv szVar
      rw [hload, Option.some.injEq] at hload'
      subst hload'
      unfold Call.change
      rw [hszVar]
      exact hstep
    · unfold Call.number
      rw [hszVar]
      exact (hnumber hint).loadEnv hload

/-- The options that are loaded. -/
theorem prepared_of_load {reg : Registry} {config : Config} {change : Block → Change}
    {number : Block → Option UInt32} {lpOptions : List CmdlineOpt} (hreg : Represents reg config)
    (expand : Block → Block)
    (h : List.Forall₂ (fun o o' => o ∈ options ∧ IsSet change number o o') options lpOptions) :
    ∃ lpOptions', loadConfiguration expand reg lpOptions = some lpOptions' ∧
      List.Forall₂ (fun o o' => Prepared reg change number o o' ∧
        (o.has APXCMDOPT_INT = true →
          o'.dwValue = ((number o.szName).getD (config.numbers o.szName)).toNat))
        options lpOptions' := by
  have hloads : ∀ o' ∈ lpOptions, ∃ o'', loadOption expand reg o' = some o'' ∧
      Loads reg o' o'' := by
    intro o' ho'
    obtain ⟨o, _, ho, hsets⟩ := forall₂_right h ho'
    apply hsets.ready.load expand
    intro change' hlist
    have htype := isList_of_mem ho (hsets.msz.symm.trans hlist.has.2.2.1)
    rw [hsets.static.2.1, hsets.static.2.2]
    exact ⟨_, hreg.lists o ho htype⟩
  obtain ⟨lpOptions', hload, hall⟩ := loadConfiguration_eq hloads
  refine ⟨lpOptions', hload, forall₂_comp ?_ h hall⟩
  rintro o o' o'' ⟨ho, hsets⟩ hload
  obtain ⟨_, hregistry, hsubkey⟩ := hsets.static
  obtain ⟨_, hregistry', hsubkey'⟩ := hload.static
  refine ⟨⟨Prod.ext (hsubkey'.trans hsubkey) (hregistry'.trans hregistry), hload.savable,
    fun htype old hold => ?_, fun hint => (hload.number _ (hsets.takes hint)).1⟩, fun hint => ?_⟩
  · apply hload.stores _ _ (hsets.list htype)
    rw [hsubkey, hregistry]
    exact hold
  · rw [(hload.number _ (hsets.takes hint)).2, hsubkey, hregistry, hreg.numbers o ho hint]

/-- The options of a service that is installed. -/
theorem prepared_new {created : Option Block → Block → Option RegValue}
    {change : Block → Change} {number : Block → Option UInt32} {lpOptions : List CmdlineOpt}
    (h : List.Forall₂ (fun o o' => o ∈ options ∧ IsSet change number o o') options lpOptions) :
    List.Forall₂ (Prepared (newRegistry created) change number) options lpOptions := by
  apply h.imp
  rintro o o' ⟨_, hsets⟩
  obtain ⟨_, hregistry, hsubkey⟩ := hsets.static
  refine ⟨Prod.ext hsubkey hregistry, hsets.ready.savable, fun htype old hold => ?_,
    hsets.takes⟩
  have hnil : old = [] := hold
  subst hnil
  exact (hsets.list htype).stores

theorem represents_new (created : Option Block → Block → Option RegValue) :
    Represents (newRegistry created) Config.empty :=
  ⟨fun _ _ _ => rfl, fun _ _ _ => rfl⟩

theorem docmd_step {state : Option Registry} {config : Option Config} (h : Agree state config)
    (call : Call) (request : Request) {lpOptions : List CmdlineOpt}
    (hsets : List.Forall₂ (fun o o' => o ∈ options ∧
      IsSet (call.change request.values) (call.number request.values) o o') options lpOptions) :
    ∃ state', docmd call state request.dwCmdIndex lpOptions = some state' ∧
      Agree state' (Config.step config call request) := by
  unfold docmd Config.step
  generalize request.dwCmdIndex = dwCmdIndex
  cases state with
  | some reg =>
    cases config with
    | none => cases h
    | some config =>
      obtain ⟨lpOptions', hload, hprepared⟩ := prepared_of_load h call.expand hsets
      obtain ⟨reg', hsave, hnew⟩ := save_represents h (hprepared.imp fun _ _ h => h.1)
      have hload : ∃ lpOptions', loadIfUsed call reg dwCmdIndex lpOptions = some lpOptions' ∧
          (dwCmdIndex = 5 → saveConfiguration reg lpOptions' = some reg') := by
        unfold loadIfUsed
        split_ifs with hindex
        · exact ⟨lpOptions', hload, fun _ => hsave⟩
        · exact ⟨lpOptions, rfl, fun h => absurd (by omega) hindex⟩
      obtain ⟨lpOptions', hload, hsave⟩ := hload
      dsimp only
      rw [hload, Option.bind_eq_bind, Option.bind_some]
      cases hscm : call.scm with
      | false =>
        rw [if_neg (by simp), if_neg (by simp)]
        exact ⟨some reg, rfl, h⟩
      | true =>
        dsimp only
        by_cases hupdate : dwCmdIndex = 5
        · rw [if_pos ⟨hupdate, rfl⟩, if_pos hupdate, hsave hupdate]
          exact ⟨some reg', rfl, hnew⟩
        rw [if_neg fun h => hupdate h.1, if_neg hupdate]
        by_cases hdelete : dwCmdIndex = 7
        · rw [if_pos ⟨hdelete, rfl⟩, if_pos hdelete]
          exact ⟨none, rfl, trivial⟩
        · rw [if_neg fun h => hdelete h.1, if_neg hdelete]
          exact ⟨some reg, rfl, h⟩
  | none =>
    cases config with
    | some config => cases h
    | none =>
      obtain ⟨reg', hsave, hnew⟩ :=
        save_represents (represents_new call.created) (prepared_new hsets)
      dsimp only
      cases hscm : call.scm with
      | false =>
        rw [if_neg (by simp)]
        exact ⟨none, rfl, trivial⟩
      | true =>
        rw [hsave]
        by_cases hindex : dwCmdIndex = 5 ∨ dwCmdIndex = 6
        · rw [if_pos ⟨hindex, rfl⟩]
          refine ⟨some reg', rfl, ?_⟩
          dsimp only
          rw [if_pos hindex]
          exact hnew
        · rw [if_neg fun h => hindex h.1]
          refine ⟨none, rfl, ?_⟩
          dsimp only
          rw [if_neg hindex]
          trivial

theorem cmdlineParse_of_none {call : Call} (h : call.command = none) :
    cmdlineParse call.iswalnum call.mh call.argv options commands altcmds = some none := by
  unfold Call.command at h
  unfold cmdlineParse
  cases hargv : call.argv with
  | nil => rfl
  | cons _ args =>
    cases hsplit : splitLast 92 call.mh with
    | none => rfl
    | some split =>
      rw [hargv, hsplit] at h
      dsimp only at h ⊢
      rw [h]

theorem cmdlineParse_of_some {call : Call} {dwCmdIndex : Nat} {szApplication : Block}
    {words : List WString} (h : call.command = some (dwCmdIndex, szApplication, words)) :
    ∃ szExePath szExecutable,
      cmdlineParse call.iswalnum call.mh call.argv options commands altcmds =
        (parseOptions words options).map (·.map fun parsed =>
          ⟨parsed.1, call.mh, szExecutable, szExePath, szApplication, dwCmdIndex, parsed.2⟩) := by
  unfold Call.command at h
  unfold cmdlineParse
  cases hargv : call.argv with
  | nil =>
    rw [hargv] at h
    cases h
  | cons _ args =>
    cases hsplit : splitLast 92 call.mh with
    | none =>
      rw [hargv, hsplit] at h
      cases h
    | some split =>
      rw [hargv, hsplit] at h
      dsimp only at h ⊢
      rw [h]
      exact ⟨_, _, rfl⟩

/-- A call that is not accepted changes nothing. -/
theorem readOptions_refused {call : Call} (h : call.request = none) (hdefined : call.Defined) :
    readOptions call = some none := by
  unfold readOptions
  cases hcommand : call.command with
  | none =>
    rw [cmdlineParse_of_none hcommand]
    rfl
  | some command =>
    obtain ⟨dwCmdIndex, szApplication, words⟩ := command
    obtain ⟨szExePath, szExecutable, hparse⟩ := cmdlineParse_of_some hcommand
    obtain ⟨parsed, hoptions, _⟩ := parseOptions_ready (fun o ho => ready_of_mem ho)
      (hdefined.words _ _ words hcommand)
    rw [hparse, hoptions]
    cases parsed with
    | none => rfl
    | some parsed =>
      obtain ⟨lpOptions, rest⟩ := parsed
      obtain ⟨values, hgiven, _⟩ := parseOptions_accepts names_options hoptions
      unfold Call.request at h
      rw [hcommand, Option.bind_eq_bind, Option.bind_some] at h
      dsimp only at h
      rw [hgiven] at h
      cases h

/-- The options of a call that is accepted. -/
theorem readOptions_accepted {call : Call} {request : Request} (h : call.request = some request)
    (hdefined : call.Defined) :
    ∃ lpCmdline, readOptions call = some (some lpCmdline) ∧
      lpCmdline.dwCmdIndex = request.dwCmdIndex ∧
      lpCmdline.szApplication = request.szApplication ∧
      List.Forall₂ (fun o o' => o ∈ options ∧
        IsSet (call.change request.values) (call.number request.values) o o')
        options lpCmdline.lpOptions := by
  unfold Call.request at h
  obtain ⟨⟨dwCmdIndex, szApplication, words⟩, hcommand, h⟩ := Option.bind_eq_some_iff.mp h
  obtain ⟨⟨values, rest⟩, hgiven, h⟩ := Option.bind_eq_some_iff.mp h
  cases h
  obtain ⟨szExePath, szExecutable, hparse⟩ := cmdlineParse_of_some hcommand
  obtain ⟨parsed, hoptions, hready⟩ := parseOptions_ready (fun o ho => ready_of_mem ho)
    (hdefined.words _ _ words hcommand)
  cases parsed with
  | none =>
    have hrefused := parseOptions_refuses names_options hoptions
    rw [hgiven] at hrefused
    cases hrefused
  | some parsed =>
    obtain ⟨lpOptions, rest'⟩ := parsed
    obtain ⟨values', hgiven', hafter⟩ := parseOptions_accepts names_options hoptions
    rw [hgiven, Option.some.injEq, Prod.mk.injEq] at hgiven'
    obtain ⟨rfl, rfl⟩ := hgiven'
    have hnames := names_of_after hafter
    have hnumber : ∀ o ∈ lpOptions, o.has APXCMDOPT_INT = true →
        isNumber options o.szName = true := by
      intro o ho hint
      obtain ⟨o₀, ho₀, hchanged⟩ := forall₂_right hafter ho
      have hsame := @After.has values o₀ o APXCMDOPT_INT hchanged (by decide) (by decide)
        (by decide)
      apply List.any_eq_true.mpr
      refine ⟨o₀, ho₀, ?_⟩
      rw [hchanged.static.1, ← hsame, hint, beq_self_eq_true]
      rfl
    obtain ⟨lpOptions', hload, hvars⟩ := @cmdlineLoadEnvVars_eq call.env lpOptions
      (readVariable call.env (names options)) (hnames ▸ names_options)
      (fun o _ => by rw [hnames]) (hready lpOptions rest rfl)
      (fun o ho hint szVar => hdefined.environment o.szName szVar (hnumber o ho hint))
    refine ⟨⟨lpOptions', call.mh, szExecutable, szExePath, szApplication, dwCmdIndex, rest⟩, ?_,
      rfl, rfl, forall₂_comp ?_ (forall₂_mem hafter) hvars⟩
    · unfold readOptions
      rw [hparse, hoptions]
      show (cmdlineLoadEnvVars call.env lpOptions).bind _ = _
      rw [hload]
      rfl
    · rintro o o₁ o' ⟨ho, hchanged⟩ ⟨hvar, hready'⟩
      rw [hchanged.static.1] at hvar
      exact ⟨ho, isSet_of_after ho hchanged hvar hready'⟩

/-- One run. -/
theorem main_step {fold : Block → Block} {services : Services} {configs : Configs}
    (h : Agrees services configs) {call : Call} (hdefined : call.Defined) :
    ∃ services', main fold services call = some services' ∧
      Agrees services' (configs.step fold call) := by
  unfold main Configs.step Call.isFor Config.after
  cases hrequest : call.request with
  | none =>
    rw [readOptions_refused hrequest hdefined]
    exact ⟨services, rfl, h⟩
  | some request =>
    obtain ⟨lpCmdline, hread, hindex, hname, hsets⟩ := readOptions_accepted hrequest hdefined
    rw [hread, Option.bind_eq_bind, Option.bind_some]
    dsimp only
    rw [hname, hindex]
    by_cases hlength : request.szApplication.length ≤ SIZ_RESMAX
    · obtain ⟨state', hdocmd, hstep⟩ :=
        docmd_step (h (fold request.szApplication)) call request hsets
      rw [if_pos hlength, hdocmd]
      refine ⟨_, rfl, fun name => ?_⟩
      dsimp only
      rw [Option.any_some, decide_eq_true hlength, Bool.true_and]
      by_cases hsame : fold request.szApplication = name
      · subst hsame
        rw [Function.update_self, if_pos (beq_self_eq_true _)]
        exact hstep
      · rw [Function.update_of_ne (fun h => hsame h.symm), if_neg (by simpa using hsame)]
        exact h name
    · rw [if_neg hlength]
      refine ⟨services, rfl, fun name => ?_⟩
      dsimp only
      rw [Option.any_some, decide_eq_false hlength, Bool.false_and, if_neg (by decide)]
      exact h name

theorem runs_agree (fold : Block → Block) {services : Services} {configs : Configs}
    (h : Agrees services configs) {calls : List Call} (hdefined : ∀ call ∈ calls, call.Defined) :
    ∃ services', calls.foldlM (main fold) services = some services' ∧
      Agrees services' (calls.foldl (Configs.step fold) configs) := by
  induction calls generalizing services configs with
  | nil => exact ⟨services, rfl, h⟩
  | cons call calls ih =>
    obtain ⟨hcall, hcalls⟩ := List.forall_mem_cons.mp hdefined
    obtain ⟨services₁, hmain, hstep⟩ := main_step h hcall
    obtain ⟨services', hrun, hholds⟩ := ih hstep hcalls
    refine ⟨services', ?_, hholds⟩
    rw [List.foldlM_cons, hmain]
    exact hrun

theorem forall₂_getElem? {α : Type} {R : α → α → Prop} {xs ys : List α}
    (h : List.Forall₂ R xs ys) {i : Nat} {x : α} (hx : xs[i]? = some x) :
    ∃ y, ys[i]? = some y ∧ R x y := by
  induction h generalizing i with
  | nil => cases hx
  | cons hfirst _ ih =>
    cases i with
    | zero =>
      cases hx
      exact ⟨_, rfl, hfirst⟩
    | succ i => exact ih hx

/-- `SO_JVMOPTIONS` and the like. -/
def soValue (lpOptions : List CmdlineOpt) (x : Nat) : Option Block :=
  lpOptions[x]?.bind (·.szValue)

/-- `SO_JVMMS` and the like. -/
def soNumber (lpOptions : List CmdlineOpt) (x : Nat) : UInt32 :=
  UInt32.ofNat ((lpOptions[x]?.map (·.dwValue)).getD 0)

/-- The options that a service is run with: those of the service, and what the call itself
gives. -/
theorem serviceOptions_eq {fold : Block → Block} {services : Services} {configs : Configs}
    (h : Agrees services configs) {call : Call} (hdefined : call.Defined) {request : Request}
    (hrequest : call.request = some request)
    (hindex : request.dwCmdIndex = 1 ∨ request.dwCmdIndex = 2)
    (hlength : request.szApplication.length ≤ SIZ_RESMAX) {config : Config}
    (hconfig : configs (fold request.szApplication) = some config) :
    ∃ lpOptions, serviceOptions fold services call = some (some lpOptions) ∧
      (∀ x o, options[x]? = some o → o.dwType = APXCMDOPT_MSZ ||| APXCMDOPT_REG →
        Lists (soValue lpOptions x) ((config.update call request.values).lists o.szName)) ∧
      ∀ x o, options[x]? = some o → o.has APXCMDOPT_INT = true →
        soNumber lpOptions x = (config.update call request.values).numbers o.szName := by
  obtain ⟨lpCmdline, hread, hsame, hname, hsets⟩ := readOptions_accepted hrequest hdefined
  have hservice := h (fold request.szApplication)
  rw [hconfig] at hservice
  unfold serviceOptions
  rw [hread, Option.bind_eq_bind, Option.bind_some]
  dsimp only
  rw [hname, hsame, if_pos ⟨hlength, hindex⟩]
  cases hreg : services (fold request.szApplication) with
  | none =>
    rw [hreg] at hservice
    cases hservice
  | some reg =>
    rw [hreg] at hservice
    have hservice : Represents reg config := hservice
    obtain ⟨lpOptions, hload, hprepared⟩ := prepared_of_load hservice call.expand hsets
    dsimp only
    refine ⟨lpOptions, by rw [hload]; rfl, fun x o ho htype => ?_, fun x o ho hint => ?_⟩
    · obtain ⟨o', ho', hstores, _⟩ := forall₂_getElem? hprepared ho
      unfold soValue
      rw [ho', Option.bind_some]
      exact (hstores.stores htype _
        (hservice.lists o (List.mem_of_getElem? ho) htype)).value
    · obtain ⟨o', ho', _, hvalue⟩ := forall₂_getElem? hprepared ho
      unfold soNumber
      rw [ho', Option.map_some, Option.getD_some, hvalue hint, UInt32.ofNat_toNat]
      rfl

theorem foldl_configs_step (fold : Block → Block) (calls : List Call) (configs : Configs)
    (name : Block) :
    calls.foldl (Configs.step fold) configs name =
      (calls.filter (·.isFor fold name)).foldl Config.after (configs name) := by
  induction calls generalizing configs with
  | nil => rfl
  | cons call calls ih =>
    rw [List.foldl_cons, ih]
    unfold Configs.step
    cases hfor : call.isFor fold name with
    | true =>
      rw [List.filter_cons_of_pos hfor, if_pos rfl]
      rfl
    | false => rw [List.filter_cons_of_neg (by rw [hfor]; decide), if_neg (by decide)]

/-- Whatever runs there are, and in whatever order: the registry has the lists and the
numbers that the calls for a service put together, and no call for another one changes
them. -/
theorem lists_kept (fold : Block → Block) {services : Services} {configs : Configs}
    (h : Agrees services configs) {calls : List Call} (hdefined : ∀ call ∈ calls, call.Defined) :
    ∃ services', calls.foldlM (main fold) services = some services' ∧
      ∀ name, Agree (services' name)
        ((calls.filter (·.isFor fold name)).foldl Config.after (configs name)) := by
  obtain ⟨services', hrun, hagrees⟩ := runs_agree fold h hdefined
  refine ⟨services', hrun, fun name => ?_⟩
  rw [← foldl_configs_step]
  exact hagrees name

/-- A call without variables of the environment, of which nothing fails. -/
def plainCall (argv : List WString) : Call where
  argv := argv
  mh := wide "C:\\bin\\prunsrv.exe"
  iswalnum := fun _ => true
  env := fun _ => .notFound
  expand := id
  scm := true
  created := fun _ _ => none

theorem readVariable_notFound (szNames : List Block) (name : Block) :
    readVariable (fun _ => .notFound) szNames name = none := by
  induction szNames with
  | nil => rfl
  | cons szName szNames ih => exact ih

theorem plainCall_defined {argv : List WString} {dwCmdIndex : Nat} {szApplication : Block}
    {words : List WString}
    (h : (plainCall argv).command = some (dwCmdIndex, szApplication, words))
    (hwords : givesMinus (isNumber options) words = false) : (plainCall argv).Defined where
  words dwCmdIndex' szApplication' words' hcommand := by
    rw [h] at hcommand
    cases hcommand
    exact hwords
  environment name szVar _ hread := by
    rw [show (plainCall argv).env = fun _ => .notFound from rfl, readVariable_notFound] at hread
    cases hread

def installCall : Call :=
  plainCall [word "prunsrv", word "//IS//svc", word "++JvmOptions=-Xa", word "--JvmMx=64"]

def otherCall : Call :=
  plainCall [word "prunsrv", word "//IS//other", word "--JvmOptions=-Xz", word "--JvmMx=1"]

def updateCall : Call :=
  plainCall [word "prunsrv", word "update", word "svc", word "++JvmOptions", word "-Xb;'-Xc;d'",
    word "++JvmOptions=-Xe", word "++JvmMx", word "256"]

theorem installCall_defined : installCall.Defined :=
  @plainCall_defined _ 6 (wide "svc") [word "++JvmOptions=-Xa", word "--JvmMx=64"]
    (by decide +kernel) (by decide +kernel)

theorem otherCall_defined : otherCall.Defined :=
  @plainCall_defined _ 6 (wide "other") [word "--JvmOptions=-Xz", word "--JvmMx=1"]
    (by decide +kernel) (by decide +kernel)

theorem updateCall_defined : updateCall.Defined :=
  @plainCall_defined _ 5 (wide "svc") [word "++JvmOptions", word "-Xb;'-Xc;d'",
    word "++JvmOptions=-Xe", word "++JvmMx", word "256"] (by decide +kernel) (by decide +kernel)

theorem calls_defined : ∀ call ∈ [installCall, otherCall, updateCall], call.Defined :=
  List.forall_mem_cons.mpr ⟨installCall_defined, List.forall_mem_cons.mpr ⟨otherCall_defined,
    List.forall_mem_cons.mpr ⟨updateCall_defined, nofun⟩⟩⟩

/-- A service is installed with an option, another one is installed, and more options are
added to the first one.  The last of them is lost, because the one before it has single
quotes. -/
theorem lists_kept_added :
    (∃ services', [installCall, otherCall, updateCall].foldlM (main id) (fun _ => none) =
        some services' ∧
      ∀ name, Agree (services' name) (([installCall, otherCall, updateCall].filter
        (·.isFor id name)).foldl Config.after none)) ∧
    (([installCall, otherCall, updateCall].filter (·.isFor id (wide "svc"))).foldl
      Config.after none).map (fun config =>
        (config.lists (wide "JvmOptions"), config.numbers (wide "JvmMx"))) =
      some ([wide "-Xa", wide "-Xb", wide "-Xc;d"], 256) :=
  ⟨@lists_kept id (fun _ => none) (fun _ => none) (fun _ => trivial) _ calls_defined,
    by decide +kernel⟩

/-- The configuration of the service, after it is installed and updated. -/
def installedConfig : Config :=
  ([installCall, otherCall, updateCall].foldl (Configs.step id) (fun _ => none)
    (wide "svc")).get (by decide +kernel)

end BoundaryEventSdk.Prunsrv
