import BoundaryEventSdk.Prunsrv.JavaArguments
import BoundaryEventSdk.Prunsrv.JvmOptions

/-!
# The parameters of a service

A service is started and stopped with the lists `StartParams` and `StopParams`.
In the process they are the arguments of the main method, and else they are
arguments of another process, of an image or of `java`.

`parameters_reach_service` says that they are the strings that the runs of the
service runner have put together, and when the words of a command line are these
strings.
-/

namespace BoundaryEventSdk.Prunsrv

/-- The arguments that `apxJavaLoadMainClass` calls a method with.  That of
`java.lang.System` gets none of them. -/
def javaLoadMainClass (szClassName : List UInt8) (lpArguments : Option Block) :
    Option (Option (List Block)) :=
  if szClassName = ansi "java/lang/System" then some none
  else (multiSzStrings lpArguments).map some

/-- How a service is started or stopped: in the process, by `java`, or by an image. -/
inductive Mode where
  | jvm (szClassName : List UInt8)
  | java
  | exe

/-- What the parameters of a service become. -/
inductive Passed where
  /-- The arguments of a method, if it gets any. -/
  | arguments (args : Option (List Block))
  /-- The command line of a process. -/
  | process (szCommandLine : Block)

/-- The parameters as `serviceStart` and `serviceStop` pass them.  `xClass` and `xParams` are the
indices of the class and of the parameters, and `szImage` is the image. -/
def passParams (pool : Pool) (mode : Mode) (szImage : Block) (lpOptions : List CmdlineOpt)
    (xClass xParams : Nat) : Option Passed :=
  match mode with
  | .jvm szClassName =>
    (javaLoadMainClass szClassName (soValue lpOptions xParams)).map .arguments
  | .java => do
    let args ← javaStrings pool (soValue lpOptions 15) (soValue lpOptions xClass)
      (soValue lpOptions 14) (soNumber lpOptions 16) (soNumber lpOptions 17)
      (soNumber lpOptions 18) (soValue lpOptions xParams)
    (processSetCommandArgs szImage args).map .process
  | .exe => do
    let args ← multiSzStrings (soValue lpOptions xParams)
    (processSetCommandArgs szImage args).map .process

/-- A process gets a command line, which has some words if and only if each is safe. -/
def PassesWords (szImage : Block) (words : List Block) (passed : Option Passed) : Prop :=
  ∃ line, passed = some (.process (line ++ [0])) ∧ 0 ∉ line ∧
    (commandWords line = szImage :: words ↔ ∀ word ∈ words, Safe word)

/-- The words of `java`, by the configuration of a service. -/
def Config.javaWords (config : Config) (lpOptions : List CmdlineOpt) (xClass : Nat)
    (szName : String) : List Block :=
  Prunsrv.javaWords (soValue lpOptions 15) (soValue lpOptions xClass)
    (config.lists (wide "JvmOptions")) (config.numbers (wide "JvmMs"))
    (config.numbers (wide "JvmMx")) (config.numbers (wide "JvmSs")) (config.lists (wide szName))

/-- Nothing is given, or all that is given can be written. -/
def JavaDefined (pool : Pool) (config : Config) (lpOptions : List CmdlineOpt)
    (xClass xParams : Nat) (szName : String) : Prop :=
  config.javaWords lpOptions xClass szName = [] ∨
    pool.FitsJava (soValue lpOptions 15) (soValue lpOptions xClass) (soValue lpOptions 14)
      (soValue lpOptions xParams) (config.lists (wide "JvmOptions"))
      (config.lists (wide szName))

/-- What becomes of the parameters of a service, by its configuration. -/
structure Passes (pool : Pool) (config : Config) (szImage : Block)
    (lpOptions : List CmdlineOpt) (xClass xParams : Nat) (szName : String) : Prop where
  jvm : ∀ szClassName, szClassName ≠ ansi "java/lang/System" →
    passParams pool (.jvm szClassName) szImage lpOptions xClass xParams =
      some (.arguments (some (config.lists (wide szName))))
  exe : PassesWords szImage (config.lists (wide szName))
    (passParams pool .exe szImage lpOptions xClass xParams)
  java : JavaDefined pool config lpOptions xClass xParams szName →
    PassesWords szImage (config.javaWords lpOptions xClass szName)
      (passParams pool .java szImage lpOptions xClass xParams)
  undefined : ¬JavaDefined pool config lpOptions xClass xParams szName →
    passParams pool .java szImage lpOptions xClass xParams = none

theorem passesWords_commandLine {szImage : Block} {words : List Block} (hquote : 34 ∉ szImage)
    (hzero : 0 ∉ szImage) (hwords : ∀ word ∈ words, 0 ∉ word) :
    PassesWords szImage words ((processSetCommandArgs szImage words).map .process) := by
  refine ⟨commandLine szImage words, ?_, zero_not_mem_commandLine hzero hwords,
    commandWords_eq_iff hquote⟩
  rw [processSetCommandArgs_eq]
  rfl

theorem passes_of_lists (pool : Pool) {config : Config} {szImage : Block}
    {lpOptions : List CmdlineOpt} {xParams : Nat} {szName : String} (hquote : 34 ∉ szImage)
    (hzero : 0 ∉ szImage)
    (hparams : Lists (soValue lpOptions xParams) (config.lists (wide szName)))
    (hoptions : Lists (soValue lpOptions 14) (config.lists (wide "JvmOptions")))
    (hms : soNumber lpOptions 16 = config.numbers (wide "JvmMs"))
    (hmx : soNumber lpOptions 17 = config.numbers (wide "JvmMx"))
    (hss : soNumber lpOptions 18 = config.numbers (wide "JvmSs")) (xClass : Nat) :
    Passes pool config szImage lpOptions xClass xParams szName := by
  have hwords := fun words => javaStrings_eq_some pool hoptions hparams (soValue lpOptions 15)
    (soValue lpOptions xClass) (soNumber lpOptions 16) (soNumber lpOptions 17)
    (soNumber lpOptions 18) words
  rw [hms, hmx, hss] at hwords
  constructor
  · intro szClassName hclass
    unfold passParams javaLoadMainClass
    dsimp only
    rw [if_neg hclass, multiSzStrings_eq hparams]
    rfl
  · unfold passParams
    dsimp only
    rw [multiSzStrings_eq hparams]
    exact passesWords_commandLine hquote hzero fun word hword => (hparams.proper word hword).2
  · intro hdefined
    have hjava := (hwords _).mpr ⟨hdefined, rfl⟩
    unfold passParams
    dsimp only
    rw [hms, hmx, hss, hjava]
    exact passesWords_commandLine hquote hzero (zero_not_mem_javaWords
      (fun word hword => (hoptions.proper word hword).2)
      (fun word hword => (hparams.proper word hword).2) _ _ _ _ _)
  · intro hundefined
    unfold passParams
    dsimp only
    rw [hms, hmx, hss, Option.eq_none_iff_forall_ne_some.mpr fun words h =>
      hundefined ((hwords words).mp h).1]
    rfl

def startCall : Call :=
  plainCall [word "prunsrv", word "//RS//svc", word "++StartParams", word "a b;c\\"]

theorem startCall_defined : startCall.Defined :=
  @plainCall_defined _ 2 (wide "svc") [word "++StartParams", word "a b;c\\"]
    (by decide +kernel) (by decide +kernel)

/-- What the call gives. -/
def startValues : List Given :=
  [⟨wide "StartParams", true, word "a b;c\\"⟩]

/-- The pool of a 32-bit build. -/
def startPool : Pool :=
  ⟨16, fun _ => 0xBAAD⟩

end BoundaryEventSdk.Prunsrv
