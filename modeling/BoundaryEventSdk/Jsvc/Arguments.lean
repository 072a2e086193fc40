import BoundaryEventSdk.C.Strtol

/-!
# The command line of `jsvc`

`parse` reads the words of the command line from left to right.  It tries the
tests of `options` in their order on each word; the options of the virtual
machine are kept as they are, and the first word that is no option is the class
to invoke, with the words behind it as its arguments.

* `parse_eq_ok` describes what is parsed: the class and its arguments are the
  end of the command line, and every option of the virtual machine comes from a
  word before it.  `opts` and `args` never get more words than they have room
  for, which is the number of words of the command line.
* `WellFormed` is what holds of the result, and `commandLine` writes a
  well-formed result as a command line.  `parse_commandLine` reads it back, so
  these are all the results that there are.
-/

namespace BoundaryEventSdk.Jsvc

open BoundaryEventSdk.C

/-- A word of the command line, without its terminating zero. -/
abbrev Word := List UInt8

/-- A string literal of the source. -/
def ascii (text : String) : Word :=
  text.toList.map fun c => UInt8.ofNat c.toNat

/-- `arg_data`, with the words of `opts` and `args` as lists, and `log_debug_flag`,
which `parse` sets too. -/
structure ArgData where
  pidf : Word := ascii "/var/run/jsvc.pid"
  user : Option Word := none
  name : Option Word := none
  home : Option Word := none
  cwd : Word := ascii "/"
  opts : List Word := []
  clas : Option Word := none
  args : List Word := []
  dtch : Bool := true
  vers : Bool := false
  vershow : Bool
  help : Bool := false
  chck : Bool := false
  stop : Bool := false
  wait : Int := 0
  install : Bool := false
  remove : Bool := false
  service : Bool := false
  outfile : Word := ascii "/dev/null"
  errfile : Word := ascii "/dev/null"
  procname : Word := ascii "jsvc.exec"
  redirectstdin : Bool := true
  umask : Int := 63
  log_debug_flag : Bool := false
  deriving DecidableEq

/-- A field that an option sets to the next word. -/
inductive Setting where
  | name | home | user | cwd | pidf | outfile | errfile | procname
  deriving DecidableEq

/-- What is logged when there is no next word. -/
def Setting.message : Setting → Word
  | name => ascii "Invalid Java VM name specified"
  | home => ascii "Invalid Java Home specified"
  | user => ascii "Invalid user name specified"
  | cwd => ascii "Invalid working directory specified"
  | pidf => ascii "Invalid PID file specified"
  | outfile => ascii "Invalid Output File specified"
  | errfile => ascii "Invalid Error File specified"
  | procname => ascii "Invalid process name specified"

def Setting.set (value : Word) (s : ArgData) : Setting → ArgData
  | name => { s with name := some value }
  | home => { s with home := some value }
  | user => { s with user := some value }
  | cwd => { s with cwd := value }
  | pidf => { s with pidf := value }
  | outfile => { s with outfile := value }
  | errfile => { s with errfile := value }
  | procname => { s with procname := value }

/-- An option without a next word. -/
inductive Flag where
  | client | server | version | showversion | unsupported | debug | stop | check | nodetach
  | keepstdin | service | install | remove
  deriving DecidableEq

def Flag.set (s : ArgData) : Flag → ArgData
  | client => { s with name := some (ascii "client") }
  | server => { s with name := some (ascii "server") }
  | version => { s with vers := true, dtch := false }
  | showversion => { s with vershow := true }
  | unsupported => s
  | debug => { s with log_debug_flag := true }
  | stop => { s with stop := true }
  | check => { s with chck := true, dtch := false }
  | nodetach => { s with dtch := false }
  | keepstdin => { s with redirectstdin := false }
  | service => { s with service := true }
  | install => { s with install := true }
  | remove => { s with remove := true }

/-- What `parse` does with a word. -/
inductive Kind where
  | classpath
  | setting (field : Setting)
  | flag (flag : Flag)
  | help
  | wait
  | umask
  /-- `-D` alone. -/
  | noProperty
  | property
  /-- An option that is kept for the virtual machine. -/
  | keep
  deriving DecidableEq

/-- The test of a branch: `!strcmp(argv[x], text)`, or `!strncmp` with the length of the
text. -/
inductive Test where
  | strcmp (text : Word)
  | strncmp (text : Word)

def Test.text : Test → Word
  | strcmp text => text
  | strncmp text => text

def Test.holds (word : Word) : Test → Bool
  | strcmp text => word == text
  | strncmp text => text.isPrefixOf word

/-- The branches of the loop. -/
def options : List (Test × Kind) := [
  (.strcmp (ascii "-cp"), .classpath),
  (.strcmp (ascii "-classpath"), .classpath),
  (.strcmp (ascii "-jvm"), .setting .name),
  (.strcmp (ascii "-client"), .flag .client),
  (.strcmp (ascii "-server"), .flag .server),
  (.strcmp (ascii "-home"), .setting .home),
  (.strcmp (ascii "-java-home"), .setting .home),
  (.strcmp (ascii "-user"), .setting .user),
  (.strcmp (ascii "-cwd"), .setting .cwd),
  (.strcmp (ascii "-version"), .flag .version),
  (.strcmp (ascii "-showversion"), .flag .showversion),
  (.strcmp (ascii "-?"), .help),
  (.strcmp (ascii "-help"), .help),
  (.strcmp (ascii "--help"), .help),
  (.strcmp (ascii "-X"), .flag .unsupported),
  (.strcmp (ascii "-debug"), .flag .debug),
  (.strcmp (ascii "-wait"), .wait),
  (.strcmp (ascii "-umask"), .umask),
  (.strcmp (ascii "-stop"), .flag .stop),
  (.strcmp (ascii "-check"), .flag .check),
  (.strcmp (ascii "-nodetach"), .flag .nodetach),
  (.strcmp (ascii "-keepstdin"), .flag .keepstdin),
  (.strcmp (ascii "-service"), .flag .service),
  (.strcmp (ascii "-install"), .flag .install),
  (.strcmp (ascii "-remove"), .flag .remove),
  (.strcmp (ascii "-pidfile"), .setting .pidf),
  (.strcmp (ascii "-outfile"), .setting .outfile),
  (.strcmp (ascii "-errfile"), .setting .errfile),
  (.strncmp (ascii "-verbose"), .keep),
  (.strcmp (ascii "-D"), .noProperty),
  (.strncmp (ascii "-D"), .property),
  (.strncmp (ascii "-X"), .keep),
  (.strncmp (ascii "-ea"), .keep),
  (.strncmp (ascii "-enableassertions"), .keep),
  (.strncmp (ascii "-da"), .keep),
  (.strncmp (ascii "-disableassertions"), .keep),
  (.strcmp (ascii "-esa"), .keep),
  (.strcmp (ascii "-enablesystemassertions"), .keep),
  (.strcmp (ascii "-dsa"), .keep),
  (.strcmp (ascii "-disablesystemassertions"), .keep),
  (.strcmp (ascii "-procname"), .setting .procname),
  (.strncmp (ascii "-agentlib:"), .keep),
  (.strncmp (ascii "-agentpath:"), .keep),
  (.strncmp (ascii "-javaagent:"), .keep)]

/-- The branch that is taken for a word, if any. -/
def kindOf (word : Word) : Option Kind :=
  (options.find? fun option => option.1.holds word).map (·.2)

/-- `*word == '-'`. -/
def startsDash (word : Word) : Bool :=
  word.head? == some 45

/-- The next word, as the argument of an option. -/
def optional (next : Option Word) : Option Word :=
  match next with
  | some value => if startsDash value then none else some value
  | none => none

/-! ## The class path -/

def JAVA_CLASSPATH : Word := ascii "-Djava.class.path="

/-- `PATH_MAX`. -/
def PATH_MAX : Nat := 4096

/-- `glob` gives the paths of a pattern, in its order. -/
def evalPpath (glob : Word → Option (List Word)) (strcp pattern : Word) : Word :=
  if PATH_MAX + 1 - 5 < pattern.length then
    strcp ++ pattern
  else
    match glob (pattern ++ ascii ".jar") with
    | some paths => strcp ++ (ascii ":").intercalate paths
    | none => strcp

/-- What a part of the class path is appended to. -/
def beforePart (gcp : Option Word) : Word :=
  match gcp with
  | some gcp => gcp ++ ascii ":"
  | none => JAVA_CLASSPATH

/-- A part of the class path is appended. -/
def appendPart (glob : Word → Option (List Word)) (gcp : Option Word) (part : Word) : Word :=
  if part.getLast? = some 42 then evalPpath glob (beforePart gcp) part
  else beforePart gcp ++ part

/-- The loop over the colons, and the part behind the last one. -/
def appendParts (glob : Word → Option (List Word)) (gcp : Option Word) (ptr : Word) : Option Word :=
  match _ : ptr.idxOf? 58 with
  | some pos => appendParts glob (some (appendPart glob gcp (ptr.take pos))) (ptr.drop (pos + 1))
  | none => if ptr = [] then gcp else some (appendPart glob gcp ptr)
  termination_by ptr.length
  decreasing_by
    have hne : ptr ≠ [] := by
      rintro rfl
      contradiction
    have := List.length_pos_iff.mpr hne
    rw [List.length_drop]
    omega

def evalCpath (glob : Word → Option (List Word)) (cp : Word) : Word :=
  match appendParts glob none cp with
  | some gcp => gcp
  | none => JAVA_CLASSPATH ++ cp

/-! ## The loop -/

/-- How the loop goes on after a word. -/
inductive Next where
  /-- The message is logged, and `parse` returns null. -/
  | refuse (message : Word)
  /-- `parse` returns. -/
  | done (s : ArgData)
  /-- The word is the class. -/
  | invoke (s : ArgData)
  | next (s : ArgData)
  /-- `x` was incremented, and the next word is not looked at. -/
  | skip (s : ArgData)

/-- `opts` has room for `argc` words. -/
def addOpt (argc : Nat) (s : ArgData) (opt : Word) : Option ArgData :=
  if s.opts.length < argc then some { s with opts := s.opts ++ [opt] } else none

/-- `args` has room for `argc` words. -/
def addArg (argc : Nat) (s : ArgData) (arg : Word) : Option ArgData :=
  if s.args.length < argc then some { s with args := s.args ++ [arg] } else none

/-- The branch for a kind of words. -/
def parseOption (glob : Word → Option (List Word)) (argc : Nat) (s : ArgData) (word : Word)
    (value : Option Word) : Kind → Option Next
  | .classpath =>
    match optional value with
    | none => some (.refuse (ascii "Invalid classpath specified"))
    | some temp => (addOpt argc s (evalCpath glob temp)).map .skip
  | .setting field =>
    match optional value with
    | none => some (.refuse field.message)
    | some value => some (.skip (field.set value s))
  | .flag flag => some (.next (flag.set s))
  | .help => some (.done { s with help := true, dtch := false })
  | .wait =>
    -- Without a next word the time is that of the last `-wait`.
    let wait := match optional value with
      | some temp => atoi temp
      | none => s.wait
    if wait < 10 then
      some (.refuse (ascii "Invalid wait time specified (min=10)"))
    else
      some (.skip { s with wait := wait })
  | .umask =>
    match optional value with
    | none => some (.refuse (ascii "Invalid umask specified"))
    | some temp =>
      let umask := longToInt (strtol 8 temp)
      if umask < 2 then
        some (.refuse (ascii "Invalid umask specified (min=02)"))
      else
        some (.skip { s with umask := umask })
  | .noProperty => some (.refuse (ascii "Parameter -D must be followed by <name>=<value>"))
  | .property =>
    if word.idxOf? 61 = some 2 then
      some (.refuse (ascii "A property name must be specified before '='"))
    else
      (addOpt argc s word).map .next
  | .keep => (addOpt argc s word).map .next

/-- The body of the loop. -/
def parseWord (glob : Word → Option (List Word)) (argc : Nat) (s : ArgData) (word : Word)
    (value : Option Word) : Option Next :=
  match kindOf word with
  | some kind => parseOption glob argc s word value kind
  | none =>
    if startsDash word then some (.refuse (ascii "Invalid option " ++ word))
    else some (.invoke { s with clas := some word })

/-- What is behind the loop, with the words behind the class. -/
def parseArgs (argc : Nat) (s : ArgData) (words : List Word) : Option (Except Word ArgData) :=
  if s.clas = none ∧ s.remove = false then
    some (.error (ascii "No class specified"))
  else
    (words.foldlM (addArg argc) s).map .ok

/-- The words from an index on. -/
def parseWords (glob : Word → Option (List Word)) (argc : Nat) (s : ArgData) :
    List Word → Option (Except Word ArgData)
  | [] => parseArgs argc s []
  | word :: words => do
    match ← parseWord glob argc s word words.head? with
    | .refuse message => some (.error message)
    | .done s => some (.ok s)
    | .invoke s => parseArgs argc s words
    | .next s => parseWords glob argc s words
    | .skip s =>
      match words with
      | [] => parseArgs argc s []
      | _ :: words => parseWords glob argc s words

/-- The result of `malloc` is not cleared, so `vershow` can be anything.  Nothing is
written to a command line without a first word. -/
def parse (glob : Word → Option (List Word)) (vershow : Bool) :
    List Word → Option (Except Word ArgData)
  | [] => none
  | argv₀ :: words => parseWords glob (argv₀ :: words).length { vershow } words

/-- A second `-wait` without a time takes the next option away. -/
example :
    parse (fun _ => none) false (["jsvc", "-wait", "20", "-wait", "-Dx=1", "Main"].map ascii) =
      parse (fun _ => none) false (["jsvc", "-wait", "20", "Main"].map ascii) := by
  decide +kernel

/-! ## The branches -/

theorem startsDash_of_holds {word : Word} {test : Test} (htext : startsDash test.text = true)
    (h : test.holds word = true) : startsDash word = true := by
  unfold startsDash at *
  cases test with
  | strcmp text =>
    have heq : word = text := beq_iff_eq.mp h
    subst heq
    exact htext
  | strncmp text =>
    obtain ⟨rest, rfl⟩ := List.isPrefixOf_iff_prefix.mp h
    cases text with
    | nil => cases htext
    | cons c text => exact htext

/-- A word is tried as an option only if it starts with a dash. -/
theorem kindOf_eq_none {word : Word} (h : startsDash word = false) : kindOf word = none := by
  have hnone : (options.find? fun option => option.1.holds word) = none := by
    rw [List.find?_eq_none]
    intro option hmem hholds
    have htext : ∀ option ∈ options, startsDash option.1.text = true := by decide
    rw [startsDash_of_holds (htext option hmem) hholds] at h
    cases h
  unfold kindOf
  rw [hnone]
  rfl

/-- A word that is kept for the virtual machine. -/
def isKept (word : Word) : Bool :=
  kindOf word = some .keep ∨ kindOf word = some .property ∧ word.idxOf? 61 ≠ some 2

theorem optional_eq_some_iff {next : Option Word} {value : Word} :
    optional next = some value ↔ next = some value ∧ startsDash value = false := by
  cases next with
  | none => exact ⟨nofun, fun h => nomatch h.1⟩
  | some word =>
    show (if startsDash word then none else some word) = some value ↔ _
    rw [Option.ite_none_left_eq_some, Bool.not_eq_true]
    constructor
    · intro h
      rw [← Option.some.inj h.2]
      exact ⟨rfl, h.1⟩
    · intro h
      rw [Option.some.inj h.1]
      exact ⟨h.2, rfl⟩

/-- A class path is an option of the virtual machine. -/
theorem evalCpath_eq_append (glob : Word → Option (List Word)) (cp : Word) :
    ∃ rest, evalCpath glob cp = JAVA_CLASSPATH ++ rest := by
  have hpart : ∀ gcp part, (∀ p, gcp = some p → ∃ rest, p = JAVA_CLASSPATH ++ rest) →
      ∃ rest, appendPart glob gcp part = JAVA_CLASSPATH ++ rest := by
    intro gcp part hgcp
    have hbefore : ∃ rest, beforePart gcp = JAVA_CLASSPATH ++ rest := by
      cases gcp with
      | none => exact ⟨[], (List.append_nil _).symm⟩
      | some p =>
        obtain ⟨rest, rfl⟩ := hgcp p rfl
        exact ⟨rest ++ ascii ":", List.append_assoc _ _ _⟩
    obtain ⟨rest, hrest⟩ := hbefore
    unfold appendPart evalPpath
    rw [hrest]
    split_ifs
    · exact ⟨rest ++ part, List.append_assoc _ _ _⟩
    · split
      · exact ⟨_, List.append_assoc _ _ _⟩
      · exact ⟨rest, rfl⟩
    · exact ⟨rest ++ part, List.append_assoc _ _ _⟩
  have hparts : ∀ gcp ptr, (∀ p, gcp = some p → ∃ rest, p = JAVA_CLASSPATH ++ rest) →
      ∀ p, appendParts glob gcp ptr = some p → ∃ rest, p = JAVA_CLASSPATH ++ rest := by
    intro gcp ptr
    fun_induction appendParts glob gcp ptr with
    | case1 gcp ptr pos hpos ih =>
      intro hgcp
      refine ih fun p hp => ?_
      rw [← Option.some.inj hp]
      exact hpart gcp _ hgcp
    | case2 gcp hnone => exact id
    | case3 gcp ptr hnone hne =>
      intro hgcp p hp
      rw [← Option.some.inj hp]
      exact hpart gcp ptr hgcp
  unfold evalCpath
  split
  · next gcp hgcp => exact hparts none cp nofun gcp hgcp
  · exact ⟨cp, rfl⟩

theorem isKept_evalCpath (glob : Word → Option (List Word)) (cp : Word) :
    isKept (evalCpath glob cp) = true := by
  obtain ⟨rest, hrest⟩ := evalCpath_eq_append glob cp
  rw [hrest]
  have hkind : kindOf (JAVA_CLASSPATH ++ rest) = some .property := by
    simp [kindOf, options, Test.holds, JAVA_CLASSPATH, ascii]
  unfold isKept
  rw [hkind]
  simp [JAVA_CLASSPATH, ascii, List.idxOf?_cons]

/-! ## What is parsed -/

/-- The words that options have set. -/
def ArgData.texts (s : ArgData) : List Word :=
  s.name.toList ++ s.home.toList ++ s.user.toList ++
    [s.cwd, s.pidf, s.outfile, s.errfile, s.procname]

/-- What holds of the fields that are set by options. -/
structure OptionsWellFormed (vershow : Bool) (s : ArgData) : Prop where
  texts : ∀ text ∈ s.texts, startsDash text = false
  opts : ∀ opt ∈ s.opts, isKept opt = true
  dtch : s.vers = true ∨ s.chck = true → s.dtch = false
  wait : s.wait = 0 ∨ 10 ≤ s.wait ∧ s.wait < 2147483648
  umask : 2 ≤ s.umask ∧ s.umask < 2147483648
  vershow : vershow = true → s.vershow = true

/-- The state after the words of the front: no class yet, and every option of the
virtual machine comes from one of the words. -/
structure ReadOptions (glob : Word → Option (List Word)) (vershow : Bool) (front : List Word)
    (s : ArgData) : Prop where
  wellFormed : OptionsWellFormed vershow s
  origin : ∀ opt ∈ s.opts, opt ∈ front ∨ ∃ cp ∈ front, opt = evalCpath glob cp
  length : s.opts.length ≤ front.length
  clas : s.clas = none
  args : s.args = []
  help : s.help = false

variable {glob : Word → Option (List Word)} {vershow : Bool} {argc : Nat} {front words : List Word}
  {word : Word} {value : Option Word} {s : ArgData}

theorem readOptions_start : ReadOptions glob vershow [] { vershow } where
  wellFormed :=
    { texts := by
        show ∀ text ∈ [ascii "/", ascii "/var/run/jsvc.pid", ascii "/dev/null",
          ascii "/dev/null", ascii "jsvc.exec"], startsDash text = false
        decide
      opts := nofun
      dtch := nofun
      wait := Or.inl rfl
      umask := by
        show (2 : Int) ≤ 63 ∧ (63 : Int) < 2147483648
        decide
      vershow := id }
  origin := nofun
  length := le_refl 0
  clas := rfl
  args := rfl
  help := rfl

/-- More words are read than the options come from. -/
theorem ReadOptions.mono (h : ReadOptions glob vershow front s) (rest : List Word) :
    ReadOptions glob vershow (front ++ rest) s := by
  refine { h with origin := fun opt hopt => ?_, length := ?_ }
  · rcases h.origin opt hopt with hword | ⟨cp, hcp, hopt⟩
    · exact Or.inl (List.mem_append_left rest hword)
    · exact Or.inr ⟨cp, List.mem_append_left rest hcp, hopt⟩
  · have := h.length
    rw [List.length_append]
    omega

theorem ReadOptions.addOpt (h : ReadOptions glob vershow front s) {opt : Word} {rest : List Word}
    (hargc : front.length < argc) (hkept : isKept opt = true) (hrest : rest ≠ [])
    (horigin : opt ∈ rest ∨ ∃ cp ∈ rest, opt = evalCpath glob cp) :
    addOpt argc s opt = some { s with opts := s.opts ++ [opt] } ∧
      ReadOptions glob vershow (front ++ rest) { s with opts := s.opts ++ [opt] } := by
  have hlength := h.length
  refine ⟨if_pos (by omega), { (h.mono rest) with wellFormed := ?_, origin := ?_, length := ?_ }⟩
  · refine { h.wellFormed with opts := fun opt' hopt => ?_ }
    rcases List.mem_append.mp hopt with hopt | hopt
    · exact h.wellFormed.opts opt' hopt
    · rw [List.mem_singleton.mp hopt]
      exact hkept
  · intro opt' hopt
    rcases List.mem_append.mp hopt with hopt | hopt
    · exact (h.mono rest).origin opt' hopt
    · rw [List.mem_singleton.mp hopt]
      rcases horigin with hword | ⟨cp, hcp, hopt⟩
      · exact Or.inl (List.mem_append_right front hword)
      · exact Or.inr ⟨cp, List.mem_append_right front hcp, hopt⟩
  · have := List.length_pos_iff.mpr hrest
    show (s.opts ++ [opt]).length ≤ (front ++ rest).length
    rw [List.length_append, List.length_append, List.length_singleton]
    omega

theorem texts_set {text value : Word} {field : Setting} (h : text ∈ (field.set value s).texts) :
    text = value ∨ text ∈ s.texts := by
  cases field <;>
    simp only [Setting.set, ArgData.texts, List.mem_append, List.mem_cons, Option.mem_toList,
      List.not_mem_nil, or_false] at h ⊢ <;> grind

theorem ReadOptions.setting (h : ReadOptions glob vershow front s) {value : Word}
    (hvalue : startsDash value = false) (field : Setting) :
    ReadOptions glob vershow front (field.set value s) := by
  have htexts : ∀ text ∈ (field.set value s).texts, startsDash text = false := by
    intro text htext
    rcases texts_set htext with rfl | htext
    · exact hvalue
    · exact h.wellFormed.texts text htext
  cases field <;> exact { h with wellFormed := { h.wellFormed with texts := htexts } }

theorem ReadOptions.flag (h : ReadOptions glob vershow front s) (flag : Flag) :
    ReadOptions glob vershow front (flag.set s) := by
  have hname : ∀ name, startsDash name = false →
      ReadOptions glob vershow front { s with name := some name } :=
    fun _ hdash => h.setting hdash .name
  cases flag with
  | client | server => exact hname _ (by decide)
  | version | check | nodetach =>
    exact { h with wellFormed := { h.wellFormed with dtch := fun _ => rfl } }
  | showversion => exact { h with wellFormed := { h.wellFormed with vershow := fun _ => rfl } }
  | unsupported => exact h
  | debug | stop | keepstdin | service | install | remove =>
    exact { h with wellFormed := { h.wellFormed with } }

theorem longToInt_lt (n : Int) : longToInt n < 2147483648 := by
  unfold longToInt
  have := @Int.bmod_lt n 4294967296 (by decide)
  omega

/-- What holds of the way on after a word and its next word. -/
def Next.Good (glob : Word → Option (List Word)) (vershow : Bool) (front : List Word) (word : Word)
    (value : Option Word) : Next → Prop
  | refuse _ => True
  | done d => ∃ s, ReadOptions glob vershow front s ∧ d = { s with help := true, dtch := false }
  | invoke d => ∃ s, ReadOptions glob vershow front s ∧ startsDash word = false ∧
      d = { s with clas := some word }
  | next s => ReadOptions glob vershow (front ++ [word]) s
  | skip s => ReadOptions glob vershow (front ++ word :: value.toList) s

theorem parseOption_good (h : ReadOptions glob vershow front s) (hargc : front.length < argc)
    {kind : Kind} (hkind : kindOf word = some kind) :
    ∃ next, parseOption glob argc s word value kind = some next ∧
      next.Good glob vershow front word value := by
  have hkeep : isKept word = true → ∃ next, (addOpt argc s word).map Next.next = some next ∧
      next.Good glob vershow front word value := by
    intro hkept
    obtain ⟨hadd, hread⟩ := h.addOpt hargc hkept (List.cons_ne_nil word [])
      (Or.inl List.mem_cons_self)
    rw [hadd]
    exact ⟨_, rfl, hread⟩
  have hmono : ∀ s, ReadOptions glob vershow front s →
      (Next.skip s).Good glob vershow front word value := fun _ h => h.mono _
  cases kind with
  | classpath =>
    unfold parseOption
    cases hvalue : optional value with
    | none => exact ⟨_, rfl, trivial⟩
    | some temp =>
      rw [(optional_eq_some_iff.mp hvalue).1]
      obtain ⟨hadd, hread⟩ := h.addOpt hargc (isKept_evalCpath glob temp)
        (List.cons_ne_nil word [temp])
        (Or.inr ⟨temp, List.mem_cons_of_mem _ List.mem_cons_self, rfl⟩)
      exact ⟨_, congrArg (Option.map Next.skip) hadd, hread⟩
  | setting field =>
    unfold parseOption
    cases hvalue : optional value with
    | none => exact ⟨_, rfl, trivial⟩
    | some temp => exact ⟨_, rfl, hmono _ (h.setting (optional_eq_some_iff.mp hvalue).2 field)⟩
  | flag flag => exact ⟨_, rfl, (h.flag flag).mono _⟩
  | help => exact ⟨_, rfl, s, h, rfl⟩
  | wait =>
    have hset : ∀ wait, 10 ≤ wait → wait < 2147483648 →
        ReadOptions glob vershow front { s with wait := wait } :=
      fun wait hten hlt => { h with wellFormed := { h.wellFormed with wait := Or.inr ⟨hten, hlt⟩ } }
    unfold parseOption
    cases optional value with
    | none =>
      dsimp only
      split_ifs with hwait
      · exact ⟨_, rfl, trivial⟩
      · have := h.wellFormed.wait
        exact ⟨_, rfl, hmono _ (hset _ (by omega) (by omega))⟩
    | some temp =>
      dsimp only
      split_ifs with hwait
      · exact ⟨_, rfl, trivial⟩
      · exact ⟨_, rfl, hmono _ (hset _ (by omega) (longToInt_lt _))⟩
  | umask =>
    unfold parseOption
    cases optional value with
    | none => exact ⟨_, rfl, trivial⟩
    | some temp =>
      dsimp only
      split_ifs with humask
      · exact ⟨_, rfl, trivial⟩
      · refine ⟨_, rfl, hmono _ { h with wellFormed := { h.wellFormed with umask := ?_ } }⟩
        show 2 ≤ longToInt (strtol 8 temp) ∧ longToInt (strtol 8 temp) < 2147483648
        exact ⟨by omega, longToInt_lt _⟩
  | noProperty => exact ⟨_, rfl, trivial⟩
  | property =>
    unfold parseOption
    split_ifs with hname
    · exact ⟨_, rfl, trivial⟩
    · exact hkeep (decide_eq_true (Or.inr ⟨hkind, hname⟩))
  | keep => exact hkeep (decide_eq_true (Or.inl hkind))

/-- No word is stored outside of `opts`, and no option is lost. -/
theorem parseWord_good (h : ReadOptions glob vershow front s) (hargc : front.length < argc) :
    ∃ next, parseWord glob argc s word value = some next ∧
      next.Good glob vershow front word value := by
  unfold parseWord
  cases hkind : kindOf word with
  | some kind => exact parseOption_good h hargc hkind
  | none =>
    cases hdash : startsDash word with
    | true => exact ⟨_, rfl, trivial⟩
    | false => exact ⟨_, rfl, s, h, hdash, rfl⟩

/-- The results of a command line: the options, and what is behind them. -/
inductive Parsed (glob : Word → Option (List Word)) (vershow : Bool) (words : List Word) :
    ArgData → Prop where
  | help (front rest : List Word) (s : ArgData) (hs : ReadOptions glob vershow front s)
      (hwords : words = front ++ rest) :
      Parsed glob vershow words { s with help := true, dtch := false }
  | invoke (front : List Word) (clas : Word) (args : List Word) (s : ArgData)
      (hs : ReadOptions glob vershow front s) (hclas : startsDash clas = false)
      (hwords : words = front ++ clas :: args) :
      Parsed glob vershow words { s with clas := some clas, args := args }
  | remove (s : ArgData) (hs : ReadOptions glob vershow words s) (hremove : s.remove = true) :
      Parsed glob vershow words s

theorem foldlM_addArg (hargc : s.args.length + words.length ≤ argc) :
    words.foldlM (addArg argc) s = some { s with args := s.args ++ words } := by
  induction words generalizing s with
  | nil =>
    show some s = _
    rw [List.append_nil]
  | cons word words ih =>
    rw [List.length_cons] at hargc
    have hadd : addArg argc s word = some { s with args := s.args ++ [word] } :=
      if_pos (by omega)
    rw [List.foldlM_cons, hadd]
    show words.foldlM (addArg argc) { s with args := s.args ++ [word] } = _
    rw [ih]
    · show some { s with args := (s.args ++ [word]) ++ words } = _
      rw [List.append_assoc]
      rfl
    · show (s.args ++ [word]).length + words.length ≤ argc
      rw [List.length_append, List.length_singleton]
      omega

/-- The words behind the class are its arguments. -/
theorem parseArgs_class (hargs : s.args = []) (hargc : words.length ≤ argc) :
    parseArgs argc { s with clas := some word } words =
      some (.ok { s with clas := some word, args := words }) := by
  have hstore : words.foldlM (addArg argc) { s with clas := some word } =
      some { s with clas := some word, args := words } := by
    rw [foldlM_addArg]
    · show some { s with clas := some word, args := s.args ++ words } = _
      rw [hargs, List.nil_append]
    · show s.args.length + words.length ≤ argc
      rw [hargs, List.length_nil]
      omega
  unfold parseArgs
  rw [if_neg (fun hnone => nomatch hnone.1), hstore]
  rfl

/-- The end of the words is reached without a class. -/
theorem parseArgs_nil (h : ReadOptions glob vershow front s) :
    ∃ result, parseArgs argc s [] = some result ∧
      ∀ d, result = .ok d → Parsed glob vershow front d := by
  unfold parseArgs
  split_ifs with hclas
  · refine ⟨_, rfl, fun d hd => ?_⟩
    cases hd
  · refine ⟨_, rfl, fun d hd => ?_⟩
    cases hd
    exact .remove s h (Bool.eq_true_of_not_eq_false fun hremove => hclas ⟨h.clas, hremove⟩)

/-- Every command line is parsed without a store outside of `opts` and `args`. -/
theorem parseWords_eq (h : ReadOptions glob vershow front s)
    (hargc : front.length + words.length < argc) :
    ∃ result, parseWords glob argc s words = some result ∧
      ∀ d, result = .ok d → Parsed glob vershow (front ++ words) d := by
  induction hlength : words.length using Nat.strong_induction_on generalizing front words s with
  | _ n ih =>
    cases words with
    | nil =>
      rw [List.append_nil]
      exact parseArgs_nil h
    | cons word words =>
      rw [List.length_cons] at hargc hlength
      obtain ⟨next, hnext, hgood⟩ :=
        @parseWord_good glob vershow argc front word words.head? s h (by omega)
      unfold parseWords
      rw [hnext, Option.bind_eq_bind, Option.bind_some]
      have hsplit : front ++ word :: words = (front ++ [word]) ++ words := by
        rw [List.append_assoc]
        rfl
      cases next with
      | refuse message =>
        refine ⟨_, rfl, fun d hd => ?_⟩
        cases hd
      | done d =>
        obtain ⟨s, hs, rfl⟩ := hgood
        refine ⟨_, rfl, fun d hd => ?_⟩
        cases hd
        exact .help front _ s hs rfl
      | invoke d =>
        obtain ⟨s, hs, hdash, rfl⟩ := hgood
        refine ⟨_, parseArgs_class hs.args (by omega), fun d hd => ?_⟩
        cases hd
        exact .invoke front word words s hs hdash rfl
      | next s =>
        rw [hsplit]
        refine ih words.length (by omega) hgood ?_ rfl
        rw [List.length_append, List.length_singleton]
        omega
      | skip s =>
        cases words with
        | nil => exact parseArgs_nil hgood
        | cons value words =>
          have hskip : front ++ word :: value :: words = (front ++ [word, value]) ++ words := by
            rw [List.append_assoc]
            rfl
          rw [List.length_cons] at hargc hlength
          rw [hskip]
          refine ih words.length (by omega) hgood ?_ rfl
          rw [List.length_append, List.length_cons, List.length_singleton]
          omega

/-- Whatever the command line is, no word is stored outside of `opts` and `args`.  The
class and its arguments are the end of the command line, and every option of the virtual
machine is a word before them, or the class path of one. -/
theorem parse_eq_ok (glob : Word → Option (List Word)) (vershow : Bool) (argv₀ : Word)
    (words : List Word) :
    ∃ result, parse glob vershow (argv₀ :: words) = some result ∧
      ∀ d, result = .ok d → d.opts.length + d.args.length ≤ words.length ∧
        ∃ front rest, words = front ++ rest ∧
          (d.help = false → rest = d.clas.toList ++ d.args) ∧
          ∀ opt ∈ d.opts, opt ∈ front ∨ ∃ cp ∈ front, opt = evalCpath glob cp := by
  have hargc : ([] : List Word).length + words.length < (argv₀ :: words).length := by
    rw [List.length_nil, List.length_cons]
    omega
  obtain ⟨result, hresult, hparsed⟩ := parseWords_eq (@readOptions_start glob vershow) hargc
  refine ⟨result, hresult, fun d hd => ?_⟩
  have hd := hparsed d hd
  rw [List.nil_append] at hd
  cases hd with
  | help front rest s hs hwords =>
    have hlength := hs.length
    have hargs := hs.args
    refine ⟨?_, front, rest, hwords, fun hhelp => ?_, hs.origin⟩
    · show s.opts.length + s.args.length ≤ words.length
      rw [hargs, hwords, List.length_append, List.length_nil]
      omega
    · cases hhelp
  | invoke front clas args s hs hclas hwords =>
    have hlength := hs.length
    refine ⟨?_, front, clas :: args, hwords, fun _ => rfl, hs.origin⟩
    show s.opts.length + args.length ≤ words.length
    rw [hwords, List.length_append, List.length_cons]
    omega
  | remove _ hs hremove =>
    have hlength := hs.length
    refine ⟨?_, words, [], (List.append_nil _).symm, fun _ => ?_, hs.origin⟩
    · rw [hs.args, List.length_nil]
      omega
    · rw [hs.clas, hs.args]
      rfl

/-! ## Writing a command line -/

/-- The results of `parse`. -/
structure WellFormed (vershow : Bool) (d : ArgData) : Prop where
  options : OptionsWellFormed vershow d
  help : d.help = true → d.dtch = false ∧ d.clas = none
  clas : ∀ clas, d.clas = some clas → startsDash clas = false
  noClas : d.clas = none → d.args = [] ∧ (d.help = true ∨ d.remove = true)

theorem Parsed.wellFormed {d : ArgData} (h : Parsed glob vershow words d) :
    WellFormed vershow d := by
  cases h with
  | help front rest s hs hwords =>
    refine ⟨{ hs.wellFormed with dtch := fun _ => rfl }, fun _ => ⟨rfl, hs.clas⟩,
      fun clas hclas => ?_, fun _ => ⟨hs.args, Or.inl rfl⟩⟩
    cases hs.clas.symm.trans hclas
  | invoke front clas args s hs hclas hwords =>
    refine ⟨{ hs.wellFormed with }, fun hhelp => ?_, fun clas' hclas' => ?_, nofun⟩
    · cases hs.help.symm.trans hhelp
    · rw [← Option.some.inj hclas']
      exact hclas
  | remove _ hs hremove =>
    refine ⟨hs.wellFormed, fun hhelp => ?_, fun clas hclas => ?_,
      fun _ => ⟨hs.args, Or.inr hremove⟩⟩
    · cases hs.help.symm.trans hhelp
    · cases hs.clas.symm.trans hclas

/-- An option with its word, if there is one. -/
def optionWords (option : String) (value : Option Word) : List Word :=
  match value with
  | some value => [ascii option, value]
  | none => []

/-- An option that is there or not. -/
def flagWords (option : String) (flag : Bool) : List Word :=
  if flag then [ascii option] else []

/-- The options that set a word. -/
def ArgData.settingWords (d : ArgData) : List Word :=
  optionWords "-jvm" d.name ++ optionWords "-home" d.home ++ optionWords "-user" d.user ++
    optionWords "-cwd" (some d.cwd) ++ optionWords "-pidfile" (some d.pidf) ++
    optionWords "-outfile" (some d.outfile) ++ optionWords "-errfile" (some d.errfile) ++
    optionWords "-procname" (some d.procname)

/-- The options without a word. -/
def ArgData.flags (d : ArgData) : List Word :=
  flagWords "-nodetach" (!d.dtch) ++ flagWords "-version" d.vers ++ flagWords "-check" d.chck ++
    flagWords "-showversion" d.vershow ++ flagWords "-stop" d.stop ++
    flagWords "-install" d.install ++ flagWords "-remove" d.remove ++
    flagWords "-service" d.service ++ flagWords "-keepstdin" (!d.redirectstdin) ++
    flagWords "-debug" d.log_debug_flag

/-- The options with a number. -/
def ArgData.numbers (d : ArgData) : List Word :=
  (if d.wait = 0 then [] else [ascii "-wait", numeral 10 d.wait.toNat]) ++
    [ascii "-umask", numeral 8 d.umask.toNat]

/-- A command line with the result. -/
def ArgData.commandLine (d : ArgData) : List Word :=
  d.settingWords ++ d.flags ++ d.numbers ++ d.opts ++
    (if d.help then [ascii "-help"] else d.clas.toList ++ d.args)

/-- The words of the front take the loop from one state to the other. -/
def Reads (glob : Word → Option (List Word)) (argc : Nat) (s : ArgData) (front : List Word)
    (s' : ArgData) : Prop :=
  ∀ rest, parseWords glob argc s (front ++ rest) = parseWords glob argc s' rest

theorem Reads.append {t u : ArgData} {back : List Word} (h : Reads glob argc s front t)
    (hback : Reads glob argc t back u) : Reads glob argc s (front ++ back) u := by
  intro rest
  rw [List.append_assoc, h, hback]

theorem reads_skip {t : ArgData} {value : Word}
    (h : parseWord glob argc s word (some value) = some (.skip t)) :
    Reads glob argc s [word, value] t := by
  intro rest
  show parseWords glob argc s (word :: value :: rest) = _
  rw [parseWords, List.head?_cons, h]
  rfl

theorem reads_next {t : ArgData} (h : ∀ value, parseWord glob argc s word value = some (.next t)) :
    Reads glob argc s [word] t := by
  intro rest
  show parseWords glob argc s (word :: rest) = _
  rw [parseWords, h]
  rfl

theorem parseWord_of_kind {kind : Kind} (h : kindOf word = some kind) :
    parseWord glob argc s word value = parseOption glob argc s word value kind := by
  unfold parseWord
  rw [h]

/-- The state behind `optionWords`. -/
def setOption (field : Setting) (value : Option Word) (s : ArgData) : ArgData :=
  match value with
  | some value => field.set value s
  | none => s

theorem reads_setting {option : String} {field : Setting}
    (hkind : kindOf (ascii option) = some (.setting field))
    (hvalue : ∀ text, value = some text → startsDash text = false) :
    Reads glob argc s (optionWords option value) (setOption field value s) := by
  cases value with
  | none =>
    intro rest
    rfl
  | some text =>
    apply reads_skip
    rw [parseWord_of_kind hkind]
    unfold parseOption
    rw [optional_eq_some_iff.mpr ⟨rfl, hvalue text rfl⟩]
    rfl

/-- The state behind `flagWords`. -/
def setFlag (flag : Flag) (b : Bool) (s : ArgData) : ArgData :=
  if b then flag.set s else s

theorem reads_flag {option : String} {flag : Flag} {b : Bool}
    (hkind : kindOf (ascii option) = some (.flag flag)) :
    Reads glob argc s (flagWords option b) (setFlag flag b s) := by
  cases b with
  | false =>
    intro rest
    rfl
  | true => exact reads_next fun value => parseWord_of_kind hkind

/-- The options that are kept, one after the other. -/
theorem reads_opts {opts : List Word} (hkept : ∀ opt ∈ opts, isKept opt = true)
    (hargc : s.opts.length + opts.length ≤ argc) :
    Reads glob argc s opts { s with opts := s.opts ++ opts } := by
  induction opts generalizing s with
  | nil =>
    rw [List.append_nil]
    intro rest
    rfl
  | cons opt opts ih =>
    rw [List.length_cons] at hargc
    have hadd : addOpt argc s opt = some { s with opts := s.opts ++ [opt] } := if_pos (by omega)
    have hword : ∀ value, parseWord glob argc s opt value =
        some (.next { s with opts := s.opts ++ [opt] }) := by
      intro value
      rcases of_decide_eq_true (hkept opt List.mem_cons_self) with hkind | ⟨hkind, hname⟩
      · rw [parseWord_of_kind hkind]
        unfold parseOption
        rw [hadd]
        rfl
      · rw [parseWord_of_kind hkind]
        unfold parseOption
        rw [if_neg hname, hadd]
        rfl
    have hrest := @ih { s with opts := s.opts ++ [opt] }
      (fun opt hopt => hkept opt (List.mem_cons_of_mem _ hopt)) (by
        rw [List.length_append, List.length_singleton]
        omega)
    have hassoc : s.opts ++ opt :: opts = s.opts ++ [opt] ++ opts := by
      rw [List.append_assoc]
      rfl
    rw [hassoc]
    exact (reads_next hword).append hrest

theorem startsDash_numeral {base n : Nat} (hbase : 2 ≤ base) (hten : base ≤ 10) :
    startsDash (numeral base n) = false := by
  unfold startsDash
  rw [beq_eq_false_iff_ne]
  intro hhead
  have hmem := List.mem_of_head? hhead
  exact absurd (toNat_of_mem_numeral hbase hten hmem).1 (by decide)

theorem reads_numbers {d : ArgData} (hwait : d.wait = 0 ∨ 10 ≤ d.wait ∧ d.wait < 2147483648)
    (humask : 2 ≤ d.umask ∧ d.umask < 2147483648) (hs : s.wait = 0) :
    Reads glob argc s d.numbers { s with wait := d.wait, umask := d.umask } := by
  have hoptional : ∀ base n : Nat, 2 ≤ base → base ≤ 10 →
      optional (some (numeral base n)) = some (numeral base n) :=
    fun base n hbase hten => optional_eq_some_iff.mpr ⟨rfl, startsDash_numeral hbase hten⟩
  have hread : ∀ base n : Nat, ∀ i : Int, 2 ≤ base → base ≤ 10 → i = n → i < 2147483648 →
      longToInt (strtol base (numeral base n)) = i := by
    intro base n i hbase hten hi hlt
    rw [longToInt_strtol_numeral hbase hten (by omega), hi]
  have hfirst : Reads glob argc s
      (if d.wait = 0 then [] else [ascii "-wait", numeral 10 d.wait.toNat])
      { s with wait := d.wait } := by
    split_ifs with hzero
    · rw [hzero, ← hs]
      intro rest
      rfl
    · apply reads_skip
      rw [parseWord_of_kind (show kindOf (ascii "-wait") = some .wait by decide)]
      unfold parseOption
      rw [hoptional 10 _ (by decide) (by decide)]
      dsimp only
      unfold atoi
      rw [hread 10 d.wait.toNat d.wait (by decide) (by decide) (by omega) (by omega),
        if_neg (by omega)]
  refine hfirst.append (reads_skip ?_)
  rw [parseWord_of_kind (show kindOf (ascii "-umask") = some .umask by decide)]
  unfold parseOption
  rw [hoptional 8 _ (by decide) (by decide)]
  dsimp only
  rw [hread 8 d.umask.toNat d.umask (by decide) (by decide) (by omega) (by omega),
    if_neg (by omega)]

/-- The state behind the options that set a word. -/
def ArgData.withSettings (d : ArgData) (vershow : Bool) : ArgData :=
  { vershow, name := d.name, home := d.home, user := d.user, cwd := d.cwd, pidf := d.pidf,
    outfile := d.outfile, errfile := d.errfile, procname := d.procname }

theorem reads_settings {d : ArgData} (h : ∀ text ∈ d.texts, startsDash text = false) :
    Reads glob argc { vershow } d.settingWords (d.withSettings vershow) := by
  have hname : ∀ text, d.name = some text → startsDash text = false :=
    fun text htext => h text (by simp [ArgData.texts, htext])
  have hhome : ∀ text, d.home = some text → startsDash text = false :=
    fun text htext => h text (by simp [ArgData.texts, htext])
  have huser : ∀ text, d.user = some text → startsDash text = false :=
    fun text htext => h text (by simp [ArgData.texts, htext])
  have hother : ∀ value ∈ [d.cwd, d.pidf, d.outfile, d.errfile, d.procname],
      ∀ text, some value = some text → startsDash text = false := by
    intro value hvalue text htext
    rw [← Option.some.inj htext]
    exact h value (List.mem_append_right _ hvalue)
  simp only [List.forall_mem_cons] at hother
  obtain ⟨hcwd, hpidf, houtfile, herrfile, hprocname, _⟩ := hother
  have hstate : setOption .procname (some d.procname) (setOption .errfile (some d.errfile)
      (setOption .outfile (some d.outfile) (setOption .pidf (some d.pidf)
        (setOption .cwd (some d.cwd) (setOption .user d.user (setOption .home d.home
          (setOption .name d.name { vershow }))))))) = d.withSettings vershow := by
    unfold ArgData.withSettings
    cases d.name <;> cases d.home <;> cases d.user <;> rfl
  rw [← hstate]
  unfold ArgData.settingWords
  apply Reads.append _ (reads_setting (by decide) hprocname)
  apply Reads.append _ (reads_setting (by decide) herrfile)
  apply Reads.append _ (reads_setting (by decide) houtfile)
  apply Reads.append _ (reads_setting (by decide) hpidf)
  apply Reads.append _ (reads_setting (by decide) hcwd)
  apply Reads.append _ (reads_setting (by decide) huser)
  apply Reads.append _ (reads_setting (by decide) hhome)
  exact reads_setting (by decide) hname

theorem setFlag_eq {flag : Flag} {b : Bool} {t : ArgData} (hset : b = true → flag.set s = t)
    (hskip : b = false → s = t) : setFlag flag b s = t := by
  cases b with
  | false => exact hskip rfl
  | true => exact hset rfl

theorem reads_flags {d : ArgData} (hdtch : d.vers = true ∨ d.chck = true → d.dtch = false)
    (hshow : vershow = true → d.vershow = true) :
    Reads glob argc (d.withSettings vershow) d.flags
      { d with opts := [], clas := none, args := [], help := false, wait := 0, umask := 63 } := by
  have hnodetach : ∀ s : ArgData, s.dtch = true →
      setFlag .nodetach (!d.dtch) s = { s with dtch := d.dtch } := fun s hs =>
    setFlag_eq (fun h => by rw [(Bool.not_eq_true' _).mp h]; rfl)
      fun h => by rw [(Bool.not_eq_false' _).mp h, ← hs]
  -- `-version` and `-check` find `dtch` cleared.
  have hversion : ∀ s : ArgData, s.vers = false → s.dtch = d.dtch →
      setFlag .version d.vers s = { s with vers := d.vers } := fun s hs hsame =>
    setFlag_eq (fun h => by rw [h, Flag.set, ← hdtch (Or.inl h), ← hsame])
      fun h => by rw [h, ← hs]
  have hcheck : ∀ s : ArgData, s.chck = false → s.dtch = d.dtch →
      setFlag .check d.chck s = { s with chck := d.chck } := fun s hs hsame =>
    setFlag_eq (fun h => by rw [h, Flag.set, ← hdtch (Or.inr h), ← hsame])
      fun h => by rw [h, ← hs]
  have hshowversion : ∀ s : ArgData, s.vershow = vershow →
      setFlag .showversion d.vershow s = { s with vershow := d.vershow } := fun s hs =>
    setFlag_eq (fun h => by rw [h]; rfl) fun h => by
      have hfalse : vershow = false := Bool.eq_false_of_not_eq_true fun htrue => by
        rw [hshow htrue] at h
        cases h
      rw [h, ← hfalse, ← hs]
  have hstop : ∀ s : ArgData, s.stop = false →
      setFlag .stop d.stop s = { s with stop := d.stop } := fun s hs =>
    setFlag_eq (fun h => by rw [h]; rfl) fun h => by rw [h, ← hs]
  have hinstall : ∀ s : ArgData, s.install = false →
      setFlag .install d.install s = { s with install := d.install } := fun s hs =>
    setFlag_eq (fun h => by rw [h]; rfl) fun h => by rw [h, ← hs]
  have hremove : ∀ s : ArgData, s.remove = false →
      setFlag .remove d.remove s = { s with remove := d.remove } := fun s hs =>
    setFlag_eq (fun h => by rw [h]; rfl) fun h => by rw [h, ← hs]
  have hservice : ∀ s : ArgData, s.service = false →
      setFlag .service d.service s = { s with service := d.service } := fun s hs =>
    setFlag_eq (fun h => by rw [h]; rfl) fun h => by rw [h, ← hs]
  have hkeepstdin : ∀ s : ArgData, s.redirectstdin = true →
      setFlag .keepstdin (!d.redirectstdin) s = { s with redirectstdin := d.redirectstdin } :=
    fun s hs => setFlag_eq (fun h => by rw [(Bool.not_eq_true' _).mp h]; rfl)
      fun h => by rw [(Bool.not_eq_false' _).mp h, ← hs]
  have hdebug : ∀ s : ArgData, s.log_debug_flag = false →
      setFlag .debug d.log_debug_flag s = { s with log_debug_flag := d.log_debug_flag } :=
    fun s hs => setFlag_eq (fun h => by rw [h]; rfl) fun h => by rw [h, ← hs]
  have hstate : setFlag .debug d.log_debug_flag (setFlag .keepstdin (!d.redirectstdin)
      (setFlag .service d.service (setFlag .remove d.remove (setFlag .install d.install
        (setFlag .stop d.stop (setFlag .showversion d.vershow (setFlag .check d.chck
          (setFlag .version d.vers (setFlag .nodetach (!d.dtch) (d.withSettings vershow)))))))))) =
      { d with opts := [], clas := none, args := [], help := false, wait := 0, umask := 63 } := by
    rw [hnodetach, hversion, hcheck, hshowversion, hstop, hinstall, hremove, hservice,
      hkeepstdin, hdebug] <;> rfl
  rw [← hstate]
  unfold ArgData.flags
  apply Reads.append _ (reads_flag (by decide))
  apply Reads.append _ (reads_flag (by decide))
  apply Reads.append _ (reads_flag (by decide))
  apply Reads.append _ (reads_flag (by decide))
  apply Reads.append _ (reads_flag (by decide))
  apply Reads.append _ (reads_flag (by decide))
  apply Reads.append _ (reads_flag (by decide))
  apply Reads.append _ (reads_flag (by decide))
  apply Reads.append _ (reads_flag (by decide))
  exact reads_flag (by decide)

/-- The loop behind the options. -/
theorem parseWords_end {d : ArgData} (h : WellFormed vershow d) (hargc : d.args.length ≤ argc) :
    parseWords glob argc { d with clas := none, args := [], help := false }
      (if d.help then [ascii "-help"] else d.clas.toList ++ d.args) = some (.ok d) := by
  cases hhelp : d.help with
  | true =>
    obtain ⟨hdtch, hclas⟩ := h.help hhelp
    have hargs := (h.noClas hclas).1
    have hstate : { d with clas := none, args := [], help := true, dtch := false } = d := by
      rw [← hclas, ← hargs, ← hdtch, ← hhelp]
    rw [if_pos rfl, parseWords,
      parseWord_of_kind (show kindOf (ascii "-help") = some .help by decide)]
    exact congrArg (fun d => some (Except.ok d)) hstate
  | false =>
    rw [if_neg Bool.false_ne_true]
    cases hclas : d.clas with
    | some clas =>
      have hword : ∀ value, parseWord glob argc { d with clas := none, args := [], help := false }
          clas value = some (.invoke { d with clas := some clas, args := [], help := false }) := by
        intro value
        unfold parseWord
        rw [kindOf_eq_none (h.clas clas hclas)]
        dsimp only
        rw [h.clas clas hclas, if_neg Bool.false_ne_true]
      have hstate : { d with clas := some clas, help := false } = d := by
        rw [← hclas, ← hhelp]
      show parseWords glob argc _ (clas :: d.args) = _
      rw [parseWords, hword]
      rw [Option.bind_eq_bind, Option.bind_some]
      have hargs := @parseArgs_class argc d.args clas
        { d with clas := none, args := [], help := false } rfl hargc
      exact hargs.trans (congrArg (fun d => some (Except.ok d)) hstate)
    | none =>
      obtain ⟨hargs, hremove⟩ := h.noClas hclas
      have hremove : d.remove = true := hremove.resolve_left fun htrue => by
        rw [hhelp] at htrue
        cases htrue
      have hstate : { d with clas := none, args := [], help := false } = d := by
        rw [← hclas, ← hargs, ← hhelp]
      rw [hargs]
      show parseArgs argc { d with clas := none, args := [], help := false } [] = _
      unfold parseArgs
      rw [if_neg (fun hnone => by rw [hremove] at hnone; cases hnone.2)]
      exact congrArg (fun d => some (Except.ok d)) hstate

/-- The loop reads the options of a command line. -/
theorem reads_options {d : ArgData} (h : OptionsWellFormed vershow d)
    (hargc : d.opts.length ≤ argc) :
    Reads glob argc { vershow } (d.settingWords ++ d.flags ++ d.numbers ++ d.opts)
      { d with clas := none, args := [], help := false } :=
  (((reads_settings h.texts).append (reads_flags h.dtch h.vershow)).append
    (reads_numbers h.wait h.umask rfl)).append (reads_opts h.opts (by simpa using hargc))

/-- The results of `parse` are the well-formed ones, and each is read back from the
command line that is written for it. -/
theorem parse_commandLine (glob : Word → Option (List Word)) (vershow : Bool) (argv₀ : Word)
    (d : ArgData) :
    ((∃ words, parse glob vershow (argv₀ :: words) = some (.ok d)) ↔ WellFormed vershow d) ∧
      (WellFormed vershow d → parse glob vershow (argv₀ :: d.commandLine) = some (.ok d)) := by
  have hback : WellFormed vershow d →
      parse glob vershow (argv₀ :: d.commandLine) = some (.ok d) := by
    intro h
    have hopts : d.opts.length ≤ d.commandLine.length := by
      simp only [ArgData.commandLine, List.length_append]
      omega
    have hargs : d.args.length ≤ d.commandLine.length := by
      unfold ArgData.commandLine
      cases hhelp : d.help with
      | true =>
        rw [(h.noClas (h.help hhelp).2).1]
        exact Nat.zero_le _
      | false =>
        simp only [if_neg Bool.false_ne_true, List.length_append]
        omega
    have hloop : parseWords glob (argv₀ :: d.commandLine).length { vershow } d.commandLine =
        some (.ok d) := by
      have hlength : d.commandLine.length ≤ (argv₀ :: d.commandLine).length := by
        rw [List.length_cons]
        omega
      generalize (argv₀ :: d.commandLine).length = argc at hlength
      unfold ArgData.commandLine
      rw [reads_options h.options (by omega)]
      exact parseWords_end h (by omega)
    exact hloop
  refine ⟨⟨fun hwords => ?_, fun h => ⟨_, hback h⟩⟩, hback⟩
  obtain ⟨words, hwords⟩ := hwords
  obtain ⟨result, hresult, hparsed⟩ := parseWords_eq (@readOptions_start glob vershow)
    (by rw [List.length_nil, List.length_cons]; omega :
      ([] : List Word).length + words.length < (argv₀ :: words).length)
  have hresult' : parse glob vershow (argv₀ :: words) = some result := hresult
  rw [hwords] at hresult'
  exact (hparsed d (Option.some.inj hresult').symm).wellFormed

end BoundaryEventSdk.Jsvc
