import BoundaryEventSdk.Prunsrv.Atoul

/-!
# The command line of the service runner

`cmdlineParse` takes the command and the name of the service from the first word,
and sets the options that the other words give.  An option is given as
`--option` or as `++option`, and a list that is only given as `++option` is
added to the list of the registry later.

`parseOptions_accepts` describes the options after the loop: an option goes
through the words that have its name, in their order.  `parseOptions_refuses`
says that only an unknown option or a missing value stops the loop.
-/

namespace BoundaryEventSdk.Prunsrv

open BoundaryEventSdk.C

/-! ## Options -/

def APXCMDOPT_INT : UInt32 := 0x00000001
def APXCMDOPT_STR : UInt32 := 0x00000002
def APXCMDOPT_STE : UInt32 := 0x00000006
def APXCMDOPT_MSZ : UInt32 := 0x00000010
def APXCMDOPT_BIN : UInt32 := 0x00000020
def APXCMDOPT_REG : UInt32 := 0x00000100
def APXCMDOPT_SRV : UInt32 := 0x00000200
def APXCMDOPT_FOUND : UInt32 := 0x00001000
def APXCMDOPT_ADD : UInt32 := 0x00002000

/-- `APXCMDLINEOPT`. -/
structure CmdlineOpt where
  szName : Block
  szRegistry : Block
  szSubkey : Option Block
  dwType : UInt32
  szValue : Option Block
  dwValue : Nat
  deriving DecidableEq

/-- `dwType & flag`, as a condition. -/
def CmdlineOpt.has (o : CmdlineOpt) (flag : UInt32) : Bool :=
  o.dwType &&& flag != 0

/-- The loop over the characters of a value: what is written of them. -/
def splitValue (insquote indquote : Bool) : List WChar → Block
  | [] => []
  | pp :: rest =>
    -- A single quote is not written.
    if pp = 39 then splitValue (!insquote) indquote rest
    else if pp = 34 then 34 :: splitValue insquote (!indquote) rest
    else if (pp = 35 ∨ pp = 59) ∧ insquote = false ∧ indquote = false then
      0 :: splitValue insquote indquote rest
    else pp :: splitValue insquote indquote rest

/-- A value is written behind the characters of the values before it. -/
def appendMsz (ov : Option Block) (dwValue : Nat) (val : WString) : Option (Block × Nat) := do
  let sp := if dwValue > 2 then (dwValue - 2) / 2 else 0
  let head ← moveMemory ov sp
  let szValue ← callocWrite (sp + val.chars.length + 2) (head ++ splitValue false false val.chars)
  return (szValue, (sp + val.chars.length + 2) * 2)

/-- The value of an option is set. -/
def CmdlineOpt.setValue (val : WString) (o : CmdlineOpt) : Option CmdlineOpt :=
  if o.has APXCMDOPT_STR then
    some { o with szValue := some val.block }
  else if o.has APXCMDOPT_INT then
    (atoul val.chars).map fun v => { o with dwValue := v.toNat }
  else if o.has APXCMDOPT_MSZ then
    (appendMsz o.szValue o.dwValue val).map fun msz =>
      { o with szValue := some msz.1, dwValue := msz.2 }
  else
    some o

/-- The flag of a `++option` that is the first one, and the values that a `--option`
discards. -/
def CmdlineOpt.setAdd (add : Bool) (o : CmdlineOpt) : CmdlineOpt :=
  if add then
    if o.has APXCMDOPT_FOUND then o else { o with dwType := o.dwType ||| APXCMDOPT_ADD }
  else if o.has APXCMDOPT_ADD then
    { o with dwType := o.dwType &&& ~~~APXCMDOPT_ADD, dwValue := 0, szValue := none }
  else
    o

/-- An option is given as `++option` or as `--option`. -/
def CmdlineOpt.set (add : Bool) (val : WString) (o : CmdlineOpt) : Option CmdlineOpt :=
  ((o.setAdd add).setValue val).map fun o => { o with dwType := o.dwType ||| APXCMDOPT_FOUND }

/-- The loop over the options: null, if none of them has the name. -/
def setOption (name : Block) (add : Bool) (val : WString) :
    List CmdlineOpt → Option (Option (List CmdlineOpt))
  | [] => some none
  | o :: lpOptions =>
    if o.szName = name then
      (o.set add val).map fun o => some (o :: lpOptions)
    else
      (setOption name add val lpOptions).map (·.map (o :: ·))

/-- What is behind the first `=`. -/
def WString.behindEquals (a : WString) (p : List WChar) (hp : ∀ c ∈ p, c ∈ a.chars) : WString where
  chars := (p.dropWhile (· ≠ 61)).tail
  noZero h := a.noZero (hp 0 ((List.dropWhile_suffix _).subset (List.mem_of_mem_tail h)))

/-- An option: whether it is added, its name, and the value in the same word. -/
def readArg (a : WString) : Option (Bool × Block × Option WString) :=
  match h : a.chars with
  | c :: d :: p =>
    if (c = 43 ∧ d = 43) ∨ (c = 45 ∧ d = 45) then
      let e := if 61 ∈ p then
        some (a.behindEquals p fun _ hx =>
          h ▸ List.mem_cons_of_mem c (List.mem_cons_of_mem d hx))
      else none
      some (c == 43, p.takeWhile (· ≠ 61), e)
    else none
  | _ => none

/-- The loop over the words: the options, and the words from the first one that is no
option. -/
def parseOptions : List WString → List CmdlineOpt →
    Option (Option (List CmdlineOpt × List WString))
  | [], lpOptions => some (some (lpOptions, []))
  | a :: words, lpOptions =>
    match readArg a with
    | none => some (some (lpOptions, a :: words))
    | some (add, name, some val) => do
      match ← setOption name add val lpOptions with
      | some lpOptions => parseOptions words lpOptions
      | none => return none
    | some (add, name, none) =>
      match words with
      | val :: words => do
        match ← setOption name add val lpOptions with
        | some lpOptions => parseOptions words lpOptions
        | none => return none
      | [] => some none

/-! ## The command -/

/-- `APXCMDLINE`. -/
structure Cmdline where
  lpOptions : List CmdlineOpt
  szArgv0 : Block
  szExecutable : Block
  szExePath : Block
  szApplication : Block
  dwCmdIndex : Nat
  lpArgvw : List WString

/-- The text before the last `c`, and the one behind it. -/
def splitLast (c : WChar) (s : Block) : Option (Block × Block) :=
  (s.reverse.idxOf? c).map fun i => (s.take (s.length - 1 - i), s.drop (s.length - i))

/-- `lstrcmpiW` is zero. -/
def sameIgnoringCase (a b : Block) : Bool :=
  let lower (c : WChar) : WChar := if 65 ≤ c ∧ c ≤ 90 then c + 32 else c
  a.map lower == b.map lower

/-- The text without what is from the last dot on, if that is one of the suffixes. -/
def dropSuffix (suffixes : List Block) (s : Block) : Block :=
  match splitLast 46 s with
  | some (front, suffix) =>
    if suffixes.any (sameIgnoringCase suffix) then front else s
  | none => s

/-- The index of a command, which counts from one. -/
def commandIndex (commands : List Block) (ca : Block) : Option Nat :=
  (commands.idxOf? ca).map (· + 1)

/-- The command of the arguments: its index, the name of the service, and the words of the
options.  Without a command the program runs the service, and does not look at options. -/
def cmdlineCommand (iswalnum : WChar → Bool) (szExecutable : Block) (args : List WString)
    (lpszCommands lpszAltcmds : List Block) : Option (Nat × Block × List WString) :=
  match args with
  | [] => some (1, szExecutable, [])
  | cp :: words =>
    if cp.chars.length ≤ 2 then
      some (1, szExecutable, [])
    else if cp.chars.take 2 = [47, 47] then
      -- `//CMD//Application`
      let ca := cp.chars.drop 2
      let cn := (ca.dropWhile (· ≠ 47)).dropWhile (· = 47)
      (commandIndex lpszCommands (ca.takeWhile (· ≠ 47))).map fun dwCmdIndex =>
        (dwCmdIndex, if cn = [] then szExecutable else cn, words)
    else
      (commandIndex lpszAltcmds cp.chars).map fun dwCmdIndex =>
        match words with
        | cn :: rest =>
          if cn.chars.head?.any iswalnum then (dwCmdIndex, cn.chars, rest)
          else (dwCmdIndex, szExecutable, words)
        | [] => (dwCmdIndex, szExecutable, [])

/-- The name of the program, without its suffixes. -/
def executable (file : Block) : Block :=
  dropSuffix [wide "X86", wide "X64", wide "I64"] (dropSuffix [wide "EXE"] file)

/-- `apxCmdlineParse`, with the file name of the program and its arguments. -/
def cmdlineParse (iswalnum : WChar → Bool) (mh : Block) (argv : List WString)
    (lpOptions : List CmdlineOpt) (lpszCommands lpszAltcmds : List Block) :
    Option (Option Cmdline) :=
  match argv, splitLast 92 mh with
  | _ :: args, some (szExePath, file) =>
    match cmdlineCommand iswalnum (executable file) args lpszCommands lpszAltcmds with
    | some (dwCmdIndex, szApplication, words) =>
      (parseOptions words lpOptions).map (·.map fun parsed =>
        ⟨parsed.1, mh, executable file, szExePath, szApplication, dwCmdIndex, parsed.2⟩)
    | none => some none
  | _, _ => some none

/-! ## The options that are given -/

/-- A value that a word gives. -/
structure Given where
  name : Block
  add : Bool
  value : WString
  deriving DecidableEq

/-- The values of a command line, and the words behind them, if each option is known and
has a value. -/
def given (known : Block → Bool) : List WString → Option (List Given × List WString)
  | [] => some ([], [])
  | a :: words =>
    match readArg a with
    | none => some ([], a :: words)
    | some (add, name, some value) =>
      if known name then
        (given known words).map fun g => (⟨name, add, value⟩ :: g.1, g.2)
      else none
    | some (add, name, none) =>
      match words with
      | value :: words =>
        if known name then
          (given known words).map fun g => (⟨name, add, value⟩ :: g.1, g.2)
        else none
      | [] => none

def names (lpOptions : List CmdlineOpt) : List Block :=
  lpOptions.map (·.szName)

/-- The values with the name of an option. -/
def CmdlineOpt.ofName (o : CmdlineOpt) (values : List Given) : List Given :=
  values.filter fun g => g.name = o.szName

/-- An option before and after some values are set. -/
def After (values : List Given) (o o' : CmdlineOpt) : Prop :=
  (o.ofName values).foldlM (fun o g => o.set g.add g.value) o = some o'

theorem CmdlineOpt.set_static {o o' : CmdlineOpt} {add : Bool} {val : WString}
    (h : o.set add val = some o') :
    o'.szName = o.szName ∧ o'.szRegistry = o.szRegistry ∧ o'.szSubkey = o.szSubkey := by
  have hvalue : ∀ {o o' : CmdlineOpt}, o.setValue val = some o' →
      o'.szName = o.szName ∧ o'.szRegistry = o.szRegistry ∧ o'.szSubkey = o.szSubkey := by
    intro o o' h
    unfold CmdlineOpt.setValue at h
    split_ifs at h
    · cases h
      exact ⟨rfl, rfl, rfl⟩
    · obtain ⟨v, _, rfl⟩ := Option.map_eq_some_iff.mp h
      exact ⟨rfl, rfl, rfl⟩
    · obtain ⟨msz, _, rfl⟩ := Option.map_eq_some_iff.mp h
      exact ⟨rfl, rfl, rfl⟩
    · cases h
      exact ⟨rfl, rfl, rfl⟩
  unfold CmdlineOpt.set at h
  obtain ⟨o₁, hset, rfl⟩ := Option.map_eq_some_iff.mp h
  have hsame := hvalue hset
  unfold CmdlineOpt.setAdd at hsame
  split_ifs at hsame <;> exact hsame

theorem setOption_eq_null {name : Block} {add : Bool} {val : WString}
    {lpOptions : List CmdlineOpt} (h : setOption name add val lpOptions = some none) :
    name ∉ names lpOptions := by
  induction lpOptions with
  | nil => exact List.not_mem_nil
  | cons o lpOptions ih =>
    unfold setOption at h
    split_ifs at h with hname
    · obtain ⟨_, _, hnull⟩ := Option.map_eq_some_iff.mp h
      cases hnull
    · obtain ⟨rest, hrest, hmap⟩ := Option.map_eq_some_iff.mp h
      rw [Option.map_eq_none_iff] at hmap
      subst hmap
      intro hmem
      rcases List.mem_cons.mp hmem with rfl | hmem
      · exact hname rfl
      · exact ih hrest hmem

/-- The option with the name is set, and the others are not changed. -/
theorem setOption_eq_some {name : Block} {add : Bool} {val : WString}
    {lpOptions lpOptions' : List CmdlineOpt} (hnames : (names lpOptions).Nodup)
    (h : setOption name add val lpOptions = some (some lpOptions')) :
    name ∈ names lpOptions ∧ List.Forall₂ (After [⟨name, add, val⟩]) lpOptions lpOptions' := by
  induction lpOptions generalizing lpOptions' with
  | nil => cases h
  | cons o lpOptions ih =>
    obtain ⟨hfresh, hnames⟩ := List.nodup_cons.mp hnames
    have hother : ∀ o : CmdlineOpt, name ≠ o.szName → After [⟨name, add, val⟩] o o := by
      intro o hne
      unfold After CmdlineOpt.ofName
      rw [List.filter_cons_of_neg (by simpa using hne)]
      rfl
    unfold setOption at h
    split_ifs at h with hname
    · obtain ⟨o', hset, hcons⟩ := Option.map_eq_some_iff.mp h
      cases hcons
      refine ⟨List.mem_cons.mpr (.inl hname.symm), .cons ?_ ?_⟩
      · unfold After CmdlineOpt.ofName
        rw [List.filter_cons_of_pos (by simpa using hname.symm)]
        show (o.set add val).bind pure = some o'
        rw [hset]
        rfl
      · apply List.forall₂_same.mpr
        intro o' ho'
        apply hother
        intro h
        apply hfresh
        show o.szName ∈ _
        rw [hname, h]
        exact List.mem_map_of_mem ho'
    · obtain ⟨rest, hrest, hmap⟩ := Option.map_eq_some_iff.mp h
      obtain ⟨lpOptions', rfl, rfl⟩ := Option.map_eq_some_iff.mp hmap
      obtain ⟨hmem, hall⟩ := ih hnames hrest
      exact ⟨List.mem_cons_of_mem _ hmem, .cons (hother o fun h => hname h.symm) hall⟩

theorem After.static {values : List Given} {o o' : CmdlineOpt} (h : After values o o') :
    o'.szName = o.szName ∧ o'.szRegistry = o.szRegistry ∧ o'.szSubkey = o.szSubkey := by
  unfold After at h
  generalize o.ofName values = own at h
  induction own generalizing o with
  | nil =>
    cases h
    exact ⟨rfl, rfl, rfl⟩
  | cons g own ih =>
    rw [List.foldlM_cons] at h
    obtain ⟨o₁, hset, hown⟩ := Option.bind_eq_some_iff.mp h
    obtain ⟨hname, hregistry, hsubkey⟩ := CmdlineOpt.set_static hset
    obtain ⟨hname', hregistry', hsubkey'⟩ := ih hown
    exact ⟨hname'.trans hname, hregistry'.trans hregistry, hsubkey'.trans hsubkey⟩

theorem After.append {values more : List Given} {o o₁ o' : CmdlineOpt} (h : After values o o₁)
    (hmore : After more o₁ o') : After (values ++ more) o o' := by
  have hname := h.static.1
  unfold After CmdlineOpt.ofName at *
  rw [List.filter_append, List.foldlM_append, h]
  rw [hname] at hmore
  exact hmore

theorem names_of_after {values : List Given} {lpOptions lpOptions' : List CmdlineOpt}
    (h : List.Forall₂ (After values) lpOptions lpOptions') :
    names lpOptions' = names lpOptions := by
  induction h with
  | nil => rfl
  | cons hafter _ ih =>
    exact congrArg₂ List.cons hafter.static.1 ih

theorem after_nil (lpOptions : List CmdlineOpt) :
    List.Forall₂ (After []) lpOptions lpOptions :=
  List.forall₂_same.mpr fun _ _ => rfl

/-- The options after one step, and after another one. -/
theorem forall₂_comp {α : Type} {R S T : α → α → Prop} (hcomp : ∀ x y z, R x y → S y z → T x z)
    {first mid last : List α} (h : List.Forall₂ R first mid) (hmore : List.Forall₂ S mid last) :
    List.Forall₂ T first last := by
  induction h generalizing last with
  | nil =>
    cases hmore
    exact .nil
  | cons hfirst _ ih =>
    cases hmore with
    | cons hnext hrest => exact .cons (hcomp _ _ _ hfirst hnext) (ih hrest)

/-- One more value before those of the other words. -/
theorem accepts_cons {name : Block} {add : Bool} {val : WString} {words rest : List WString}
    {lpOptions lpOptions' : List CmdlineOpt} (hnames : (names lpOptions).Nodup)
    (ih : ∀ mid, (names mid).Nodup → parseOptions words mid = some (some (lpOptions', rest)) →
      ∃ values, given (· ∈ names mid) words = some (values, rest) ∧
        List.Forall₂ (After values) mid lpOptions')
    (h : ((setOption name add val lpOptions).bind fun o =>
      match o with
      | some mid => parseOptions words mid
      | none => pure none) = some (some (lpOptions', rest))) :
    name ∈ names lpOptions ∧ ∃ values, given (· ∈ names lpOptions) words = some (values, rest) ∧
      List.Forall₂ (After (⟨name, add, val⟩ :: values)) lpOptions lpOptions' := by
  obtain ⟨set, hset, hwords⟩ := Option.bind_eq_some_iff.mp h
  cases set with
  | none => cases hwords
  | some mid =>
    obtain ⟨hmem, hmid⟩ := setOption_eq_some hnames hset
    have hsame := names_of_after hmid
    obtain ⟨values, hgiven, hafter⟩ := ih mid (hsame ▸ hnames) hwords
    rw [hsame] at hgiven
    exact ⟨hmem, values, hgiven,
      forall₂_comp (fun _ _ _ hfirst hrest => hfirst.append hrest) hmid hafter⟩

/-- The options after a command line that is accepted. -/
theorem parseOptions_accepts {argv words : List WString} {lpOptions lpOptions' : List CmdlineOpt}
    (hnames : (names lpOptions).Nodup)
    (h : parseOptions argv lpOptions = some (some (lpOptions', words))) :
    ∃ values, given (· ∈ names lpOptions) argv = some (values, words) ∧
      List.Forall₂ (After values) lpOptions lpOptions' := by
  fun_induction parseOptions argv lpOptions with
  | case1 lpOptions =>
    cases h
    exact ⟨[], rfl, after_nil _⟩
  | case2 lpOptions a rest hread =>
    cases h
    refine ⟨[], ?_, after_nil _⟩
    rw [given, hread]
  | case3 lpOptions a rest add name val hread ih =>
    obtain ⟨hmem, values, hgiven, hafter⟩ := accepts_cons hnames ih h
    refine ⟨_, ?_, hafter⟩
    rw [given, hread]
    dsimp only
    rw [if_pos (decide_eq_true hmem), hgiven]
    rfl
  | case4 lpOptions a add name hread val rest ih =>
    obtain ⟨hmem, values, hgiven, hafter⟩ := accepts_cons hnames ih h
    refine ⟨_, ?_, hafter⟩
    rw [given, hread]
    dsimp only
    rw [if_pos (decide_eq_true hmem), hgiven]
    rfl
  | case5 => cases h

/-- A command line is refused for an unknown option or a missing value only. -/
theorem parseOptions_refuses {argv : List WString} {lpOptions : List CmdlineOpt}
    (hnames : (names lpOptions).Nodup) (h : parseOptions argv lpOptions = some none) :
    given (· ∈ names lpOptions) argv = none := by
  have hcons : ∀ {name : Block} {add : Bool} {val : WString} {words : List WString}
      {lpOptions : List CmdlineOpt}, (names lpOptions).Nodup →
      (∀ mid, (names mid).Nodup → parseOptions words mid = some none →
        given (· ∈ names mid) words = none) →
      ((setOption name add val lpOptions).bind fun o =>
        match o with
        | some mid => parseOptions words mid
        | none => pure none) = some none →
      name ∉ names lpOptions ∨ given (· ∈ names lpOptions) words = none := by
    intro name add val words lpOptions hnames ih h
    obtain ⟨set, hset, hwords⟩ := Option.bind_eq_some_iff.mp h
    cases set with
    | none => exact .inl (setOption_eq_null hset)
    | some mid =>
      have hsame := names_of_after (setOption_eq_some hnames hset).2
      exact .inr (hsame ▸ ih mid (hsame ▸ hnames) hwords)
  fun_induction parseOptions argv lpOptions with
  | case1 => cases h
  | case2 => cases h
  | case3 lpOptions a rest add name val hread ih =>
    rw [given, hread]
    dsimp only
    rcases hcons hnames ih h with hunknown | hnone
    · exact if_neg (by simpa using hunknown)
    · rw [hnone]
      split_ifs <;> rfl
  | case4 lpOptions a add name hread val rest ih =>
    rw [given, hread]
    dsimp only
    rcases hcons hnames ih h with hunknown | hnone
    · exact if_neg (by simpa using hunknown)
    · rw [hnone]
      split_ifs <;> rfl
  | case5 lpOptions a add name hread => rw [given, hread]

end BoundaryEventSdk.Prunsrv
