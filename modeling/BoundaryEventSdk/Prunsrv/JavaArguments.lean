import Mathlib.Tactic.Set
import Mathlib.Tactic.SplitIfs
import BoundaryEventSdk.Prunsrv.Atoul
import BoundaryEventSdk.Prunsrv.ProcessArguments

/-!
# The arguments of `java`

A service that is run by `java` gets the options of its virtual machine, the
class path, the class and its parameters.  `apxJavaCmdInitialize` writes them to an
array.  Without options the index of the array is not set, and the lists and
the texts are one character longer than what `apxPoolAlloc` is asked for, so
that they have to fit into the padding behind it.

`FitsJava` is the condition, and `javaStrings_eq_some` says that the array has
the words of `javaWords` under it, and that nothing is defined otherwise.
-/

namespace BoundaryEventSdk.Prunsrv

open BoundaryEventSdk.C

/-! ## The strings of an array -/

/-- The strings of the entries of an array. -/
def arrayStrings (lpArgs : List Slot) : Nat → Nat → Option (List Block)
  | _, 0 => some []
  | i, n + 1 =>
    match lpArgs[i]? with
    | some (.string s) => (arrayStrings lpArgs (i + 1) n).map (s :: ·)
    | _ => none

/-- The strings that `apxMultiSzToArrayW` makes of a list. -/
def multiSzStrings (lpString : Option Block) : Option (List Block) := do
  let (nArgs, lpArgs) ← multiSzToArray lpString
  arrayStrings (lpArgs.getD []) 0 nArgs

theorem arrayStrings_eq (strings : List Block) (before rest : List Slot) :
    arrayStrings (before ++ (strings.map .string ++ rest)) before.length strings.length =
      some strings := by
  induction strings generalizing before with
  | nil => rfl
  | cons s strings ih =>
    have hnext := ih (before ++ [.string s])
    rw [List.append_assoc, List.length_append] at hnext
    rw [List.length_cons, arrayStrings, List.getElem?_append_right (Nat.le_refl _), Nat.sub_self]
    show (arrayStrings _ (before.length + 1) strings.length).map (s :: ·) = _
    rw [List.map_cons, List.cons_append]
    exact congrArg (Option.map (s :: ·)) hnext

theorem multiSzStrings_eq {lpString : Option Block} {strings : List Block}
    (h : Lists lpString strings) : multiSzStrings lpString = some strings := by
  unfold multiSzStrings
  rw [multiSzToArray_eq h, Option.bind_eq_bind, Option.bind_some]
  dsimp only
  split_ifs with hnil
  · rw [hnil]
    rfl
  · exact arrayStrings_eq strings [] _

/-! ## The array of `java` -/

/-- `APX_ALIGN_DEFAULT`. -/
def alignDefault (size : Nat) : Nat :=
  (size + 15) / 16 * 16

/-- The pool: the bytes of an `ALLOCBLOCK`, and what is in characters that nothing is written
to. -/
structure Pool where
  header : Nat
  unset : Nat → WChar

/-- How many characters `apxPoolAlloc` allocates behind those that it is asked for. -/
def Pool.padding (pool : Pool) (size : Nat) : Nat :=
  (alignDefault (2 * size + pool.header) - (2 * size + pool.header)) / 2

/-- The array of `apxJavaCmdInitialize`, and the index of the next entry.  It is not set before
the options are written. -/
abbrev CmdArray := Option Nat × List Slot

/-- The next entry. -/
def addEntry (array : CmdArray) (p : Slot) : Option CmdArray :=
  match array with
  | (some i, entries) => if i < entries.length then some (some (i + 1), entries.set i p) else none
  | (none, _) => none

/-- The copy of a list: one character more than `apxPoolAlloc` is asked for. -/
def copyMultiSz (pool : Pool) (lpString : Option Block) (l : Nat) : Option Block := do
  let behind := fun p : Block => (List.range (pool.padding p.length)).map pool.unset
  let content ← moveMemory (lpString.map fun p => p ++ behind p) (l + 2)
  allocWrite (l + 1 + pool.padding (l + 1)) content

/-- The first strings of a copy. -/
def copiedStrings (pool : Pool) (lpString : Option Block) (l n : Nat) : Option (List Slot) := do
  let p ← copyMultiSz pool lpString l
  takeStrings n p

/-- The loop over the options, which sets the index. -/
def addOptions (pool : Pool) (szOptions : Option Block) (lJVM nJVM : Nat) (array : CmdArray) :
    Option CmdArray :=
  if nJVM ≠ 0 ∧ lJVM ≠ 0 then do
    let strings ← copiedStrings pool szOptions lJVM nJVM
    strings.foldlM addEntry (some 0, array.2)
  else
    some array

/-- The loop over the arguments, from the index on. -/
def addArguments (pool : Pool) (szCmdArgs : Option Block) (lCmd nCmd nTotal : Nat)
    (array : CmdArray) : Option CmdArray :=
  if nCmd ≠ 0 ∧ lCmd ≠ 0 then do
    let i ← array.1
    let strings ← copiedStrings pool szCmdArgs lCmd (nTotal - i)
    strings.foldlM addEntry array
  else
    some array

/-- The option of a memory size, of at most 17 of the 64 characters that are allocated. -/
def addNumber (front : String) (v : UInt32) (unit : String) (array : CmdArray) :
    Option CmdArray :=
  if v ≠ 0 then addEntry array (.string (wide front ++ wsprintfD v ++ wide unit)) else some array

/-- The class path or the class.  `apxPoolAlloc` is not asked for the zero behind it. -/
def addText (pool : Pool) (front : String) (szText : Option Block) (array : CmdArray) :
    Option CmdArray :=
  match szText with
  | some data =>
    if 0 ∈ data then do
      let text := wide front ++ data.takeWhile (· ≠ 0)
      let _ ← allocWrite (text.length + pool.padding text.length) (text ++ [0])
      addEntry array (.string text)
    else
      none
  | none => some array

/-- The null behind the entry that follows the last one. -/
def endArray (array : CmdArray) : Option (List Slot) :=
  match array with
  | (some i, entries) => if i + 1 < entries.length then some (entries.set (i + 1) .null) else none
  | (none, _) => none

/-- `apxJavaCmdInitialize`. -/
def javaCmdInitialize (pool : Pool) (szClassPath szClass szOptions : Option Block)
    (dwMs dwMx dwSs : UInt32) (szCmdArgs : Option Block) : Option (Nat × Option (List Slot)) := do
  let (lJVM, nJVM) ← getMultiSzLength szOptions
  let (lCmd, nCmd) ← getMultiSzLength szCmdArgs
  let nTotal := szClassPath.isSome.toNat + szClass.isSome.toNat + nJVM + nCmd +
    (dwMs != 0).toNat + (dwMx != 0).toNat + (dwSs != 0).toNat
  if nTotal = 0 then
    return (0, none)
  let array ← addOptions pool szOptions lJVM nJVM
    (none, List.replicate (nTotal + 2) .uninitialised)
  let array ← addNumber "-Xms" dwMs "m" array
  let array ← addNumber "-Xmx" dwMx "m" array
  let array ← addNumber "-Xss" dwSs "k" array
  let array ← addText pool "-Djava.class.path=" szClassPath array
  let array ← addText pool "" szClass array
  let array ← addArguments pool szCmdArgs lCmd nCmd nTotal array
  let entries ← endArray array
  return (nTotal, some entries)

/-- The word of a size, unless it is zero. -/
def sizeWord (front : String) (v : UInt32) (unit : String) : List Block :=
  if v = 0 then [] else [wide front ++ wsprintfD v ++ wide unit]

/-- The word of a text, if there is one. -/
def textWord (front : String) (szText : Option Block) : List Block :=
  (szText.map fun data => wide front ++ data.takeWhile (· ≠ 0)).toList

/-- The words that `java` should get. -/
def javaWords (szClassPath szClass : Option Block) (jvmOptions : List Block)
    (dwMs dwMx dwSs : UInt32) (args : List Block) : List Block :=
  jvmOptions ++ sizeWord "-Xms" dwMs "m" ++ sizeWord "-Xmx" dwMx "m" ++
    sizeWord "-Xss" dwSs "k" ++ textWord "-Djava.class.path=" szClassPath ++
    textWord "" szClass ++ args

/-- One character more than a list has can be read, and it can be written. -/
def Pool.FitsList (pool : Pool) (lpString : Option Block) (strings : List Block) : Prop :=
  (∀ block ∈ lpString, (encodeStrings (0 : WChar) strings).length + 2 ≤
      block.length + pool.padding block.length) ∧
    0 < pool.padding ((encodeStrings (0 : WChar) strings).length + 1)

/-- A text has an end, and there is room for the zero behind it. -/
def Pool.FitsText (pool : Pool) (front : String) (szText : Option Block) : Prop :=
  ∀ data ∈ szText, 0 ∈ data ∧
    0 < pool.padding (wide front ++ data.takeWhile (· ≠ 0)).length

/-- The index is set, and no character is written behind what is allocated. -/
structure Pool.FitsJava (pool : Pool) (szClassPath szClass szOptions szCmdArgs : Option Block)
    (jvmOptions args : List Block) : Prop where
  index : jvmOptions ≠ []
  options : pool.FitsList szOptions jvmOptions
  classPath : pool.FitsText "-Djava.class.path=" szClassPath
  className : pool.FitsText "" szClass
  args : args ≠ [] → pool.FitsList szCmdArgs args

/-- An array with some strings at its front. -/
def filled (nTotal : Nat) (strings : List Block) : CmdArray :=
  (some strings.length,
    strings.map .string ++ List.replicate (nTotal + 2 - strings.length) .uninitialised)

theorem addEntry_filled {nTotal : Nat} {strings : List Block} (h : strings.length ≤ nTotal)
    (s : Block) :
    addEntry (filled nTotal strings) (.string s) = some (filled nTotal (strings ++ [s])) := by
  obtain ⟨n, hn⟩ : ∃ n, nTotal + 2 - strings.length = n + 1 :=
    ⟨nTotal + 1 - strings.length, by omega⟩
  have hset : (strings.map Slot.string ++ List.replicate (n + 1) Slot.uninitialised).set
      strings.length (.string s) =
        (strings ++ [s]).map .string ++ List.replicate n .uninitialised := by
    rw [List.set_append_right _ _ (List.length_map _).le, List.length_map, Nat.sub_self,
      List.replicate_succ, List.set_cons_zero, List.map_append, List.append_assoc]
    rfl
  have hlength : (strings ++ [s]).length = strings.length + 1 := List.length_append
  unfold filled addEntry
  dsimp only
  rw [hn, if_pos (by simp), hset, hlength, show nTotal + 2 - (strings.length + 1) = n by omega]

theorem addEntries_filled {nTotal : Nat} {strings more : List Block}
    (h : strings.length + more.length ≤ nTotal + 1) :
    (more.map Slot.string).foldlM addEntry (filled nTotal strings) =
      some (filled nTotal (strings ++ more)) := by
  induction more generalizing strings with
  | nil =>
    rw [List.append_nil]
    rfl
  | cons s more ih =>
    rw [List.length_cons] at h
    have hrest := @ih (strings ++ [s]) (by rw [List.length_append, List.length_singleton]; omega)
    rw [List.append_assoc, List.singleton_append] at hrest
    rw [List.map_cons, List.foldlM_cons, addEntry_filled (by omega)]
    exact hrest

theorem copiedStrings_eq_some (pool : Pool) {lpString : Option Block} {strings : List Block}
    (h : Lists lpString strings) (hne : strings ≠ []) (slots : List Slot) :
    copiedStrings pool lpString (encodeStrings (0 : WChar) strings).length strings.length =
        some slots ↔
      pool.FitsList lpString strings ∧ slots = strings.map .string := by
  cases lpString with
  | none => exact absurd h hne
  | some block =>
    obtain ⟨hproper, rest, rfl⟩ := h
    set l := (encodeStrings (0 : WChar) strings).length with hl
    set block := encodeStrings 0 strings ++ 0 :: rest with hblock
    set behind := (List.range (pool.padding block.length)).map pool.unset with hbehind
    have hlength : (block ++ behind).length = block.length + pool.padding block.length := by
      rw [List.length_append, hbehind, List.length_map, List.length_range]
    have htake : (block ++ behind).take (l + 2) =
        encodeStrings 0 strings ++ (0 :: (rest ++ behind)).take 2 := by
      rw [hblock, List.append_assoc, List.cons_append, hl, List.take_length_add_append]
    have hstrings : takeStrings strings.length ((block ++ behind).take (l + 2)) =
        some (strings.map .string) := by
      rw [htake]
      exact takeStrings_eq _ fun s hs => (hproper s hs).2
    have hmove : moveMemory (some (block ++ behind)) (l + 2) =
        if l + 2 ≤ block.length + pool.padding block.length then
          some ((block ++ behind).take (l + 2)) else none := by
      rw [← hlength]
      rfl
    have hfits : pool.FitsList (some block) strings ↔
        l + 2 ≤ block.length + pool.padding block.length ∧ 0 < pool.padding (l + 1) :=
      and_congr_left fun _ => ⟨fun h => h block rfl, fun h _ hmem => Option.some.inj hmem ▸ h⟩
    rw [hfits]
    unfold copiedStrings copyMultiSz
    dsimp only [Option.map_some]
    rw [hmove]
    by_cases hread : l + 2 ≤ block.length + pool.padding block.length
    · have hcontent : ((block ++ behind).take (l + 2)).length = l + 2 :=
        List.length_take_of_le (by rw [hlength]; exact hread)
      rw [if_pos hread]
      simp only [Option.bind_eq_bind, Option.bind_some, allocWrite, hcontent]
      by_cases hwrite : 0 < pool.padding (l + 1)
      · rw [if_pos (by omega), Option.bind_some, hstrings, Option.some.injEq, eq_comm]
        exact (and_iff_right ⟨hread, hwrite⟩).symm
      · rw [if_neg (by omega), Option.bind_none]
        exact ⟨nofun, fun h => absurd h.1.2 hwrite⟩
    · rw [if_neg hread]
      exact ⟨nofun, fun h => absurd h.1.1 hread⟩

theorem length_encodeStrings_ne_zero {strings : List Block} (hne : strings ≠ []) :
    strings.length ≠ 0 ∧ (encodeStrings (0 : WChar) strings).length ≠ 0 := by
  cases strings with
  | nil => exact absurd rfl hne
  | cons s strings =>
    rw [encodeStrings_cons, List.length_append, List.length_cons, List.length_cons]
    omega

/-! ## With options -/

/-- One step that only fits under a condition. -/
theorem bind_eq_some_of_iff {α β : Type} {o : Option α} {fits : Prop} {next : α}
    (h : ∀ a, o = some a ↔ fits ∧ a = next) (f : α → Option β) (b : β) :
    o.bind f = some b ↔ fits ∧ f next = some b := by
  rw [Option.bind_eq_some_iff]
  constructor
  · rintro ⟨a, ha, hb⟩
    obtain ⟨hfits, rfl⟩ := (h a).mp ha
    exact ⟨hfits, hb⟩
  · rintro ⟨hfits, hb⟩
    exact ⟨next, (h next).mpr ⟨hfits, rfl⟩, hb⟩

theorem addOptions_filled (pool : Pool) {szOptions : Option Block} {jvmOptions : List Block}
    {nTotal : Nat} (h : Lists szOptions jvmOptions) (hne : jvmOptions ≠ [])
    (hlength : jvmOptions.length ≤ nTotal) (array : CmdArray) :
    addOptions pool szOptions (encodeStrings (0 : WChar) jvmOptions).length jvmOptions.length
        (none, List.replicate (nTotal + 2) .uninitialised) = some array ↔
      pool.FitsList szOptions jvmOptions ∧ array = filled nTotal jvmOptions := by
  unfold addOptions
  rw [if_pos (length_encodeStrings_ne_zero hne), Option.bind_eq_bind,
    bind_eq_some_of_iff (copiedStrings_eq_some pool h hne)]
  have hfilled := @addEntries_filled nTotal [] jvmOptions (by rw [List.length_nil]; omega)
  refine and_congr_right fun _ => ?_
  rw [show (some 0, List.replicate (nTotal + 2) Slot.uninitialised) = filled nTotal [] from rfl,
    hfilled, Option.some.injEq, List.nil_append, eq_comm]

theorem addNumber_filled {nTotal : Nat} {strings : List Block} (h : strings.length ≤ nTotal)
    (front : String) (v : UInt32) (unit : String) :
    addNumber front v unit (filled nTotal strings) =
      some (filled nTotal (strings ++ sizeWord front v unit)) := by
  unfold addNumber sizeWord
  by_cases hv : v = 0
  · rw [if_neg (not_not.mpr hv), if_pos hv, List.append_nil]
  · rw [if_pos hv, if_neg hv]
    exact addEntry_filled h _

theorem addText_filled (pool : Pool) {nTotal : Nat} {strings : List Block}
    (h : strings.length ≤ nTotal) (front : String) (szText : Option Block) (array : CmdArray) :
    addText pool front szText (filled nTotal strings) = some array ↔
      pool.FitsText front szText ∧ array = filled nTotal (strings ++ textWord front szText) := by
  cases szText with
  | none =>
    have hfits : pool.FitsText front none := nofun
    show some (filled nTotal strings) = some array ↔
      _ ∧ array = filled nTotal (strings ++ [])
    rw [List.append_nil, Option.some.injEq, eq_comm, and_iff_right hfits]
  | some data =>
    have hfits : pool.FitsText front (some data) ↔ 0 ∈ data ∧
        0 < pool.padding (wide front ++ data.takeWhile (· ≠ 0)).length :=
      ⟨fun h => h data rfl, fun h _ hmem => Option.some.inj hmem ▸ h⟩
    have hword : textWord front (some data) = [wide front ++ data.takeWhile (· ≠ 0)] := rfl
    rw [hfits, hword]
    unfold addText allocWrite
    dsimp only
    set text := wide front ++ data.takeWhile (· ≠ 0)
    have htext : (text ++ [0]).length = text.length + 1 := List.length_append
    by_cases hend : 0 ∈ data
    · rw [if_pos hend, htext]
      by_cases hroom : 0 < pool.padding text.length
      · rw [if_pos (by omega), Option.bind_eq_bind, Option.bind_some, addEntry_filled h,
          Option.some.injEq, eq_comm]
        exact (and_iff_right ⟨hend, hroom⟩).symm
      · rw [if_neg (by omega)]
        exact ⟨nofun, fun h => absurd h.1.2 hroom⟩
    · rw [if_neg hend]
      exact ⟨nofun, fun h => absurd h.1.1 hend⟩

theorem addArguments_filled (pool : Pool) {szCmdArgs : Option Block}
    {strings args words : List Block} (h : Lists szCmdArgs args) (hwords : strings ++ args = words)
    (array : CmdArray) :
    addArguments pool szCmdArgs (encodeStrings (0 : WChar) args).length args.length words.length
        (filled words.length strings) = some array ↔
      (args ≠ [] → pool.FitsList szCmdArgs args) ∧ array = filled words.length words := by
  unfold addArguments
  by_cases hne : args = []
  · rw [hne, List.append_nil] at hwords
    rw [hne, if_neg (fun h => h.1 rfl), hwords, Option.some.injEq, eq_comm,
      and_iff_right fun h => absurd rfl h]
  · have hlength : words.length = strings.length + args.length := by
      rw [← hwords, List.length_append]
    have hcount : words.length - strings.length = args.length := by omega
    have hfilled := @addEntries_filled words.length strings args (by omega)
    rw [if_pos (length_encodeStrings_ne_zero hne)]
    show (copiedStrings pool szCmdArgs _ (words.length - strings.length)).bind _ = _ ↔ _
    rw [hcount, bind_eq_some_of_iff (copiedStrings_eq_some pool h hne), hfilled, hwords,
      Option.some.injEq, eq_comm (b := array)]
    exact and_congr_left fun _ => ⟨fun h _ => h, fun h => h hne⟩

theorem endArray_filled (strings : List Block) :
    endArray (filled strings.length strings) =
      some (strings.map .string ++ [.uninitialised, .null]) := by
  have hbehind : strings.length + 2 - strings.length = 2 := Nat.add_sub_cancel_left _ _
  unfold filled endArray
  dsimp only
  rw [hbehind, if_pos (by simp), List.set_append_right _ _ (by simp), List.length_map,
    Nat.add_sub_cancel_left]
  rfl

/-! ## Without options -/

theorem addNumber_none {v : UInt32} (hv : v ≠ 0) (front unit : String) (entries : List Slot) :
    addNumber front v unit (none, entries) = none :=
  if_pos hv

theorem addNumber_zero (front unit : String) (array : CmdArray) :
    addNumber front 0 unit array = some array :=
  rfl

theorem addText_none (pool : Pool) (front : String) (data : Block) (entries : List Slot) :
    addText pool front (some data) (none, entries) = none := by
  unfold addText
  dsimp only
  split_ifs
  · exact Option.bind_eq_none_iff.mpr fun _ _ => rfl
  · rfl

theorem addArguments_none (pool : Pool) (szCmdArgs : Option Block) {args : List Block}
    (hne : args ≠ []) (nTotal : Nat) (entries : List Slot) :
    addArguments pool szCmdArgs (encodeStrings (0 : WChar) args).length args.length nTotal
      (none, entries) = none :=
  if_pos (length_encodeStrings_ne_zero hne)

/-! ## The whole function -/

theorem length_sizeWord (front : String) (v : UInt32) (unit : String) :
    (sizeWord front v unit).length = (v != 0).toNat := by
  unfold sizeWord
  split_ifs with hv
  · rw [hv]
    rfl
  · rw [bne_iff_ne.mpr hv]
    rfl

theorem length_textWord (front : String) (szText : Option Block) :
    (textWord front szText).length = szText.isSome.toNat := by
  cases szText <;> rfl

/-- The words of `java`, as strings of its array. -/
def javaStrings (pool : Pool) (szClassPath szClass szOptions : Option Block)
    (dwMs dwMx dwSs : UInt32) (szCmdArgs : Option Block) : Option (List Block) := do
  let (nArgs, lpArgs) ← javaCmdInitialize pool szClassPath szClass szOptions dwMs dwMx dwSs
    szCmdArgs
  arrayStrings (lpArgs.getD []) 0 nArgs

section

variable (pool : Pool) {szOptions szCmdArgs : Option Block} {jvmOptions args : List Block}
variable (hoptions : Lists szOptions jvmOptions) (hargs : Lists szCmdArgs args)
variable (szClassPath szClass : Option Block) (dwMs dwMx dwSs : UInt32)

include hoptions hargs

theorem javaCmdInitialize_nothing
    (hnothing : javaWords szClassPath szClass jvmOptions dwMs dwMx dwSs args = []) :
    javaCmdInitialize pool szClassPath szClass szOptions dwMs dwMx dwSs szCmdArgs =
      some (0, none) := by
  have hlength := congrArg List.length hnothing
  unfold javaWords at hlength
  simp only [List.length_append, length_sizeWord, length_textWord, List.length_nil] at hlength
  unfold javaCmdInitialize
  rw [getMultiSzLength_eq hoptions, getMultiSzLength_eq hargs]
  simp only [Option.bind_eq_bind, Option.bind_some]
  rw [if_pos (by omega)]
  rfl

/-- Without options the first thing that is given fails: the index is not set. -/
theorem javaCmdInitialize_without (hnone : jvmOptions = [])
    (hwords : javaWords szClassPath szClass jvmOptions dwMs dwMx dwSs args ≠ []) :
    javaCmdInitialize pool szClassPath szClass szOptions dwMs dwMx dwSs szCmdArgs = none := by
  have hlength := List.length_pos_iff.mpr hwords
  unfold javaWords at hlength
  simp only [List.length_append, length_sizeWord, length_textWord] at hlength
  unfold javaCmdInitialize
  rw [getMultiSzLength_eq hoptions, getMultiSzLength_eq hargs]
  simp only [Option.bind_eq_bind, Option.bind_some]
  rw [if_neg (by omega)]
  subst hnone
  show (addNumber "-Xms" dwMs "m" (none, _)).bind _ = none
  by_cases hms : dwMs ≠ 0
  · rw [addNumber_none hms]
    rfl
  rw [not_not.mp hms, addNumber_zero, Option.bind_some]
  by_cases hmx : dwMx ≠ 0
  · rw [addNumber_none hmx]
    rfl
  rw [not_not.mp hmx, addNumber_zero, Option.bind_some]
  by_cases hss : dwSs ≠ 0
  · rw [addNumber_none hss]
    rfl
  rw [not_not.mp hss, addNumber_zero, Option.bind_some]
  cases szClassPath with
  | some data =>
    rw [addText_none]
    rfl
  | none =>
    cases szClass with
    | some data =>
      show (addText pool "" (some data) (none, _)).bind _ = none
      rw [addText_none]
      rfl
    | none =>
      have hsome : args ≠ [] := by
        rintro rfl
        rw [not_not.mp hms, not_not.mp hmx, not_not.mp hss] at hlength
        exact absurd hlength (by decide)
      show (addArguments pool szCmdArgs _ _ _ (none, _)).bind _ = none
      rw [addArguments_none pool szCmdArgs hsome]
      rfl

theorem javaCmdInitialize_with (hne : jvmOptions ≠ []) (result : Nat × Option (List Slot)) :
    javaCmdInitialize pool szClassPath szClass szOptions dwMs dwMx dwSs szCmdArgs =
        some result ↔
      pool.FitsJava szClassPath szClass szOptions szCmdArgs jvmOptions args ∧
        result = ((javaWords szClassPath szClass jvmOptions dwMs dwMx dwSs args).length,
          some ((javaWords szClassPath szClass jvmOptions dwMs dwMx dwSs args).map .string ++
            [.uninitialised, .null])) := by
  set words := javaWords szClassPath szClass jvmOptions dwMs dwMx dwSs args with hwords
  have htotal : szClassPath.isSome.toNat + szClass.isSome.toNat + jvmOptions.length +
      args.length + (dwMs != 0).toNat + (dwMx != 0).toNat + (dwSs != 0).toNat =
        words.length := by
    rw [hwords]
    unfold javaWords
    simp only [List.length_append, length_sizeWord, length_textWord]
    omega
  have hsome : words.length ≠ 0 := by
    have := List.length_pos_iff.mpr hne
    omega
  have hfits : pool.FitsJava szClassPath szClass szOptions szCmdArgs jvmOptions args ↔
      pool.FitsList szOptions jvmOptions ∧ pool.FitsText "-Djava.class.path=" szClassPath ∧
        pool.FitsText "" szClass ∧ (args ≠ [] → pool.FitsList szCmdArgs args) :=
    ⟨fun h => ⟨h.options, h.classPath, h.className, h.args⟩,
      fun ⟨h₁, h₂, h₃, h₄⟩ => ⟨hne, h₁, h₂, h₃, h₄⟩⟩
  have h₅ : _ <+: words := List.prefix_append _ args
  have h₄ : _ <+: words := (List.prefix_append _ (textWord "" szClass)).trans h₅
  have h₃ : _ <+: words :=
    (List.prefix_append _ (textWord "-Djava.class.path=" szClassPath)).trans h₄
  have h₂ : _ <+: words := (List.prefix_append _ (sizeWord "-Xss" dwSs "k")).trans h₃
  have h₁ : _ <+: words := (List.prefix_append _ (sizeWord "-Xmx" dwMx "m")).trans h₂
  have h₀ : jvmOptions <+: words := (List.prefix_append _ (sizeWord "-Xms" dwMs "m")).trans h₁
  unfold javaCmdInitialize
  rw [getMultiSzLength_eq hoptions, getMultiSzLength_eq hargs]
  simp only [Option.bind_eq_bind, Option.bind_some]
  rw [htotal, if_neg hsome, hfits,
    bind_eq_some_of_iff (addOptions_filled pool hoptions hne h₀.length_le),
    addNumber_filled h₀.length_le, Option.bind_some, addNumber_filled h₁.length_le,
    Option.bind_some, addNumber_filled h₂.length_le, Option.bind_some,
    bind_eq_some_of_iff (addText_filled pool h₃.length_le "-Djava.class.path=" szClassPath),
    bind_eq_some_of_iff (addText_filled pool h₄.length_le "" szClass),
    bind_eq_some_of_iff (addArguments_filled pool hargs hwords.symm), endArray_filled,
    Option.bind_some, and_assoc, and_assoc, and_assoc]
  show _ ∧ _ ∧ _ ∧ _ ∧ some _ = some result ↔ _
  rw [Option.some.injEq, eq_comm (a := result)]

/-- The words of `java` are those that it should get, and they have a defined result if and only
if nothing is given, or an option is given and all blocks have room. -/
theorem javaStrings_eq_some (strings : List Block) :
    javaStrings pool szClassPath szClass szOptions dwMs dwMx dwSs szCmdArgs = some strings ↔
      (javaWords szClassPath szClass jvmOptions dwMs dwMx dwSs args = [] ∨
        pool.FitsJava szClassPath szClass szOptions szCmdArgs jvmOptions args) ∧
      strings = javaWords szClassPath szClass jvmOptions dwMs dwMx dwSs args := by
  unfold javaStrings
  rw [Option.bind_eq_bind]
  by_cases hnothing : javaWords szClassPath szClass jvmOptions dwMs dwMx dwSs args = []
  · rw [javaCmdInitialize_nothing pool hoptions hargs _ _ _ _ _ hnothing, hnothing,
      and_iff_right (.inl rfl), eq_comm]
    exact Option.some_inj
  rw [or_iff_right hnothing]
  by_cases hne : jvmOptions = []
  · rw [javaCmdInitialize_without pool hoptions hargs _ _ _ _ _ hne hnothing]
    exact ⟨nofun, fun h => absurd hne h.1.index⟩
  · rw [bind_eq_some_of_iff (javaCmdInitialize_with pool hoptions hargs _ _ _ _ _ hne)]
    have hread := arrayStrings_eq (javaWords szClassPath szClass jvmOptions dwMs dwMx dwSs args)
      [] [.uninitialised, .null]
    refine and_congr_right fun _ => ?_
    exact (Eq.congr_left hread).trans (Option.some_inj.trans eq_comm)

end

/-- The copy of the second option has no room. -/
example :
    javaStrings ⟨16, fun _ => 0⟩ none none (some (wide "-Xa" ++ [0, 0])) 0 0 0 none =
      some [wide "-Xa"] ∧
    javaStrings ⟨16, fun _ => 0⟩ none none (some (wide "-Xabcd" ++ [0, 0])) 0 0 0 none = none := by
  decide +kernel

theorem zero_not_mem_sizeWord {front unit : String} (hfront : 0 ∉ wide front)
    (hunit : 0 ∉ wide unit) (v : UInt32) : ∀ word ∈ sizeWord front v unit, 0 ∉ word := by
  have hdecimal : ∀ n : Nat, 0 ∉ decimal n :=
    fun n hmem => absurd (isDigit_of_mem_decimal hmem) (by decide)
  have hnumber : 0 ∉ wsprintfD v := by
    unfold wsprintfD
    split_ifs
    · exact hdecimal _
    · rw [List.mem_cons, not_or]
      exact ⟨by decide, hdecimal _⟩
  unfold sizeWord
  split_ifs
  · exact nofun
  · rw [List.forall_mem_singleton, List.mem_append, List.mem_append, not_or, not_or]
    exact ⟨⟨hfront, hnumber⟩, hunit⟩

theorem zero_not_mem_textWord {front : String} (hfront : 0 ∉ wide front)
    (szText : Option Block) : ∀ word ∈ textWord front szText, 0 ∉ word := by
  cases szText with
  | none => exact nofun
  | some data =>
    show ∀ word ∈ [wide front ++ data.takeWhile (· ≠ 0)], 0 ∉ word
    rw [List.forall_mem_singleton, List.mem_append, not_or]
    exact ⟨hfront, fun hmem => absurd (List.mem_takeWhile_imp hmem) (by decide)⟩

theorem zero_not_mem_javaWords {jvmOptions args : List Block}
    (hoptions : ∀ option ∈ jvmOptions, 0 ∉ option) (hargs : ∀ arg ∈ args, 0 ∉ arg)
    (szClassPath szClass : Option Block) (dwMs dwMx dwSs : UInt32) :
    ∀ word ∈ javaWords szClassPath szClass jvmOptions dwMs dwMx dwSs args, 0 ∉ word := by
  unfold javaWords
  simp only [List.forall_mem_append]
  exact ⟨⟨⟨⟨⟨⟨hoptions, zero_not_mem_sizeWord (by decide) (by decide) dwMs⟩,
    zero_not_mem_sizeWord (by decide) (by decide) dwMx⟩,
    zero_not_mem_sizeWord (by decide) (by decide) dwSs⟩,
    zero_not_mem_textWord (by decide) szClassPath⟩, zero_not_mem_textWord (by decide) szClass⟩,
    hargs⟩

end BoundaryEventSdk.Prunsrv
