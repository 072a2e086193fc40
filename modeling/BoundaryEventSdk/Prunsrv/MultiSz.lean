import Mathlib.Data.List.TakeWhile
import BoundaryEventSdk.C.MultiSz

/-!
# The multi-strings of `utils.c`

The service runner keeps its lists, such as the options of the virtual machine,
as multi-strings of wide characters.  A block is the list of the characters that
are allocated; reading behind it or writing behind it gives `none`.

* Each function is described by the strings of the blocks that it reads and
  writes: `getMultiSzLength_eq`, `multiSzCombine_eq`,
  `multiSzToArray_eq`.
* The manager shows a list as text with one string a line, and reads the text
  back.  `crlfToMsz_eq` says what becomes of a text that is typed, and
  `shown_list_saved` what becomes of a list that is shown.
-/

namespace BoundaryEventSdk.Prunsrv

open BoundaryEventSdk.C

/-- A wide character. -/
abbrev WChar := UInt16

/-- The characters that a pointer leads to. -/
abbrev Block := List WChar

/-- `calloc` of some characters, and writing to the first of them. -/
def callocWrite (size : Nat) (content : Block) : Option Block :=
  if content.length ≤ size then
    some (content ++ List.replicate (size - content.length) 0)
  else
    none

variable {α : Type} [OfNat α 0]

/-- The loops of `__apxGetMultiSzLengthW` and `__apxGetMultiSzLengthA`: the distance to
the end, and the number of strings.  The inner loop is inside of a string. -/
def getMultiSzLengthFrom [DecidableEq α] (inside : Bool) : List α → Option (Nat × Nat)
  | [] => none
  | c :: p =>
    if c = 0 then
      if inside then (getMultiSzLengthFrom false p).map fun (l, n) => (l + 1, n)
      else some (0, 0)
    else
      (getMultiSzLengthFrom true p).map fun (l, n) => (l + 1, if inside then n else n + 1)

/-- `__apxGetMultiSzLengthW` and `__apxGetMultiSzLengthA`. -/
def getMultiSzLength [DecidableEq α] (lpStr : Option (List α)) : Option (Nat × Nat) :=
  match lpStr with
  | some p => getMultiSzLengthFrom false p
  | none => some (0, 0)

/-- `AplMoveMemory` of the first characters of a block. -/
def moveMemory (lpStr : Option (List α)) (length : Nat) : Option (List α) :=
  match lpStr with
  | some p => if length ≤ p.length then some (p.take length) else none
  | none => if length = 0 then some [] else none

/-- `apxMultiSzCombine`: the result, and its length in bytes. -/
def multiSzCombine (lpStrA lpStrB : Option Block) : Option (Option (Block × Nat)) := do
  if lpStrA = none ∧ lpStrB = none then
    return none
  let (la, _) ← getMultiSzLength lpStrA
  let (lb, _) ← getMultiSzLength lpStrB
  let a ← moveMemory lpStrA la
  let b ← moveMemory lpStrB lb
  let rv ← callocWrite (la + lb + 1) (a ++ b)
  return some (rv, (la + lb + 1) * 2)

/-- An entry of the array of `apxMultiSzToArrayW`. -/
inductive Slot where
  | string (p : Block)
  | null
  | uninitialised

/-- The loop that takes the strings from the block. -/
def takeStrings : Nat → Block → Option (List Slot)
  | 0, _ => some []
  | n + 1, p => do
    let s := p.takeWhile (· ≠ 0)
    if s.length < p.length then
      let slots ← takeStrings n (p.drop (s.length + 1))
      return .string s :: slots
    else
      none

/-- `apxMultiSzToArrayW`: the number of strings, and the array if there is one.  The null
that ends the array is put behind an entry that nothing is written to. -/
def multiSzToArray (lpString : Option Block) : Option (Nat × Option (List Slot)) := do
  let (l, n) ← getMultiSzLength lpString
  if n = 0 ∨ l = 0 then
    return (0, none)
  let p ← moveMemory lpString (l + 1)
  let slots ← takeStrings n p
  return (n, some (slots ++ [.uninitialised, .null]))

/-- The loop of `apxMszToCRLFW`, for `c` strings. -/
def copyLines : Block → Nat → Option Block
  | _, 0 => some []
  | [], _ + 1 => none
  | x :: p, c + 1 =>
    if x ≠ 0 then (copyLines p (c + 1)).map (x :: ·)
    else (copyLines p c).map ([13, 10] ++ ·)

/-- `apxMszToCRLFW`. -/
def mszToCRLF (szStr : Option Block) : Option Block := do
  let (l, c) ← getMultiSzLength szStr
  let text ← copyLines (szStr.getD []) c
  callocWrite (l + c + 2) text

/-- What `apxCRLFToMszW` writes for the characters of a text. -/
def mszOfText (text : Block) : Block :=
  text.flatMap fun c => if c = 13 then [0] else if c ≠ 10 then [c] else []

/-- `apxCRLFToMszW`: the block, and its length in bytes. -/
def crlfToMsz (szStr : Block) : Option (Block × Nat) := do
  if (0 : WChar) ∉ szStr then
    none
  let text := szStr.takeWhile (· ≠ 0)
  let rv ← callocWrite (text.length + 2) (mszOfText text)
  return (rv, ((mszOfText text).length + 2) * 2)

/-! ## The strings of a block -/

/-- The strings that a pointer leads to; a null pointer leads to none. -/
def Lists (lpStr : Option (List α)) (strings : List (List α)) : Prop :=
  match lpStr with
  | some block => Encodes 0 block strings
  | none => strings = []

theorem Lists.proper {lpStr : Option (List α)} {strings : List (List α)}
    (h : Lists lpStr strings) : ∀ s ∈ strings, s ≠ [] ∧ (0 : α) ∉ s := by
  cases lpStr with
  | none =>
    have hnil : strings = [] := h
    subst hnil
    exact nofun
  | some block => exact Encodes.proper h

theorem getMultiSzLengthFrom_true [DecidableEq α] {s p : List α} (hs : (0 : α) ∉ s) :
    getMultiSzLengthFrom true (s ++ 0 :: p) =
      (getMultiSzLengthFrom false p).map fun (l, n) => (l + (s.length + 1), n) := by
  induction s with
  | nil =>
    rw [List.nil_append, getMultiSzLengthFrom, if_pos rfl, if_pos rfl]
    rfl
  | cons c s ih =>
    have hc : c ≠ 0 := fun h => hs (h ▸ List.mem_cons_self)
    rw [List.cons_append, getMultiSzLengthFrom, if_neg hc,
      ih fun hmem => hs (List.mem_cons_of_mem c hmem), Option.map_map]
    rfl

/-- A string and its terminator. -/
theorem getMultiSzLengthFrom_false [DecidableEq α] {s p : List α} (hne : s ≠ [])
    (hs : (0 : α) ∉ s) :
    getMultiSzLengthFrom false (s ++ 0 :: p) =
      (getMultiSzLengthFrom false p).map fun (l, n) => (l + (s.length + 1), n + 1) := by
  cases s with
  | nil => exact absurd rfl hne
  | cons c s =>
    have hc : c ≠ 0 := fun h => hs (h ▸ List.mem_cons_self)
    rw [List.cons_append, getMultiSzLengthFrom, if_neg hc,
      getMultiSzLengthFrom_true fun hmem => hs (List.mem_cons_of_mem c hmem), Option.map_map]
    rfl

theorem getMultiSzLengthFrom_eq [DecidableEq α] {strings : List (List α)} (rest : List α)
    (h : ∀ s ∈ strings, s ≠ [] ∧ (0 : α) ∉ s) :
    getMultiSzLengthFrom false (encodeStrings 0 strings ++ 0 :: rest) =
      some ((encodeStrings (0 : α) strings).length, strings.length) := by
  induction strings with
  | nil =>
    show getMultiSzLengthFrom false (0 :: rest) = _
    rw [getMultiSzLengthFrom, if_pos rfl, if_neg (by decide)]
    rfl
  | cons s strings ih =>
    obtain ⟨hne, hs⟩ := h s List.mem_cons_self
    rw [encodeStrings_cons, List.append_assoc, List.cons_append,
      getMultiSzLengthFrom_false hne hs, ih fun s hs => h s (List.mem_cons_of_mem _ hs)]
    show some (_ + (s.length + 1), strings.length + 1) = _
    rw [List.length_append, List.length_cons, List.length_cons]
    congr 2
    omega

theorem getMultiSzLength_eq [DecidableEq α] {lpStr : Option (List α)} {strings : List (List α)}
    (h : Lists lpStr strings) :
    getMultiSzLength lpStr =
      some ((encodeStrings (0 : α) strings).length, strings.length) := by
  cases lpStr with
  | none =>
    have hnil : strings = [] := h
    subst hnil
    rfl
  | some block =>
    obtain ⟨hproper, rest, rfl⟩ := h
    exact getMultiSzLengthFrom_eq rest hproper

theorem moveMemory_eq {lpStr : Option (List α)} {strings : List (List α)}
    (h : Lists lpStr strings) :
    moveMemory lpStr (encodeStrings (0 : α) strings).length =
      some (encodeStrings 0 strings) := by
  cases lpStr with
  | none =>
    have hnil : strings = [] := h
    subst hnil
    rfl
  | some block =>
    obtain ⟨_, rest, rfl⟩ := h
    unfold moveMemory
    dsimp only
    rw [if_pos (by rw [List.length_append]; omega), List.take_left]

theorem callocWrite_eq {content : Block} {size : Nat} (h : content.length ≤ size) :
    callocWrite size content =
      some (content ++ List.replicate (size - content.length) 0) :=
  if_pos h

/-- The strings of two blocks, one after the other. -/
theorem multiSzCombine_eq {lpStrA lpStrB : Option Block} {stringsA stringsB : List Block}
    (hA : Lists lpStrA stringsA) (hB : Lists lpStrB stringsB)
    (hnull : ¬(lpStrA = none ∧ lpStrB = none)) :
    multiSzCombine lpStrA lpStrB =
      some (some (encodeStrings 0 (stringsA ++ stringsB) ++ [0],
        (encodeStrings (0 : WChar) (stringsA ++ stringsB)).length * 2 + 2)) := by
  unfold multiSzCombine
  rw [if_neg hnull, getMultiSzLength_eq hA, getMultiSzLength_eq hB]
  simp only [Option.bind_eq_bind, Option.bind_some]
  rw [moveMemory_eq hA, moveMemory_eq hB, Option.bind_some, Option.bind_some,
    ← encodeStrings_append, ← List.length_append, ← encodeStrings_append,
    callocWrite_eq (Nat.le_succ _)]
  have hone : (encodeStrings (0 : WChar) (stringsA ++ stringsB)).length + 1 -
      (encodeStrings (0 : WChar) (stringsA ++ stringsB)).length = 1 := by
    omega
  rw [hone, Nat.add_mul]
  rfl

theorem takeStrings_eq {strings : List Block} (rest : Block)
    (h : ∀ s ∈ strings, (0 : WChar) ∉ s) :
    takeStrings strings.length (encodeStrings 0 strings ++ rest) =
      some (strings.map .string) := by
  induction strings with
  | nil => rfl
  | cons s strings ih =>
    have hs := h s List.mem_cons_self
    have htake : (s ++ 0 :: (encodeStrings 0 strings ++ rest)).takeWhile (· ≠ 0) = s := by
      rw [List.takeWhile_append_of_pos (by
        intro c hc
        exact decide_eq_true fun hzero => hs (hzero ▸ hc)), List.takeWhile_cons_of_neg (by simp),
        List.append_nil]
    have hdrop : (s ++ 0 :: (encodeStrings 0 strings ++ rest)).drop (s.length + 1) =
        encodeStrings 0 strings ++ rest := by
      rw [List.drop_length_add_append]
      rfl
    rw [encodeStrings_cons, List.append_assoc, List.cons_append, List.length_cons, takeStrings,
      htake, hdrop, if_pos (by rw [List.length_append, List.length_cons]; omega),
      ih fun s hs => h s (List.mem_cons_of_mem _ hs)]
    rfl

/-- The array has the strings, and one more entry than they need before the null. -/
theorem multiSzToArray_eq {lpString : Option Block} {strings : List Block}
    (h : Lists lpString strings) :
    multiSzToArray lpString = some (strings.length,
      if strings = [] then none else some (strings.map .string ++ [.uninitialised, .null])) := by
  unfold multiSzToArray
  rw [getMultiSzLength_eq h]
  cases strings with
  | nil => rfl
  | cons s strings =>
    cases lpString with
    | none => cases h
    | some block =>
      obtain ⟨hproper, rest, rfl⟩ := h
      have hlength : 0 < (encodeStrings (0 : WChar) (s :: strings)).length := by
        rw [encodeStrings_cons, List.length_append, List.length_cons]
        omega
      have hmove : moveMemory (some (encodeStrings 0 (s :: strings) ++ 0 :: rest))
          ((encodeStrings (0 : WChar) (s :: strings)).length + 1) =
            some (encodeStrings 0 (s :: strings) ++ [0]) := by
        unfold moveMemory
        dsimp only
        rw [if_pos (by rw [List.length_append, List.length_cons]; omega),
          List.take_length_add_append]
        rfl
      rw [Option.bind_eq_bind, Option.bind_some]
      dsimp only
      rw [if_neg (by rw [List.length_cons]; omega), hmove]
      show (takeStrings (s :: strings).length (encodeStrings 0 (s :: strings) ++ [0])).bind _ = _
      rw [takeStrings_eq [0] fun s hs => (hproper s hs).2]
      rfl

/-! ## Lists as text -/

theorem copyLines_string {s p : Block} {c : Nat} (hs : (0 : WChar) ∉ s) :
    copyLines (s ++ 0 :: p) (c + 1) = (copyLines p c).map ((s ++ [13, 10]) ++ ·) := by
  induction s with
  | nil => rfl
  | cons x s ih =>
    have hx : x ≠ 0 := fun h => hs (h ▸ List.mem_cons_self)
    rw [List.cons_append, copyLines, if_pos hx, ih fun hmem => hs (List.mem_cons_of_mem x hmem),
      Option.map_map]
    rfl

theorem copyLines_eq {strings : List Block} (rest : Block)
    (h : ∀ s ∈ strings, (0 : WChar) ∉ s) :
    copyLines (encodeStrings 0 strings ++ rest) strings.length =
      some (strings.flatMap (· ++ [13, 10])) := by
  induction strings with
  | nil =>
    cases rest with
    | nil => rfl
    | cons _ _ => rfl
  | cons s strings ih =>
    rw [encodeStrings_cons, List.append_assoc, List.cons_append, List.length_cons,
      copyLines_string (h s List.mem_cons_self), ih fun s hs => h s (List.mem_cons_of_mem _ hs)]
    rfl

theorem length_lines (strings : List Block) :
    (strings.flatMap (· ++ [13, 10])).length =
      (encodeStrings (0 : WChar) strings).length + strings.length := by
  induction strings with
  | nil => rfl
  | cons s strings ih =>
    rw [List.flatMap_cons, encodeStrings_cons, List.length_append, List.length_append, ih,
      List.length_append]
    simp only [List.length_cons, List.length_nil]
    omega

/-- A list is shown as one line for each string. -/
theorem mszToCRLF_eq {szStr : Option Block} {strings : List Block} (h : Lists szStr strings) :
    mszToCRLF szStr = some (strings.flatMap (· ++ [13, 10]) ++ [0, 0]) := by
  have hcopy : copyLines (szStr.getD []) strings.length =
      some (strings.flatMap (· ++ [13, 10])) := by
    cases szStr with
    | none =>
      have hnil : strings = [] := h
      subst hnil
      rfl
    | some block =>
      obtain ⟨hproper, rest, rfl⟩ := h
      exact copyLines_eq _ fun s hs => (hproper s hs).2
  unfold mszToCRLF
  rw [getMultiSzLength_eq h, Option.bind_eq_bind, Option.bind_some]
  dsimp only
  rw [hcopy, Option.bind_eq_bind, Option.bind_some,
    callocWrite_eq (by rw [length_lines]; omega), length_lines]
  rw [show ∀ n : Nat, n + 2 - n = 2 by omega]
  rfl

/-- The lines of a text.  A carriage return ends a line; a line feed is dropped wherever it is,
and one without a carriage return ends no line. -/
def linesOf (text : Block) : List Block :=
  (text.filter (· ≠ 10)).splitOn 13

theorem mem_linesOf {text line : Block} (h : line ∈ linesOf text) :
    13 ∉ line ∧ 10 ∉ line ∧ ∀ c ∈ line, c ∈ text := by
  obtain ⟨hreturn, hmem⟩ := of_mem_splitOn h
  have hfilter : ∀ c ∈ line, c ∈ text ∧ c ≠ 10 := fun c hc => by
    simpa using hmem c hc
  exact ⟨hreturn, fun hfeed => (hfilter 10 hfeed).2 rfl, fun c hc => (hfilter c hc).1⟩

/-- Lines become strings with a terminator between two of them. -/
theorem mszOfText_eq (text : Block) : mszOfText text = [0].intercalate (linesOf text) := by
  induction text with
  | nil => rfl
  | cons c text ih =>
    have hwritten : mszOfText (c :: text) =
        (if c = 13 then [0] else if c ≠ 10 then [c] else []) ++ mszOfText text := rfl
    rw [hwritten, ih]
    have hne : linesOf text ≠ [] := List.splitOn_ne_nil _ _
    by_cases hreturn : c = 13
    · subst hreturn
      have hlines : linesOf (13 :: text) = [] :: linesOf text := by
        unfold linesOf
        rw [List.filter_cons_of_pos (by decide), List.splitOn_cons_eq_if_modifyHead,
          if_pos (beq_self_eq_true _)]
      rw [if_pos rfl, hlines, List.intercalate_cons_of_ne_nil hne]
      rfl
    rw [if_neg hreturn]
    by_cases hfeed : c = 10
    · subst hfeed
      have hlines : linesOf (10 :: text) = linesOf text := by
        unfold linesOf
        rw [List.filter_cons_of_neg (by decide)]
      rw [hlines]
      rfl
    · have hlines : linesOf (c :: text) = (linesOf text).modifyHead (c :: ·) := by
        unfold linesOf
        rw [List.filter_cons_of_pos (by simpa using hfeed), List.splitOn_cons_eq_if_modifyHead,
          if_neg (by simpa using hreturn)]
      rw [if_pos hfeed, hlines]
      cases hsplit : linesOf text with
      | nil => exact absurd hsplit hne
      | cons line lines =>
        cases lines with
        | nil =>
          rw [List.modifyHead_cons, List.intercalate_singleton, List.intercalate_singleton]
          rfl
        | cons next lines =>
          rw [List.modifyHead_cons, List.intercalate_cons_cons, List.intercalate_cons_cons]
          rfl

theorem length_mszOfText_le (text : Block) : (mszOfText text).length ≤ text.length := by
  induction text with
  | nil => exact Nat.le_refl 0
  | cons c text ih =>
    show ((if c = 13 then [0] else if c ≠ 10 then [c] else []) ++ mszOfText text).length ≤ _
    rw [List.length_append, List.length_cons]
    split_ifs <;> simp only [List.length_cons, List.length_nil] <;> omega

/-- The block that is stored for a text has its lines, up to the first one that is
empty. -/
theorem crlfToMsz_eq {text : Block} (htext : (0 : WChar) ∉ text) (rest : Block) :
    ∃ rv bytes, crlfToMsz (text ++ 0 :: rest) = some (rv, bytes) ∧
      Encodes 0 (rv.take (bytes / 2)) ((linesOf text).takeWhile fun line => !line.isEmpty) := by
  have htake : (text ++ 0 :: rest).takeWhile (· ≠ 0) = text := by
    rw [List.takeWhile_append_of_pos (by
      intro c hc
      exact decide_eq_true fun hzero => htext (hzero ▸ hc)), List.takeWhile_cons_of_neg (by simp),
      List.append_nil]
  have hlength := length_mszOfText_le text
  refine ⟨mszOfText text ++ List.replicate (text.length + 2 - (mszOfText text).length) 0,
    ((mszOfText text).length + 2) * 2, ?_, ?_⟩
  · unfold crlfToMsz
    rw [if_neg (fun h => h (List.mem_append_right _ List.mem_cons_self))]
    dsimp only
    rw [htake, callocWrite_eq (by omega)]
    rfl
  · rw [Nat.mul_div_cancel _ (by decide), List.take_length_add_append,
      show text.length + 2 - (mszOfText text).length =
        (text.length - (mszOfText text).length) + 1 + 1 by omega,
      List.replicate_succ, List.replicate_succ]
    show Encodes 0 (mszOfText text ++ [0, 0]) _
    rw [mszOfText_eq, show ([0, 0] : Block) = [0] ++ [0] from rfl, ← List.append_assoc,
      intercalate_append (show linesOf text ≠ [] from List.splitOn_ne_nil _ _)]
    exact encodes_parts (fun line hline hzero => htext ((mem_linesOf hline).2.2 0 hzero)) []

theorem linesOf_append (text more : Block) :
    linesOf (text ++ 13 :: 10 :: more) = linesOf text ++ linesOf more := by
  unfold linesOf
  rw [List.filter_append, List.filter_cons_of_pos (by decide), List.filter_cons_of_neg (by decide),
    List.splitOn_append_cons_self]

/-- A string without line characters is one line. -/
theorem linesOf_eq_singleton {s : Block} (hreturn : 13 ∉ s) (hfeed : 10 ∉ s) :
    linesOf s = [s] := by
  have hfilter : s.filter (· ≠ 10) = s := by
    rw [List.filter_eq_self]
    intro c hc
    exact decide_eq_true fun h => hfeed (h ▸ hc)
  unfold linesOf
  rw [hfilter, List.splitOn_eq_singleton hreturn]

theorem linesOf_lines (strings : List Block) :
    linesOf (strings.flatMap (· ++ [13, 10])) = strings.flatMap linesOf ++ [[]] := by
  induction strings with
  | nil => rfl
  | cons s strings ih =>
    rw [List.flatMap_cons, List.append_assoc, List.flatMap_cons, List.append_assoc, ← ih]
    exact linesOf_append s _

/-- A list that the manager shows, and that it saves as it is shown: each string becomes
its lines, and the list ends at the first one that is empty.  So the list is kept if
and only if no string has a line character. -/
theorem shown_list_saved {szStr : Option Block} {strings : List Block} (h : Lists szStr strings) :
    ∃ text rv bytes saved, mszToCRLF szStr = some text ∧ crlfToMsz text = some (rv, bytes) ∧
      Encodes 0 (rv.take (bytes / 2)) saved ∧
      saved = (strings.flatMap linesOf).takeWhile (fun line => !line.isEmpty) ∧
      (saved = strings ↔ ∀ s ∈ strings, 13 ∉ s ∧ 10 ∉ s) := by
  have hproper := h.proper
  have htext : (0 : WChar) ∉ strings.flatMap (· ++ [13, 10]) := by
    intro hzero
    obtain ⟨s, hs, hmem⟩ := List.mem_flatMap.mp hzero
    rcases List.mem_append.mp hmem with hmem | hmem
    · exact (hproper s hs).2 hmem
    · exact absurd hmem (by decide)
  obtain ⟨rv, bytes, hsave, hencodes⟩ := crlfToMsz_eq htext [0]
  rw [linesOf_lines] at hencodes
  have hlast : (strings.flatMap linesOf ++ [[]]).takeWhile (fun line => !line.isEmpty) =
      (strings.flatMap linesOf).takeWhile (fun line => !line.isEmpty) := by
    rw [List.takeWhile_append]
    split_ifs with hall
    · rw [List.takeWhile_cons_of_neg (by simp), List.append_nil]
      exact ((List.takeWhile_prefix _).eq_of_length hall).symm
    · rfl
  rw [hlast] at hencodes
  refine ⟨_, rv, bytes, _, mszToCRLF_eq h, hsave, hencodes, rfl, ?_⟩
  refine ⟨fun hsaved s hs => ?_, fun hclean => ?_⟩
  · -- A string that is kept is one of the lines.
    rw [← hsaved] at hs
    obtain ⟨t, _, hline⟩ := List.mem_flatMap.mp ((List.takeWhile_prefix _).subset hs)
    exact ⟨(mem_linesOf hline).1, (mem_linesOf hline).2.1⟩
  · have hlines : strings.flatMap linesOf = strings := by
      rw [List.flatMap_congr fun s hs => linesOf_eq_singleton (hclean s hs).1 (hclean s hs).2]
      exact List.flatMap_singleton' strings
    rw [hlines, List.takeWhile_eq_self_iff]
    intro s hs
    have hne := (hproper s hs).1
    simpa using hne

/-- `-Xa` and a string of two lines. -/
theorem shown_list_saved_lines :
    ∃ text rv bytes saved,
      mszToCRLF (some [45, 88, 97, 0, 98, 13, 10, 99, 0, 0]) = some text ∧
      crlfToMsz text = some (rv, bytes) ∧ Encodes 0 (rv.take (bytes / 2)) saved ∧
      saved = ([[45, 88, 97], [98, 13, 10, 99]].flatMap linesOf).takeWhile
        (fun line => !line.isEmpty) ∧
      (saved = [[45, 88, 97], [98, 13, 10, 99]] ↔
        ∀ s ∈ ([[45, 88, 97], [98, 13, 10, 99]] : List Block), 13 ∉ s ∧ 10 ∉ s) :=
  @shown_list_saved (some [45, 88, 97, 0, 98, 13, 10, 99, 0, 0])
    [[45, 88, 97], [98, 13, 10, 99]] ⟨by decide, [], rfl⟩

end BoundaryEventSdk.Prunsrv
