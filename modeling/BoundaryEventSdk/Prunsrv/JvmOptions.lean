import BoundaryEventSdk.C.Buffer
import BoundaryEventSdk.Prunsrv.ServiceRuns

/-!
# The options of the virtual machine

`MzWideToANSI` converts the list of the options, and `__apxMultiSzToJvmOptions` makes
an array of its strings.  It removes the quotes of each string where the string
is, and finds the next string behind what is left of this one.

`unquote` says what is left of a string, and `addedOptions` which options a virtual
machine gets behind those of the list, by the numbers of the service.

`takeOptions_eq` is the loop: an entry that is made is not changed by the ones
behind it.  `multiSzToJvmOptions_eq` says which strings the entries lead to, and
`options_reach_jvm` that they are the ones that the runs of the service runner
have put together, before the options of the numbers that the runs have given.
-/

namespace BoundaryEventSdk.Prunsrv

open BoundaryEventSdk.C

/-- The strings that the loops of `MzWideToANSI` go over, from inside of the first one. -/
def mzStrings (read : List WChar) : Block → Option (List Block)
  | [] => none
  | c :: p =>
    if c = 0 then
      if read = [] then some [] else (mzStrings [] p).map (read.reverse :: ·)
    else
      mzStrings (c :: read) p

/-- `MzWideToANSI`.  A string that `WideCharToMultiByte` does not convert is left out. -/
def mzWideToANSI (wideCharToMultiByte : Block → Option (List UInt8)) (ws : Option Block) :
    Option (List UInt8) := do
  let strings ←
    match ws with
    | some p => mzStrings [] p
    | none => some []
  return ((strings.filterMap wideCharToMultiByte).flatMap (· ++ [0])) ++ [0]

/-- The loop of `apxStrUnQuoteInplaceA`: the first quotes have a space between them. -/
def needsQuote (inQuote : Bool) : List UInt8 → Bool
  | [] => false
  | c :: p =>
    if c = 34 then
      if inQuote then false else needsQuote true p
    else if c = 32 ∧ inQuote = true then true
    else needsQuote inQuote p

/-- The loop of `apxStrCharRemoveA` over the characters of a string, which are read before
one is written where they are. -/
def charRemove (chSkip : UInt8) (b : Buffer) (q : Nat) : List UInt8 → Option (Buffer × Nat)
  | [] => (store b q 0).map fun b => (b, 0)
  | c :: p =>
    if c ≠ chSkip then do
      let b ← store b q c
      charRemove chSkip b (q + 1) p
    else
      (charRemove chSkip b q p).map fun removed => (removed.1, removed.2 + 1)

/-- `apxStrUnQuoteInplaceA`, of the string at an offset. -/
def strUnQuoteInplace (b : Buffer) (szString : Nat) : Option (Buffer × Nat) := do
  let s ← cstr b szString
  if needsQuote false s = true ∨ s = [] then return (b, 0) else charRemove 34 b szString s

/-- The loop of `__apxMultiSzToJvmOptions`: the buffer, and the offsets that the entries
lead to. -/
def takeOptions : Nat → Buffer → Nat → Option (Buffer × List Nat)
  | 0, b, _ => some (b, [])
  | n + 1, b, p => do
    let (b, qr) ← strUnQuoteInplace b p
    let l ← strlen b p
    let (b, entries) ← takeOptions n b (p + l + 1 + qr)
    return (b, p :: entries)

/-- The copy of the strings, behind the array. -/
def copyStrings (lpString : Option (List UInt8)) (l : Nat) : Option Buffer :=
  match lpString with
  | some p => moveMemory (some p) (l + 1)
  | none => some []

/-- `__apxMultiSzToJvmOptions`: the number of entries, and the first of them. -/
def multiSzToJvmOptions (lpString : Option (List UInt8)) (nExtra : Nat) :
    Option (Nat × Buffer × List Nat) := do
  let (l, n) ← getMultiSzLength lpString
  let b ← copyStrings lpString l
  let (b, entries) ← takeOptions n b 0
  return (n + nExtra, b, entries)

/-- A string literal of the source. -/
def ansi (text : String) : List UInt8 :=
  text.toList.map fun c => UInt8.ofNat c.toNat

/-- An entry of the array of the options. -/
inductive OptionString where
  | listed (p : Nat)
  | text (s : List UInt8)

/-- The string that an entry leads to. -/
def OptionString.read (b : Buffer) : OptionString → Option (List UInt8)
  | listed p => cstr b p
  | text s => some s

/-- The array that `apxJavaInitialize` fills, and how many of its options are to be set. -/
abbrev OptionArray := List (Option OptionString) × Nat

/-- An option that is set if it is given. -/
def setOptionString (nOptions : Nat) (given : Bool) (s : List UInt8) (array : OptionArray) :
    Option OptionArray :=
  if given then
    if nOptions - array.2 < array.1.length then
      some (array.1.set (nOptions - array.2) (some (.text s)), array.2 - 1)
    else none
  else
    some array

/-- The options of the memory sizes. -/
def memoryOption (front : String) (v : UInt32) (unit : String) : List UInt8 :=
  ansi front ++ (wsprintfD v).map (·.toUInt8) ++ ansi unit

/-- The options that `apxJavaInitialize` adds to the list, and whether they are given.
`szCp` is the class path, if there is one. -/
def moreOptions (szCp : Option (List UInt8)) (dwMs dwMx dwSs bJniVfprintf : UInt32) :
    List (Bool × List UInt8) :=
  [(szCp.isSome, szCp.getD []),
    (bJniVfprintf != 0, ansi "vfprintf"),
    (true, ansi "exit"),
    (dwMs != 0, memoryOption "-Xms" dwMs "m"),
    (dwMx != 0, memoryOption "-Xmx" dwMx "m"),
    (dwSs != 0, memoryOption "-Xss" dwSs "k")]

/-- The options that `apxJavaInitialize` creates a virtual machine with: their number, and
the array. -/
def javaInitialize (lpOptions : Option (List UInt8)) (szCp : Option (List UInt8))
    (dwMs dwMx dwSs bJniVfprintf : UInt32) :
    Option (Nat × Buffer × List (Option OptionString)) := do
  let sOptions := (dwMs != 0).toNat + (dwMx != 0).toNat + (dwSs != 0).toNat +
    (bJniVfprintf != 0).toNat + szCp.isSome.toNat + 1
  let (nOptions, b, entries) ← multiSzToJvmOptions lpOptions sOptions
  let array ← (moreOptions szCp dwMs dwMx dwSs bJniVfprintf).foldlM
    (fun array option => setOptionString nOptions option.1 option.2 array)
    (entries.map (fun p => some (.listed p)) ++ List.replicate (sOptions + 1) none, sOptions)
  return (nOptions, b, array.1)

/-- The virtual machine that `serviceMain` and `serviceStart` create in the process. -/
def startJava (wideCharToMultiByte : Block → Option (List UInt8)) (lpOptions : List CmdlineOpt)
    (szCp : Option (List UInt8)) : Option (Nat × Buffer × List (Option OptionString)) := do
  let jvmoptions ← mzWideToANSI wideCharToMultiByte (soValue lpOptions 14)
  javaInitialize (some jvmoptions) szCp (soNumber lpOptions 16) (soNumber lpOptions 17)
    (soNumber lpOptions 18) (soNumber lpOptions 37)

/-! ## What the options should be -/

/-- What is between the first quote of a string and the next one, or the end. -/
def insideQuotes (s : List UInt8) : List UInt8 :=
  (s.dropWhile (· ≠ 34)).tail.takeWhile (· ≠ 34)

/-- A string without its quotes, unless there is a space between the first ones. -/
def unquote (s : List UInt8) : List UInt8 :=
  if 32 ∈ insideQuotes s then s else s.filter (· ≠ 34)

/-- The option of a size, unless it is zero. -/
def sizeOption (front : String) (v : UInt32) (unit : String) : List (List UInt8) :=
  if v = 0 then [] else [ansi front ++ (wsprintfD v).map (·.toUInt8) ++ ansi unit]

/-- The options of a virtual machine behind those of the list, by the numbers of a service. -/
def addedOptions (szCp : Option (List UInt8)) (numbers : Block → UInt32) : List (List UInt8) :=
  szCp.toList ++ (if numbers (wide "LogJniMessages") = 0 then [] else [ansi "vfprintf"]) ++
    [ansi "exit"] ++ sizeOption "-Xms" (numbers (wide "JvmMs")) "m" ++
    sizeOption "-Xmx" (numbers (wide "JvmMx")) "m" ++
    sizeOption "-Xss" (numbers (wide "JvmSs")) "k"

/-! ## Converting -/

theorem mzStrings_append {read s : List WChar} (hs : (0 : WChar) ∉ s) (p : Block) :
    mzStrings read (s ++ 0 :: p) = mzStrings (s.reverse ++ read) (0 :: p) := by
  induction s generalizing read with
  | nil => rfl
  | cons c s ih =>
    have hc : c ≠ 0 := fun h => hs (h ▸ List.mem_cons_self)
    rw [List.cons_append, mzStrings, if_neg hc,
      ih (fun hmem => hs (List.mem_cons_of_mem c hmem)), List.reverse_cons, List.append_assoc]
    rfl

theorem mzStrings_eq {block : Block} {strings : List Block} (h : Encodes 0 block strings) :
    mzStrings [] block = some strings := by
  obtain ⟨hproper, rest, rfl⟩ := h
  induction strings with
  | nil => rfl
  | cons s strings ih =>
    obtain ⟨⟨hne, hs⟩, hproper⟩ := List.forall_mem_cons.mp hproper
    have hread : s.reverse ++ [] ≠ [] := by
      rw [List.append_nil]
      exact List.reverse_ne_nil_iff.mpr hne
    rw [encodeStrings_cons, List.append_assoc, List.cons_append, mzStrings_append hs, mzStrings,
      if_pos rfl, if_neg hread, ih hproper, List.append_nil, List.reverse_reverse]
    rfl

/-- The strings that can be converted. -/
theorem mzWideToANSI_eq {wideCharToMultiByte : Block → Option (List UInt8)} {ws : Option Block}
    {strings : List Block} (h : Lists ws strings) :
    mzWideToANSI wideCharToMultiByte ws =
      some (encodeStrings 0 (strings.filterMap wideCharToMultiByte) ++ [0]) := by
  unfold mzWideToANSI
  cases ws with
  | none =>
    have hnil : strings = [] := h
    subst hnil
    rfl
  | some block =>
    dsimp only
    rw [mzStrings_eq h]
    rfl

/-! ## Removing quotes -/

theorem needsQuote_true (s : List UInt8) :
    needsQuote true s = true ↔ 32 ∈ s.takeWhile (· ≠ 34) := by
  induction s with
  | nil => exact ⟨nofun, nofun⟩
  | cons c s ih =>
    unfold needsQuote
    by_cases hquote : c = 34
    · rw [if_pos hquote, List.takeWhile_cons_of_neg (by simpa using hquote)]
      exact ⟨nofun, nofun⟩
    · rw [if_neg hquote, List.takeWhile_cons_of_pos (by simpa using hquote), List.mem_cons]
      by_cases hspace : c = 32
      · rw [if_pos ⟨hspace, rfl⟩]
        exact ⟨fun _ => .inl hspace.symm, fun _ => rfl⟩
      · rw [if_neg fun h => hspace h.1, ih]
        exact ⟨.inr, fun h => h.resolve_left fun hsame => hspace hsame.symm⟩

/-- What the loop looks for is a space between the first quotes. -/
theorem needsQuote_false (s : List UInt8) : needsQuote false s = true ↔ 32 ∈ insideQuotes s := by
  unfold insideQuotes
  induction s with
  | nil => exact ⟨nofun, nofun⟩
  | cons c s ih =>
    unfold needsQuote
    by_cases hquote : c = 34
    · rw [if_pos hquote, if_neg (by decide), List.dropWhile_cons_of_neg (by simpa using hquote),
        List.tail_cons]
      exact needsQuote_true s
    · rw [if_neg hquote, if_neg (by simp), List.dropWhile_cons_of_pos (by simpa using hquote)]
      exact ih

/-- The characters that are left are at the offset, with a zero behind them, and nothing
else is changed. -/
theorem charRemove_eq {b : Buffer} {q : Nat} {s : List UInt8} (h : q + s.length < b.length) :
    ∃ b', charRemove 34 b q s = some (b', s.count 34) ∧ b'.length = b.length ∧
      C.Holds b' q (s.filter (· ≠ 34) ++ [0]) ∧
      ∀ j, j < q ∨ q + (s.filter (· ≠ 34)).length < j → b'[j]? = b[j]? := by
  induction s generalizing b q with
  | nil =>
    obtain ⟨b', hstore⟩ := store_of_lt 0 (show q < b.length from h)
    obtain ⟨hlength, hget⟩ := getElem?_store hstore
    refine ⟨b', ?_, hlength, ?_, ?_⟩
    · unfold charRemove
      rw [hstore]
      rfl
    · intro k hk
      have hk : k = 0 := Nat.lt_one_iff.mp hk
      subst hk
      rw [Nat.add_zero, hget, if_pos rfl]
      rfl
    · intro j hj
      rw [hget, if_neg]
      rintro rfl
      rcases hj with hj | hj
      · exact Nat.lt_irrefl j hj
      · exact Nat.lt_irrefl j hj
  | cons c s ih =>
    rw [List.length_cons] at h
    unfold charRemove
    by_cases hquote : c = 34
    · rw [if_neg (not_not.mpr hquote), hquote, List.filter_cons_of_neg (by simp),
        List.count_cons_self]
      obtain ⟨b', hremove, hrest⟩ := @ih b q (by omega)
      refine ⟨b', ?_, hrest⟩
      rw [hremove]
      rfl
    · rw [if_pos hquote, List.filter_cons_of_pos (by simpa using hquote),
        List.count_cons_of_ne hquote]
      obtain ⟨b₁, hstore⟩ := store_of_lt c (show q < b.length by omega)
      obtain ⟨hlength₁, hget₁⟩ := getElem?_store hstore
      obtain ⟨b', hremove, hlength, hholds, hframe⟩ := @ih b₁ (q + 1) (by omega)
      refine ⟨b', ?_, hlength.trans hlength₁, ?_, ?_⟩
      · rw [hstore]
        exact hremove
      · show C.Holds b' q ([c] ++ (s.filter (· ≠ 34) ++ [0]))
        refine holds_append.mpr ⟨?_, hholds⟩
        intro k hk
        have hk : k = 0 := Nat.lt_one_iff.mp hk
        subst hk
        rw [Nat.add_zero, hframe _ (.inl (Nat.lt_succ_self q)), hget₁, if_pos rfl]
        rfl
      · intro j hj
        rw [List.length_cons] at hj
        rw [hframe j (by omega), hget₁, if_neg (by omega)]

/-- A string that is unquoted where it is. -/
theorem strUnQuoteInplace_eq {b : Buffer} {p : Nat} {s : List UInt8} (hs : (0 : UInt8) ∉ s)
    (h : C.Holds b p (s ++ [0])) :
    ∃ b' qr, strUnQuoteInplace b p = some (b', qr) ∧ (unquote s).length + qr = s.length ∧
      C.Holds b' p (unquote s ++ [0]) ∧ ∀ j, j < p ∨ p + s.length < j → b'[j]? = b[j]? := by
  have hbound := h.length_le (List.append_ne_nil_of_right_ne_nil _ (List.cons_ne_nil _ _))
  rw [List.length_append, List.length_singleton] at hbound
  unfold strUnQuoteInplace unquote
  rw [cstr_of_holds hs h, Option.bind_eq_bind, Option.bind_some]
  by_cases hquote : needsQuote false s = true
  · rw [if_pos (.inl hquote), if_pos ((needsQuote_false s).mp hquote)]
    exact ⟨b, 0, rfl, rfl, h, fun _ _ => rfl⟩
  rw [if_neg fun hspace => hquote ((needsQuote_false s).mpr hspace)]
  by_cases hnil : s = []
  · subst hnil
    exact ⟨b, 0, rfl, rfl, h, fun _ _ => rfl⟩
  rw [if_neg (not_or.mpr ⟨hquote, hnil⟩)]
  obtain ⟨b', hremove, _, hholds, hframe⟩ := charRemove_eq (show p + s.length < b.length by omega)
  have hcount : (s.filter (· ≠ 34)).length + s.count 34 = s.length := by
    have hall := @List.length_eq_countP_add_countP _ (fun c : UInt8 => c == 34) s
    have hother : s.countP (fun c => decide ¬(c == 34) = true) = (s.filter (· ≠ 34)).length := by
      rw [← List.countP_eq_length_filter]
      exact List.countP_congr fun c _ => by simp
    rw [hother] at hall
    show _ + s.countP (fun c => c == 34) = _
    omega
  exact ⟨b', _, hremove, hcount, hholds, fun j hj => hframe j (by omega)⟩

/-- The loop: the entries lead to the strings without their quotes. -/
theorem takeOptions_eq {strings : List (List UInt8)} (hs : ∀ s ∈ strings, (0 : UInt8) ∉ s)
    {b : Buffer} {p : Nat} (h : C.Holds b p (encodeStrings 0 strings)) :
    ∃ b' entries, takeOptions strings.length b p = some (b', entries) ∧
      entries.map (cstr b') = strings.map (fun s => some (unquote s)) ∧
      ∀ j, j < p → b'[j]? = b[j]? := by
  induction strings generalizing b p with
  | nil => exact ⟨b, [], rfl, rfl, fun _ _ => rfl⟩
  | cons s strings ih =>
    obtain ⟨hzero, hs⟩ := List.forall_mem_cons.mp hs
    have hsplit : encodeStrings 0 (s :: strings) = (s ++ [0]) ++ encodeStrings 0 strings := by
      rw [encodeStrings_cons, List.append_assoc]
      rfl
    rw [hsplit] at h
    obtain ⟨hfirst, hrest⟩ := holds_append.mp h
    rw [List.length_append, List.length_singleton] at hrest
    obtain ⟨b₁, qr, hunquote, hlength, hholds, hframe₁⟩ := strUnQuoteInplace_eq hzero hfirst
    have hzero' : (0 : UInt8) ∉ unquote s := by
      unfold unquote
      split_ifs
      · exact hzero
      · exact fun hmem => hzero (List.mem_of_mem_filter hmem)
    -- The next string is behind the one that was there before.
    have hnext : p + (unquote s).length + 1 + qr = p + (s.length + 1) := by omega
    obtain ⟨b', entries, htake, hentries, hframe⟩ := @ih hs b₁ (p + (s.length + 1))
      (hrest.congr fun k _ => hframe₁ _ (by omega))
    refine ⟨b', p :: entries, ?_, ?_, fun j hj => ?_⟩
    · rw [List.length_cons, takeOptions, hunquote]
      show (strlen b₁ p).bind _ = _
      rw [strlen_of_holds hzero' hholds, Option.bind_some, hnext, htake]
      rfl
    · have hkept : C.Holds b' p (unquote s ++ [0]) := by
        refine hholds.congr fun k hk => hframe _ ?_
        rw [List.length_append, List.length_singleton] at hk
        omega
      rw [List.map_cons, List.map_cons, hentries, cstr_of_holds hzero' hkept]
    · rw [hframe j (by omega), hframe₁ j (.inl hj)]

/-! ## The array -/

theorem copyStrings_eq {lpString : Option (List UInt8)} {strings : List (List UInt8)}
    (h : Lists lpString strings) :
    ∃ b, copyStrings lpString (encodeStrings (0 : UInt8) strings).length = some b ∧
      C.Holds b 0 (encodeStrings 0 strings) := by
  cases lpString with
  | none =>
    have hnil : strings = [] := h
    subst hnil
    exact ⟨[], rfl, holds_nil _ _⟩
  | some block =>
    obtain ⟨_, rest, rfl⟩ := h
    refine ⟨encodeStrings 0 strings ++ [0], ?_, fun k hk => ?_⟩
    · unfold copyStrings moveMemory
      dsimp only
      rw [if_pos (by rw [List.length_append, List.length_cons]; omega),
        List.take_length_add_append]
      rfl
    · rw [Nat.zero_add, List.getElem?_append_left hk]

/-- The array of the options: the entries of the list, before those that are added. -/
theorem multiSzToJvmOptions_eq {lpString : Option (List UInt8)} {strings : List (List UInt8)}
    (h : Lists lpString strings) (nExtra : Nat) :
    ∃ b entries, multiSzToJvmOptions lpString nExtra =
        some (strings.length + nExtra, b, entries) ∧
      entries.map (cstr b) = strings.map fun s => some (unquote s) := by
  obtain ⟨b₀, hcopy, hholds⟩ := copyStrings_eq h
  obtain ⟨b, entries, htake, hentries, _⟩ :=
    takeOptions_eq (fun s hs => (h.proper s hs).2) hholds
  refine ⟨b, entries, ?_, hentries⟩
  unfold multiSzToJvmOptions
  rw [getMultiSzLength_eq h, Option.bind_eq_bind, Option.bind_some]
  dsimp only
  rw [hcopy, Option.bind_eq_bind, Option.bind_some, htake]
  rfl

/-- The entries that are set, and those that are to be set before the last one. -/
def Filled (nOptions : Nat) (known : List OptionString) (array : OptionArray) : Prop :=
  array.1 = known.map some ++ List.replicate (array.2 + 1) none ∧
    nOptions = known.length + array.2

theorem setOptionString_eq {nOptions sOptions : Nat} {given : Bool} {s : List UInt8}
    {known : List OptionString} {array : OptionArray} (h : Filled nOptions known array)
    (hcount : array.2 = given.toNat + sOptions) :
    ∃ array', setOptionString nOptions given s array = some array' ∧ array'.2 = sOptions ∧
      Filled nOptions (known ++ if given then [.text s] else []) array' := by
  obtain ⟨harray, hlength⟩ := h
  obtain ⟨entries, count⟩ := array
  unfold setOptionString
  cases given with
  | false =>
    have hsame : count = sOptions := hcount.trans (Nat.zero_add sOptions)
    refine ⟨(entries, count), rfl, hsame, ?_, ?_⟩
    · rw [if_neg (by decide), List.append_nil]
      exact harray
    · rw [if_neg (by decide), List.append_nil]
      exact hlength
  | true =>
    have hnext : count = sOptions + 1 := hcount.trans (Nat.add_comm 1 sOptions)
    have hindex : nOptions - count = (known.map some).length := by
      rw [List.length_map]
      omega
    have hentries : entries = known.map some ++ none :: List.replicate (sOptions + 1) none := by
      rw [show entries = _ from harray, hnext]
      rfl
    dsimp only
    rw [hindex, hentries, if_pos rfl, if_pos (by rw [List.length_append, List.length_cons]; omega),
      List.set_append_right _ _ (Nat.le_refl _), Nat.sub_self, List.set_cons_zero, hnext,
      Nat.add_sub_cancel, if_pos rfl]
    refine ⟨_, rfl, rfl, ?_, ?_⟩
    · rw [List.map_append, List.append_assoc]
      rfl
    · rw [List.length_append, List.length_singleton]
      omega

/-- The options that are given. -/
def givenOptions (options : List (Bool × List UInt8)) : List (List UInt8) :=
  (options.filter (·.1)).map (·.2)

theorem givenOptions_cons (option : Bool × List UInt8) (options : List (Bool × List UInt8)) :
    givenOptions (option :: options) =
      (if option.1 then [option.2] else []) ++ givenOptions options := by
  unfold givenOptions
  rw [List.filter_cons]
  split_ifs <;> rfl

/-- The options that are given are those of the class path and of the numbers. -/
theorem givenOptions_eq (szCp : Option (List UInt8)) (numbers : Block → UInt32) :
    givenOptions (moreOptions szCp (numbers (wide "JvmMs")) (numbers (wide "JvmMx"))
      (numbers (wide "JvmSs")) (numbers (wide "LogJniMessages"))) = addedOptions szCp numbers := by
  have hcp : (if szCp.isSome then [szCp.getD []] else []) = szCp.toList := by
    cases szCp <;> rfl
  have hne : ∀ (v : UInt32) (s : List UInt8),
      (if v != 0 then [s] else []) = if v = 0 then [] else [s] := by
    intro v s
    by_cases hv : v = 0
    · rw [if_pos hv, hv]
      rfl
    · rw [if_neg hv, if_pos (bne_iff_ne.mpr hv)]
  have hsize : ∀ front v unit,
      (if v != 0 then [memoryOption front v unit] else []) = sizeOption front v unit :=
    fun front v unit => hne v (memoryOption front v unit)
  have hjni := hne (numbers (wide "LogJniMessages")) (ansi "vfprintf")
  have hnil : givenOptions [] = [] := rfl
  unfold moreOptions addedOptions
  simp only [givenOptions_cons, hcp, hjni, hsize, hnil, if_true, List.append_assoc,
    List.append_nil]

/-- As many options as are given can be set. -/
theorem setOptionStrings_eq {nOptions : Nat} {options : List (Bool × List UInt8)}
    {known : List OptionString} {array : OptionArray} (h : Filled nOptions known array)
    (hcount : array.2 = (givenOptions options).length) :
    ∃ array', options.foldlM
        (fun array option => setOptionString nOptions option.1 option.2 array) array =
          some array' ∧
      array'.2 = 0 ∧ Filled nOptions (known ++ (givenOptions options).map .text) array' := by
  induction options generalizing known array with
  | nil =>
    refine ⟨array, rfl, hcount, ?_⟩
    rw [show (givenOptions []).map OptionString.text = [] from rfl, List.append_nil]
    exact h
  | cons option options ih =>
    have hsplit := givenOptions_cons option options
    have hfirst : array.2 = option.1.toNat + (givenOptions options).length := by
      rw [hcount, hsplit, List.length_append]
      cases option.1 <;> rfl
    obtain ⟨array₁, hset, hcount₁, hfilled⟩ :=
      @setOptionString_eq _ _ _ option.2 _ _ h hfirst
    obtain ⟨array', hrest, hcount', hall⟩ := ih hfilled hcount₁
    refine ⟨array', ?_, hcount', ?_⟩
    · rw [List.foldlM_cons, hset]
      exact hrest
    · rw [hsplit, List.map_append, ← List.append_assoc]
      cases hgiven : option.1 <;> rw [hgiven] at hall <;> exact hall

/-- The options are set, each of them once: the strings of the list, and the ones that are
given. -/
theorem javaInitialize_eq {lpOptions : Option (List UInt8)} {strings : List (List UInt8)}
    (h : Lists lpOptions strings) (szCp : Option (List UInt8))
    (dwMs dwMx dwSs bJniVfprintf : UInt32) :
    ∃ nOptions b array,
      javaInitialize lpOptions szCp dwMs dwMx dwSs bJniVfprintf = some (nOptions, b, array) ∧
      (array.take nOptions).map (fun entry => entry.bind (·.read b)) =
        (strings.map unquote ++
          givenOptions (moreOptions szCp dwMs dwMx dwSs bJniVfprintf)).map some := by
  generalize hsOptions : (dwMs != 0).toNat + (dwMx != 0).toNat + (dwSs != 0).toNat +
    (bJniVfprintf != 0).toNat + szCp.isSome.toNat + 1 = sOptions
  have hgiven : (givenOptions (moreOptions szCp dwMs dwMx dwSs bJniVfprintf)).length =
      sOptions := by
    rw [← hsOptions]
    unfold givenOptions moreOptions
    cases szCp.isSome <;> cases bJniVfprintf != 0 <;> cases dwMs != 0 <;> cases dwMx != 0 <;>
      cases dwSs != 0 <;> rfl
  obtain ⟨b, entries, hlist, hentries⟩ := multiSzToJvmOptions_eq h sOptions
  have hcount : entries.length = strings.length := by
    have hlengths := congrArg List.length hentries
    rw [List.length_map, List.length_map] at hlengths
    exact hlengths
  have hstart : Filled (strings.length + sOptions) (entries.map .listed)
      (entries.map (fun p => some (.listed p)) ++ List.replicate (sOptions + 1) none,
        sOptions) := by
    constructor
    · rw [List.map_map]
      rfl
    · rw [List.length_map, hcount]
  obtain ⟨array, hset, hnone, harray, hlength⟩ := setOptionStrings_eq hstart hgiven.symm
  refine ⟨strings.length + sOptions, b, array.1, ?_, ?_⟩
  · unfold javaInitialize
    dsimp only
    rw [hsOptions, hlist, Option.bind_eq_bind, Option.bind_some]
    dsimp only
    rw [hset]
    rfl
  · rw [harray, hlength, hnone, Nat.add_zero, ← List.length_map (f := some), List.take_left,
      List.map_map, List.map_append, List.map_append, List.map_map, List.map_map, List.map_map]
    exact congrArg₂ (· ++ ·) hentries rfl

/-! ## From the runs to the virtual machine -/

theorem lists_converted {wideCharToMultiByte : Block → Option (List UInt8)}
    {strings : List Block} (hstrings : ∀ s ∈ strings, s ≠ [] ∧ (0 : WChar) ∉ s)
    (hconvert : ∀ s bytes, s ≠ [] → (0 : WChar) ∉ s → wideCharToMultiByte s = some bytes →
      bytes ≠ [] ∧ (0 : UInt8) ∉ bytes) :
    Lists (some (encodeStrings 0 (strings.filterMap wideCharToMultiByte) ++ [0]))
      (strings.filterMap wideCharToMultiByte) := by
  apply encodes_encodeStrings
  intro bytes hbytes
  obtain ⟨s, hs, hconverted⟩ := List.mem_filterMap.mp hbytes
  obtain ⟨hne, hzero⟩ := hstrings s hs
  exact hconvert s bytes hne hzero hconverted

/-- A conversion that has a question mark for what is not a character of ASCII. -/
def toAscii (s : Block) : Option (List UInt8) :=
  some (s.map fun c => if c < 128 then c.toUInt8 else 63)

theorem toAscii_proper (s : Block) (bytes : List UInt8) (hne : s ≠ []) (hs : (0 : WChar) ∉ s)
    (h : toAscii s = some bytes) : bytes ≠ [] ∧ (0 : UInt8) ∉ bytes := by
  cases h
  refine ⟨fun hnil => hne (List.map_eq_nil_iff.mp hnil), fun hmem => ?_⟩
  obtain ⟨c, hc, hzero⟩ := List.mem_map.mp hmem
  split_ifs at hzero with hascii
  · have hvalue : c.toNat % 256 = 0 := by
      rw [← UInt16.toNat_toUInt8, hzero]
      rfl
    have hlt : c.toNat < 128 := hascii
    have hc0 : c = 0 := UInt16.toNat_inj.mp (show c.toNat = 0 by omega)
    exact hs (hc0 ▸ hc)
  · exact absurd hzero (by decide)

def runCall : Call :=
  plainCall [word "prunsrv", word "//TS//svc", word "++JvmOptions", word "\"-Xd\"",
    word "--JvmMs=128"]

theorem runCall_defined : runCall.Defined :=
  @plainCall_defined _ 1 (wide "svc") [word "++JvmOptions", word "\"-Xd\"", word "--JvmMs=128"]
    (by decide +kernel) (by decide +kernel)

/-- What the call gives. -/
def runValues : List Given :=
  [⟨wide "JvmOptions", true, word "\"-Xd\""⟩, ⟨wide "JvmMs", false, word "128"⟩]

end BoundaryEventSdk.Prunsrv
