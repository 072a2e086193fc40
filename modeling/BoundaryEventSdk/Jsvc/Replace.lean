import BoundaryEventSdk.C.Buffer

/-!
# `replace.c`

`replace` puts a string into a buffer, with every occurrence of `mch` replaced
by `rpl`.  It counts the occurrences, computes the length of the result, copies
the old string into the buffer and replaces the occurrences there, one after
the other, by moving what is behind an occurrence to the right or to the left.

The length that is checked is that of the result, and what is copied first is
the old string.  So the buffer is written past its end when the result fits and
the old string does not, which needs a replacement that is shorter than what it
replaces.  In all other cases the code does what its header says.
-/

namespace BoundaryEventSdk.Jsvc

open BoundaryEventSdk.C

/-- The loop that counts the matches. -/
def countMatches (mch : List UInt8) : Nat → List UInt8 → Int → Option Int
  | 0, _, _ => none
  | fuel + 1, tmp, count =>
    match find mch tmp with
    | none => some count
    | some k => do
      let count ← int (count + 1)
      countMatches mch fuel (tmp.drop (k + mch.length)) count

/-- `for (x = n + shift; x > shift; x--) tmp[x] = tmp[x - shift];` -/
def moveRight (tmp shift : Nat) : Nat → Buffer → Option Buffer
  | 0, b => some b
  | n + 1, b => do
    let value ← b[tmp + (n + 1)]?
    let b ← store b (tmp + (n + 1 + shift)) value
    moveRight tmp shift n b

/-- `for (; x < strlen(tmp) + shift; x++) tmp[x - shift] = tmp[x];` -/
def moveLeft (tmp shift : Nat) : Nat → Nat → Buffer → Option Buffer
  | 0, _, _ => none
  | fuel + 1, x, b => do
    let n ← strlen b tmp
    if x < n + shift then
      let value ← b[tmp + x]?
      let b ← store b (tmp + (x - shift)) value
      moveLeft tmp shift fuel (x + 1) b
    else
      some b

/-- The move, which depends on the sign of the shift. -/
def makeRoom (mlen rlen tmp : Nat) (b : Buffer) : Option Buffer :=
  if mlen < rlen then do
    let n ← strlen b tmp
    moveRight tmp (rlen - mlen) n b
  else if rlen < mlen then moveLeft tmp (mlen - rlen) (b.length + 1) mlen b
  else some b

/-- The body of the loop that replaces: `tmp` is at a match. -/
def replaceMatch (mlen : Nat) (rpl : List UInt8) (tmp : Nat) (b : Buffer) : Option Buffer := do
  let b ← makeRoom mlen rpl.length tmp b
  strncpy b tmp rpl

/-- The loop that replaces. -/
def replaceMatches (mch rpl : List UInt8) : Nat → Nat → Buffer → Option Buffer
  | 0, _, _ => none
  | fuel + 1, tmp, b => do
    match ← strstr b tmp mch with
    | none => some b
    | some tmp =>
      let b ← replaceMatch mch.length rpl tmp b
      replaceMatches mch rpl fuel (tmp + rpl.length) b

/-- `replace` without anything to replace. -/
def copyOld (new : Buffer) (len : Int) (old : List UInt8) : Option (Int × Option Buffer) := do
  let olen ← int old.length
  if len ≤ olen then
    let needed ← int (olen + 1)
    return (needed, some new)
  else
    let new ← strcpy new old
    return (0, some new)

/-- `replace`, once the match is not empty. -/
def replaceIn (new : Buffer) (len : Int) (old mch rpl : List UInt8) :
    Option (Int × Option Buffer) := do
  let olen ← int old.length
  let mlen ← int mch.length
  let rlen ← int rpl.length
  let count ← countMatches mch (old.length + 1) old 0
  if count = 0 then copyOld new len old
  else
    let shift ← int (rlen - mlen)
    let shifts ← int (shift * count)
    let nlen ← int (olen + shifts)
    if nlen ≥ len then
      let needed ← int (nlen + 1)
      return (needed, some new)
    else
      let new ← strcpy new old
      let new ← replaceMatches mch rpl (old.length + 1) 0 new
      return (0, some new)

/-- `replace`: the result, and the buffer afterwards. -/
def replace (new : Option Buffer) (len : Int) (old mch rpl : Option CString) :
    Option (Int × Option Buffer) :=
  match new with
  | none => some (-1, none)
  | some new =>
    if len < 0 then some (-2, some new)
    else
      match old with
      | none => some (-3, some new)
      | some old =>
        match mch with
        | none => copyOld new len old.bytes
        | some mch =>
          if mch.bytes.length = 0 then copyOld new len old.bytes
          else replaceIn new len old.bytes mch.bytes (rpl.getD .empty).bytes

/-! ## Counting -/

theorem countMatches_eq {mch : List UInt8} (hmch : mch ≠ []) {fuel : Nat} {tmp : List UInt8}
    {count : Int} (hfuel : occurrences mch tmp < fuel) (hcount : 0 ≤ count)
    (hint : count + occurrences mch tmp ≤ 2147483647) :
    countMatches mch fuel tmp count = some (count + occurrences mch tmp) := by
  induction tmp using find_induction hmch generalizing fuel count with
  | hnone s hfind =>
    cases fuel with
    | zero => omega
    | succ fuel =>
      rw [countMatches, hfind, (@substitute_of_find_eq_none _ _ mch [] s hfind).2]
      simp
  | hsome before rest hfind ih =>
    have hoccurrences := (@substitute_of_find _ _ mch [] rest before hmch hfind).2
    cases fuel with
    | zero => omega
    | succ fuel =>
      rw [hoccurrences] at hfuel hint ⊢
      have hdrop : (before ++ mch ++ rest).drop (before.length + mch.length) = rest := by
        rw [← List.length_append, List.drop_left]
      rw [countMatches, hfind]
      show (int (count + 1)).bind _ = _
      rw [int_eq_some (by omega), Option.bind_some, hdrop, ih (by omega) (by omega) (by omega)]
      congr 1
      omega

/-! ## Moving -/

theorem moveRight_eq {tmp shift n : Nat} {b : Buffer} (hroom : tmp + n + shift < b.length) :
    ∃ b', moveRight tmp shift n b = some b' ∧ b'.length = b.length ∧
      ∀ j, b'[j]? = if tmp + shift < j ∧ j ≤ tmp + shift + n then b[j - shift]? else b[j]? := by
  induction n generalizing b with
  | zero => exact ⟨b, rfl, rfl, fun j => (if_neg (by omega)).symm⟩
  | succ n ih =>
    obtain ⟨value, hload⟩ := load_of_lt (show tmp + (n + 1) < b.length by omega)
    obtain ⟨b₁, hstore⟩ := store_of_lt value (show tmp + (n + 1 + shift) < b.length by omega)
    obtain ⟨hlength₁, hget₁⟩ := getElem?_store hstore
    obtain ⟨b', hb', hlength, hget⟩ := @ih b₁ (by omega)
    refine ⟨b', ?_, hlength.trans hlength₁, fun j => ?_⟩
    · rw [moveRight, hload]
      show (store b (tmp + (n + 1 + shift)) value).bind _ = _
      rw [hstore]
      exact hb'
    · rw [hget, hget₁, hget₁]
      by_cases hj : j = tmp + (n + 1 + shift)
      · rw [if_neg (by omega), if_pos hj, if_pos (by omega), hj,
          show tmp + (n + 1 + shift) - shift = tmp + (n + 1) by omega, hload]
      · by_cases hin : tmp + shift < j ∧ j ≤ tmp + shift + n
        · rw [if_pos hin, if_neg (by omega), if_pos (by omega)]
        · rw [if_neg hin, if_neg hj, if_neg (by omega)]

/-- Behind a match, `rest` moves to the left.  The loop asks for the length of
the string again in each round; it changes when the end of the string is
copied, and then the loop stops. -/
theorem moveLeft_eq {tmp shift fuel x : Nat} {s : List UInt8} {b : Buffer} (hs : (0 : UInt8) ∉ s)
    (hholds : Holds b tmp (s ++ [0])) (hshift : 0 < shift) (hx : shift ≤ x) (hxs : x ≤ s.length)
    (hfuel : s.length + 1 - x < fuel) :
    ∃ b', moveLeft tmp shift fuel x b = some b' ∧ b'.length = b.length ∧
      ∀ j, b'[j]? =
        if tmp + (x - shift) ≤ j ∧ j ≤ tmp + (s.length - shift) then b[j + shift]? else b[j]? := by
  induction hn : s.length - x generalizing fuel x s b with
  | zero =>
    -- The end of the string is copied, and the next test ends the loop.
    obtain ⟨fuel, rfl⟩ : ∃ fuel', fuel = fuel' + 2 := ⟨fuel - 2, by omega⟩
    have hxs' : x = s.length := by omega
    subst hxs'
    have hend : b[tmp + s.length]? = some 0 := by
      rw [hholds s.length (by simp)]
      simp
    have hbound := hholds.length_le (by simp)
    rw [List.length_append, List.length_singleton] at hbound
    obtain ⟨b₁, hstore⟩ := store_of_lt 0 (show tmp + (s.length - shift) < b.length by omega)
    obtain ⟨hlength₁, hget₁⟩ := getElem?_store hstore
    have hshorter : Holds b₁ tmp (s.take (s.length - shift) ++ [0]) := by
      have hsplit : Holds b tmp (s.take (s.length - shift) ++ s.drop (s.length - shift)) := by
        rw [List.take_append_drop]
        exact (holds_append.mp hholds).1
      have htake : (s.take (s.length - shift)).length = s.length - shift := by
        rw [List.length_take]
        omega
      refine holds_append.mpr ⟨?_, ?_⟩
      · exact (holds_append.mp hsplit).1.store_of_ne hstore fun k hk => by omega
      · intro k hk
        rw [List.length_singleton] at hk
        rw [hget₁, htake, if_pos (by omega), show k = 0 by omega]
        rfl
    have hlen₁ := strlen_of_holds (fun hmem => hs (List.mem_of_mem_take hmem)) hshorter
    rw [List.length_take] at hlen₁
    refine ⟨b₁, ?_, hlength₁, fun j => ?_⟩
    · rw [moveLeft, strlen_of_holds hs hholds]
      show (if s.length < s.length + shift then _ else _) = _
      rw [if_pos (by omega), hend]
      show (store b (tmp + (s.length - shift)) 0).bind _ = _
      rw [hstore]
      show moveLeft tmp shift (fuel + 1) (s.length + 1) b₁ = _
      rw [moveLeft, hlen₁]
      exact if_neg (by omega)
    · rw [hget₁]
      by_cases hj : j = tmp + (s.length - shift)
      · rw [if_pos hj, if_pos (by omega), hj, ← hend]
        congr 1
        omega
      · rw [if_neg hj, if_neg (by omega)]
  | succ n ih =>
    obtain ⟨fuel, rfl⟩ : ∃ fuel', fuel = fuel' + 1 := ⟨fuel - 1, by omega⟩
    obtain ⟨value, hvalue⟩ : ∃ value, s[x]? = some value :=
      ⟨_, List.getElem?_eq_getElem (show x < s.length by omega)⟩
    have hload : b[tmp + x]? = some value := by
      rw [hholds x (by simp; omega), List.getElem?_append_left (by omega), hvalue]
    have hbound := hholds.length_le (by simp)
    rw [List.length_append, List.length_singleton] at hbound
    obtain ⟨b₁, hstore⟩ := store_of_lt value (show tmp + (x - shift) < b.length by omega)
    obtain ⟨hlength₁, hget₁⟩ := getElem?_store hstore
    have hs₁ : (0 : UInt8) ∉ s.set (x - shift) value := by
      intro hmem
      rcases List.mem_or_eq_of_mem_set hmem with hmem | hzero
      · exact hs hmem
      · exact hs (hzero ▸ List.mem_of_getElem? hvalue)
    have hholds₁ : Holds b₁ tmp (s.set (x - shift) value ++ [0]) := by
      rw [← List.set_append_left _ _ (by omega)]
      exact hholds.store hstore
    obtain ⟨b', hb', hlength, hget⟩ := @ih fuel (x + 1) (s.set (x - shift) value) b₁ hs₁ hholds₁
      (by omega) (by rw [List.length_set]; omega) (by rw [List.length_set]; omega)
      (by rw [List.length_set]; omega)
    rw [List.length_set] at hget
    refine ⟨b', ?_, hlength.trans hlength₁, fun j => ?_⟩
    · rw [moveLeft, strlen_of_holds hs hholds]
      show (if x < s.length + shift then _ else _) = _
      rw [if_pos (by omega), hload]
      show (store b (tmp + (x - shift)) value).bind _ = _
      rw [hstore]
      exact hb'
    · rw [hget, hget₁, hget₁]
      by_cases hj : j = tmp + (x - shift)
      · rw [if_neg (by omega), if_pos hj, if_pos (by omega), hj, ← hload]
        congr 1
        omega
      · by_cases hin : tmp + (x + 1 - shift) ≤ j ∧ j ≤ tmp + (s.length - shift)
        · rw [if_pos hin, if_neg (by omega), if_pos (by omega)]
        · rw [if_neg hin, if_neg hj, if_neg (by omega)]

/-! ## Replacing -/

/-- The move at a match makes room for the replacement: what is behind the match
is then behind the room. -/
theorem makeRoom_eq {mch rest : List UInt8} {rlen tmp : Nat} {b : Buffer} (hmch : mch ≠ [])
    (hzero : (0 : UInt8) ∉ mch ++ rest) (hholds : Holds b tmp (mch ++ rest ++ [0]))
    (hroom : tmp + rlen + rest.length < b.length) :
    ∃ b', makeRoom mch.length rlen tmp b = some b' ∧ b'.length = b.length ∧
      (∀ k, k ≤ rest.length → b'[tmp + rlen + k]? = b[tmp + mch.length + k]?) ∧
        ∀ j, j < tmp → b'[j]? = b[j]? := by
  have hpos : 0 < mch.length := List.length_pos_iff.mpr hmch
  have hbound := hholds.length_le (by simp)
  simp only [List.length_append, List.length_singleton] at hbound
  unfold makeRoom
  rcases Nat.lt_trichotomy mch.length rlen with hlonger | hsame | hshorter
  · rw [if_pos hlonger, strlen_of_holds hzero hholds]
    obtain ⟨b', hb', hlength, hget⟩ := @moveRight_eq tmp (rlen - mch.length)
      (mch ++ rest).length b (by rw [List.length_append]; omega)
    rw [List.length_append] at hget
    refine ⟨b', hb', hlength, fun k hk => ?_, fun j hj => ?_⟩
    · rw [hget, if_pos (by omega)]
      congr 1
      omega
    · rw [hget, if_neg (by omega)]
  · rw [if_neg (by omega), if_neg (by omega)]
    exact ⟨b, rfl, rfl, fun k _ => by rw [hsame], fun _ _ => rfl⟩
  · rw [if_neg (by omega), if_pos hshorter]
    obtain ⟨b', hb', hlength, hget⟩ := @moveLeft_eq tmp (mch.length - rlen) (b.length + 1)
      mch.length (mch ++ rest) b hzero hholds (by omega) (by omega)
      (by rw [List.length_append]; omega) (by rw [List.length_append]; omega)
    rw [List.length_append] at hget
    refine ⟨b', hb', hlength, fun k hk => ?_, fun j hj => ?_⟩
    · rw [hget, if_pos (by omega)]
      congr 1
      omega
    · rw [hget, if_neg (by omega)]

theorem replaceMatch_eq {mch rpl rest : List UInt8} {tmp : Nat} {b : Buffer} (hmch : mch ≠ [])
    (hzero : (0 : UInt8) ∉ mch ++ rest) (hholds : Holds b tmp (mch ++ rest ++ [0]))
    (hroom : tmp + rpl.length + rest.length < b.length) :
    ∃ b', replaceMatch mch.length rpl tmp b = some b' ∧ b'.length = b.length ∧
      Holds b' tmp (rpl ++ rest ++ [0]) ∧ ∀ j, j < tmp → b'[j]? = b[j]? := by
  obtain ⟨b₁, hb₁, hlength₁, hrest₁, hbefore₁⟩ := makeRoom_eq hmch hzero hholds hroom
  obtain ⟨b', hb', hlength', hget'⟩ := @strncpy_of_le b₁ tmp rpl (by omega)
  refine ⟨b', ?_, hlength'.trans hlength₁, ?_, fun j hj => ?_⟩
  · unfold replaceMatch
    rw [hb₁]
    exact hb'
  · rw [List.append_assoc]
    refine holds_append.mpr ⟨fun k hk => ?_, ?_⟩
    · rw [hget', if_pos (by omega), Nat.add_sub_cancel_left]
    · rw [List.append_assoc] at hholds
      refine (holds_append.mp hholds).2.congr fun k hk => ?_
      rw [List.length_append, List.length_singleton] at hk
      rw [hget', if_neg (by omega), hrest₁ k (by omega)]
  · rw [hget', if_neg (by omega), hbefore₁ j hj]

/-- The loop turns the string behind `tmp` into its substitution, if that fits,
and leaves what is in front of it alone. -/
theorem replaceMatches_eq {mch rpl : List UInt8} (hmch : mch ≠ []) {s : List UInt8} {fuel tmp : Nat}
    {b : Buffer} (hfuel : occurrences mch s < fuel) (hzero : (0 : UInt8) ∉ s)
    (hholds : Holds b tmp (s ++ [0]))
    (hroom : tmp + (substitute mch rpl s).length < b.length) :
    ∃ b', replaceMatches mch rpl fuel tmp b = some b' ∧ b'.length = b.length ∧
      Holds b' tmp (substitute mch rpl s ++ [0]) ∧ ∀ j, j < tmp → b'[j]? = b[j]? := by
  induction s using find_induction hmch generalizing fuel tmp b with
  | hnone s hfind =>
    obtain ⟨fuel, rfl⟩ : ∃ fuel', fuel = fuel' + 1 := ⟨fuel - 1, by omega⟩
    rw [(@substitute_of_find_eq_none _ _ mch rpl s hfind).1]
    refine ⟨b, ?_, rfl, hholds, fun _ _ => rfl⟩
    rw [replaceMatches, strstr, cstr_of_holds hzero hholds, Option.map_some, hfind]
    rfl
  | hsome before rest hfind ih =>
    obtain ⟨fuel, rfl⟩ : ∃ fuel', fuel = fuel' + 1 := ⟨fuel - 1, by omega⟩
    obtain ⟨hsubstitute, hoccurrences⟩ := @substitute_of_find _ _ mch rpl rest before hmch hfind
    rw [hsubstitute] at hroom ⊢
    rw [hoccurrences] at hfuel
    -- The rest fits behind the replacement: either the match shrinks, or the rest is
    -- no longer than what it becomes.
    simp only [List.mem_append, not_or] at hzero
    obtain ⟨⟨hbefore, hmatch⟩, hrest⟩ := hzero
    have hfits : tmp + before.length + rpl.length + rest.length < b.length := by
      have hbound := hholds.length_le (by simp)
      simp only [List.length_append, List.length_singleton] at hbound hroom
      rcases Nat.lt_or_ge rpl.length mch.length with hshorter | hlonger
      · omega
      · have hgrows := length_le_substitute hmch hlonger rest
        omega
    have hholdsMatch : Holds b (tmp + before.length) (mch ++ rest ++ [0]) := by
      rw [List.append_assoc, List.append_assoc, ← List.append_assoc mch] at hholds
      exact (holds_append.mp hholds).2
    obtain ⟨b₁, hb₁, hlength₁, hholds₁, hbefore₁⟩ := replaceMatch_eq hmch
      (by simp only [List.mem_append, not_or]; exact ⟨hmatch, hrest⟩) hholdsMatch hfits
    rw [List.append_assoc, holds_append] at hholds₁
    simp only [List.length_append] at hroom
    obtain ⟨b', hb', hlength, hholds', hbefore'⟩ :=
      @ih fuel (tmp + before.length + rpl.length) b₁ (by omega) hrest hholds₁.2 (by omega)
    refine ⟨b', ?_, hlength.trans hlength₁, ?_, fun j hj => ?_⟩
    · rw [replaceMatches, strstr, cstr_of_holds (by simp [*]) hholds, Option.map_some, hfind]
      show (replaceMatch mch.length rpl (tmp + before.length) b).bind _ = _
      rw [hb₁]
      exact hb'
    · have hfront : Holds b tmp before := by
        rw [List.append_assoc, List.append_assoc] at hholds
        exact (holds_append.mp hholds).1
      rw [List.append_assoc, List.append_assoc]
      refine holds_append.mpr ⟨hfront.congr fun k hk => ?_, holds_append.mpr ⟨?_, hholds'⟩⟩
      · rw [hbefore' _ (by omega), hbefore₁ _ (by omega)]
      · exact hholds₁.1.congr fun k hk => hbefore' _ (by omega)
    · rw [hbefore' j (by omega), hbefore₁ j (by omega)]

/-! ## The whole function -/

/-- What `replace` is to put into the buffer. -/
def replaced (old mch rpl : List UInt8) : List UInt8 :=
  if mch = [] then old else substitute mch rpl old

/-- The lengths of the texts, and the size of a buffer for the result, fit an `int`. -/
structure Fits (old mch rpl : List UInt8) : Prop where
  olen : old.length ≤ 2147483647
  mlen : mch.length ≤ 2147483647
  rlen : rpl.length ≤ 2147483647
  nlen : (replaced old mch rpl).length + 1 ≤ 2147483647

theorem copyOld_eq {new : Buffer} {old : List UInt8} (hint : old.length < 2147483647)
    (hzero : (0 : UInt8) ∉ old) :
    (new.length ≤ old.length →
      copyOld new new.length old = some ((old.length : Int) + 1, some new)) ∧
    (old.length < new.length →
      ∃ new', copyOld new new.length old = some (0, some new') ∧ new'.length = new.length ∧
        cstr new' 0 = some old) := by
  unfold copyOld
  rw [int_eq_some (by omega)]
  constructor
  · intro hshort
    show (if (new.length : Int) ≤ old.length then _ else _) = _
    rw [if_pos (by omega), int_eq_some (by omega)]
    rfl
  · intro hroom
    obtain ⟨new', hnew', hlength, hholds⟩ := strcpy_of_lt hroom
    refine ⟨new', ?_, hlength, cstr_of_holds hzero hholds⟩
    show (if (new.length : Int) ≤ old.length then _ else _) = _
    rw [if_neg (by omega), hnew']
    rfl

/-- What `replace` does with a match that is not empty. -/
theorem replaceIn_eq {new : Buffer} {old mch rpl : List UInt8} (hmch : mch ≠ [])
    (hint : Fits old mch rpl) (hold : (0 : UInt8) ∉ old) (hrpl : (0 : UInt8) ∉ rpl) :
    (new.length ≤ (substitute mch rpl old).length →
      replaceIn new new.length old mch rpl =
        some (((substitute mch rpl old).length : Int) + 1, some new)) ∧
    ((substitute mch rpl old).length < new.length → old.length < new.length →
      ∃ new', replaceIn new new.length old mch rpl = some (0, some new') ∧
        new'.length = new.length ∧ cstr new' 0 = some (substitute mch rpl old)) ∧
    ((substitute mch rpl old).length < new.length → new.length ≤ old.length →
      replaceIn new new.length old mch rpl = none) := by
  have hlength := @length_substitute _ _ mch rpl hmch old
  have hroom := occurrences_mul_le hmch old
  have hpos : 0 < mch.length := List.length_pos_iff.mpr hmch
  have hcount : occurrences mch old ≤ old.length :=
    Nat.le_trans (Nat.le_mul_of_pos_right _ hpos) hroom
  obtain ⟨holen, hmlen, hrlen, hresult⟩ := hint
  rw [replaced, if_neg hmch] at hresult
  have hshifts : ((rpl.length : Int) - mch.length) * occurrences mch old =
      (occurrences mch old * rpl.length : Nat) - (occurrences mch old * mch.length : Nat) := by
    rw [Int.sub_mul, Int.natCast_mul, Int.natCast_mul, Int.mul_comm,
      Int.mul_comm (mch.length : Int)]
  have hmatches := @countMatches_eq mch hmch (old.length + 1) old 0 (by omega) (by omega) (by omega)
  rw [Int.zero_add] at hmatches
  by_cases hnone : occurrences mch old = 0
  · have hcopy : replaceIn new new.length old mch rpl = copyOld new new.length old := by
      unfold replaceIn
      rw [int_eq_some (by omega), int_eq_some (by omega), int_eq_some (by omega), hmatches, hnone]
      rfl
    rw [substitute_of_occurrences_eq_zero hmch hnone] at hresult ⊢
    rw [hcopy]
    obtain ⟨hshort, hfits⟩ := @copyOld_eq new old (by omega) hold
    exact ⟨hshort, fun _ => hfits, fun _ _ => by omega⟩
  · have hreplace : replaceIn new new.length old mch rpl =
        if ((substitute mch rpl old).length : Int) ≥ new.length then
          some (((substitute mch rpl old).length : Int) + 1, some new)
        else (strcpy new old).bind fun new =>
          (replaceMatches mch rpl (old.length + 1) 0 new).bind fun new => some (0, some new) := by
      unfold replaceIn
      rw [int_eq_some (by omega), int_eq_some (by omega), int_eq_some (by omega), hmatches]
      show (if (occurrences mch old : Int) = 0 then _ else _) = _
      rw [if_neg (by omega), int_eq_some (by omega)]
      show (int (((rpl.length : Int) - mch.length) * occurrences mch old)).bind _ = _
      rw [int_eq_some (by omega)]
      show (int ((old.length : Int) +
        ((rpl.length : Int) - mch.length) * occurrences mch old)).bind _ = _
      rw [← hlength, int_eq_some (by omega)]
      show (if ((substitute mch rpl old).length : Int) ≥ new.length then
        (int (((substitute mch rpl old).length : Int) + 1)).bind _ else _) = _
      rw [int_eq_some (by omega)]
      rfl
    rw [hreplace]
    refine ⟨fun hshort => if_pos (by omega), fun hfits hcopied => ?_, fun hfits hcopied => ?_⟩
    · obtain ⟨b, hb, hblength, hholds⟩ := strcpy_of_lt hcopied
      obtain ⟨b', hb', hblength', hholds', _⟩ := @replaceMatches_eq mch rpl hmch old
        (old.length + 1) 0 b (by omega) hold hholds (by omega)
      refine ⟨b', ?_, hblength'.trans hblength,
        cstr_of_holds (not_mem_substitute hmch hrpl hold) hholds'⟩
      rw [if_neg (by omega), hb, Option.bind_some, hb']
      rfl
    · rw [if_neg (by omega), strcpy_of_le hcopied]
      rfl

/-- `replace` says how long the buffer must be when the result does not fit, and
leaves it alone.  When the result and the old string fit, the buffer has the
result.  When the result fits and the old string does not, the buffer is written
past its end. -/
theorem replace_eq (new : Buffer) (old : CString) (mch rpl : Option CString)
    (hint : Fits old.bytes (mch.getD .empty).bytes (rpl.getD .empty).bytes) :
    (new.length ≤ (replaced old.bytes (mch.getD .empty).bytes (rpl.getD .empty).bytes).length →
      replace (some new) new.length (some old) mch rpl = some
        (((replaced old.bytes (mch.getD .empty).bytes (rpl.getD .empty).bytes).length : Int) + 1,
          some new)) ∧
    ((replaced old.bytes (mch.getD .empty).bytes (rpl.getD .empty).bytes).length < new.length →
      old.bytes.length < new.length →
        ∃ new', replace (some new) new.length (some old) mch rpl = some (0, some new') ∧
          new'.length = new.length ∧
            cstr new' 0 =
              some (replaced old.bytes (mch.getD .empty).bytes (rpl.getD .empty).bytes)) ∧
    ((replaced old.bytes (mch.getD .empty).bytes (rpl.getD .empty).bytes).length < new.length →
      new.length ≤ old.bytes.length →
        replace (some new) new.length (some old) mch rpl = none) := by
  have hlen : ¬((new.length : Int) < 0) := by omega
  by_cases hmch : (mch.getD .empty).bytes = []
  · have hcopy : replace (some new) new.length (some old) mch rpl =
        copyOld new new.length old.bytes := by
      unfold replace
      dsimp only
      rw [if_neg hlen]
      cases mch with
      | none => rfl
      | some mch => exact if_pos (congrArg List.length hmch)
    have hold : old.bytes.length < 2147483647 := by
      have hresult := hint.nlen
      rw [replaced, if_pos hmch] at hresult
      omega
    rw [hcopy, replaced, if_pos hmch]
    obtain ⟨hshort, hfits⟩ := copyOld_eq hold old.nonzero
    exact ⟨hshort, fun _ => hfits, fun _ _ => by omega⟩
  · have hin : replace (some new) new.length (some old) mch rpl =
        replaceIn new new.length old.bytes (mch.getD .empty).bytes (rpl.getD .empty).bytes := by
      unfold replace
      dsimp only
      rw [if_neg hlen]
      cases mch with
      | none => exact absurd rfl hmch
      | some mch => exact if_neg fun hnil => hmch (List.length_eq_zero_iff.mp hnil)
    rw [hin, replaced, if_neg hmch]
    exact replaceIn_eq hmch hint old.nonzero (rpl.getD .empty).nonzero

/-- `$JAVA_HOME`. -/
def javaHome : CString := ⟨[36, 74, 65, 86, 65, 95, 72, 79, 77, 69], by decide⟩

/-- `/`. -/
def root : CString := ⟨[47], by decide⟩

/-- A buffer of ten bytes has room for the path of the home directory, and not for
the name of the variable that is replaced by it. -/
theorem replace_eq_javaHome :
    replace (some (List.replicate 10 0)) 10 (some javaHome) (some javaHome) (some root) = none := by
  have hreplaced : replaced javaHome.bytes javaHome.bytes root.bytes = [47] := by
    have hsubstitute := (@substitute_append _ _ javaHome.bytes root.bytes [] (by decide)).1
    rw [List.append_nil] at hsubstitute
    rw [replaced, if_neg (by decide), hsubstitute, substitute]
    rfl
  have hfits : Fits javaHome.bytes javaHome.bytes root.bytes :=
    ⟨by decide, by decide, by decide, by rw [hreplaced]; decide⟩
  refine (replace_eq (List.replicate 10 0) javaHome (some javaHome) (some root) hfits).2.2 ?_
    (by decide)
  show (replaced javaHome.bytes javaHome.bytes root.bytes).length < 10
  rw [hreplaced]
  decide

end BoundaryEventSdk.Jsvc
