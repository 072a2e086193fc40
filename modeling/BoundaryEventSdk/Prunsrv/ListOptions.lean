import Mathlib.Data.List.Infix
import BoundaryEventSdk.Prunsrv.Cmdline

/-!
# Options that are lists

* `pieces` says how a value is split, by the quotes that are before a character,
  and `stringsOf` which pieces of some values a list has.  What is behind an
  empty piece is lost, and so is what is behind a value with a single quote:
  the quote is not written, and a zero is left at the end for it.
  `splitValue_eq` is the loop, and `stringsOf_eq_iff` says when nothing is lost.
* `Change` is what a command line does to a list of the registry, and
  `Implements` says that an option has a change.  `Implements.set` is the step,
  for one more value; `changeOf_cons` says which change some values make.
* `Ready` says that the next value of an option can be written without reading
  or writing outside of its block.  `Ready.set` is the step, and
  `parseOptions_ready` the result for a command line.
* `lists_given` is what follows for every list of a command line: which of its
  values are kept, and which strings they are.
-/

namespace BoundaryEventSdk.Prunsrv

open BoundaryEventSdk.C

/-! ## Values -/

/-- A character ends a piece: it is a `#` or a `;`, and before it every quote is closed.
A quote inside of quotes of the other kind counts as well. -/
def separates (before : List WChar) (c : WChar) : Bool :=
  (c == 35 || c == 59) && before.count 39 % 2 == 0 && before.count 34 % 2 == 0

/-- What is written of some characters: no single quotes. -/
def written (piece : List (WChar × List WChar)) : Block :=
  (piece.map Prod.fst).filter (· ≠ 39)

/-- The pieces of a value.  Each character stands with those that are before it. -/
def pieces (chars : List WChar) : List Block :=
  ((chars.zip chars.inits).splitOnP fun c => separates c.2 c.1).map written

/-- What is behind the value is found: it has no single quote and no empty piece. -/
def whole (val : WString) : Bool :=
  !val.chars.contains 39 && !(pieces val.chars).contains []

/-- The strings of a list that some values are written to. -/
def stringsOf : List WString → List Block
  | [] => []
  | val :: values =>
    if whole val then pieces val.chars ++ stringsOf values
    -- The values behind this one are lost, and so are its pieces behind an empty one.
    else (pieces val.chars).takeWhile fun piece => !piece.isEmpty

/-- How many single quotes a value has. -/
def quotes (val : WString) : Nat :=
  val.chars.count 39

/-- What is written for a value, as strings: an empty one for each single quote that is
dropped. -/
def partsOf (val : WString) : List Block :=
  pieces val.chars ++ List.replicate (quotes val) []

/-- The block of some values. -/
def listBlock (values : List WString) : Block :=
  encodeStrings 0 (values.flatMap partsOf) ++ [0]

/-- The pieces of what is behind some characters. -/
def piecesBehind (before chars : List WChar) : List Block :=
  ((chars.zip (chars.inits.map (before ++ ·))).splitOnP fun c => separates c.2 c.1).map written

theorem piecesBehind_nil (chars : List WChar) : piecesBehind [] chars = pieces chars := by
  unfold piecesBehind pieces
  rw [show (fun l : List WChar => [] ++ l) = id from rfl, List.map_id]

theorem written_cons (c : WChar) (before : List WChar) (piece : List (WChar × List WChar)) :
    written ((c, before) :: piece) = [c].filter (· ≠ 39) ++ written piece :=
  List.filter_append [c] _

/-- One more character: it ends a piece, or it is the first one of the next piece. -/
theorem piecesBehind_cons (before : List WChar) (c : WChar) (rest : List WChar) :
    piecesBehind before (c :: rest) =
      if separates before c then [] :: piecesBehind (before ++ [c]) rest
      else (piecesBehind (before ++ [c]) rest).modifyHead ([c].filter (· ≠ 39) ++ ·) := by
  have hnext : (fun l : List WChar => before ++ l) ∘ (fun l => c :: l) =
      (fun l => before ++ [c] ++ l) := by
    funext l
    show before ++ ([c] ++ l) = before ++ [c] ++ l
    rw [List.append_assoc]
  unfold piecesBehind
  rw [List.inits_cons, List.map_cons, List.map_map, hnext, List.append_nil, List.zip_cons_cons,
    List.splitOnP_cons_eq_if_modifyHead]
  split_ifs
  · rfl
  · cases hsplit : (rest.zip (rest.inits.map (before ++ [c] ++ ·))).splitOnP
        fun c => separates c.2 c.1 with
    | nil => exact absurd hsplit (List.splitOnP_ne_nil _ _)
    | cons piece others => exact congrArg (· :: others.map written) (written_cons c before piece)

/-- The flags of the loop are the quotes that are open. -/
theorem splitValue_behind (before chars : List WChar) (hzero : (0 : WChar) ∉ chars) :
    (splitValue (before.count 39 % 2 == 1) (before.count 34 % 2 == 1) chars).splitOn 0 =
      piecesBehind before chars := by
  have hparity : ∀ n : Nat, (n % 2 == 0) = !(n % 2 == 1) := by
    intro n
    rcases Nat.mod_two_eq_zero_or_one n with h | h <;> rw [h] <;> rfl
  have htoggle : ∀ n : Nat, ((n + 1) % 2 == 1) = !(n % 2 == 1) := by
    intro n
    rcases Nat.mod_two_eq_zero_or_one n with h | h <;> rw [Nat.add_mod, h] <;> rfl
  have hcount : ∀ (before : List WChar) (c q : WChar), c ≠ q →
      (before ++ [c]).count q = before.count q := by
    intro before c q hne
    have hnot : q ∉ [c] := fun hmem => hne (List.mem_singleton.mp hmem).symm
    rw [List.count_append, List.count_eq_zero_of_not_mem hnot, Nat.add_zero]
  have hself : ∀ (before : List WChar) (c : WChar),
      (before ++ [c]).count c = before.count c + 1 := by
    intro before c
    rw [List.count_append, List.count_singleton_self]
  induction chars generalizing before with
  | nil => rfl
  | cons c rest ih =>
    have hc : c ≠ 0 := fun h => hzero (h ▸ List.mem_cons_self)
    have hrest := ih (before ++ [c]) fun hmem => hzero (List.mem_cons_of_mem c hmem)
    rw [piecesBehind_cons, splitValue]
    by_cases hsingle : c = 39
    · subst hsingle
      have hends : separates before 39 = false := rfl
      rw [hself, hcount before 39 34 (by decide), htoggle] at hrest
      rw [if_pos rfl, hends, if_neg (by decide), ← hrest]
      cases hsplit : (splitValue (!before.count 39 % 2 == 1) (before.count 34 % 2 == 1)
          rest).splitOn 0 <;> rfl
    have hkeep : [c].filter (· ≠ 39) = [c] := by
      rw [List.filter_cons_of_pos (by simpa using hsingle), List.filter_nil]
    rw [if_neg hsingle, hkeep]
    rw [hcount before c 39 hsingle] at hrest
    by_cases hdouble : c = 34
    · subst hdouble
      have hends : separates before 34 = false := rfl
      rw [hself, htoggle] at hrest
      rw [if_pos rfl, hends, if_neg (by decide), List.splitOn_cons_eq_if_modifyHead,
        if_neg (by decide), hrest]
      rfl
    rw [hcount before c 34 hdouble] at hrest
    rw [if_neg hdouble]
    have hsame : separates before c = true ↔ (c = 35 ∨ c = 59) ∧
        (before.count 39 % 2 == 1) = false ∧ (before.count 34 % 2 == 1) = false := by
      unfold separates
      rw [hparity, hparity, Bool.and_eq_true, Bool.and_eq_true, Bool.or_eq_true, Bool.not_eq_true',
        Bool.not_eq_true', beq_iff_eq, beq_iff_eq, and_assoc]
    by_cases hends : separates before c = true
    · rw [if_pos (hsame.mp hends), if_pos hends, List.splitOn_cons_eq_if_modifyHead,
        if_pos (beq_self_eq_true _), hrest]
    · rw [if_neg fun h => hends (hsame.mpr h), if_neg hends, List.splitOn_cons_eq_if_modifyHead,
        if_neg (by simpa using hc), hrest]
      rfl

/-- What the loop writes are the pieces. -/
theorem splitValue_eq (val : WString) :
    (splitValue false false val.chars).splitOn 0 = pieces val.chars := by
  rw [← piecesBehind_nil]
  exact splitValue_behind [] val.chars val.noZero

theorem takeWhile_append_of_neg {α : Type} {p : α → Bool} {x : α} (hx : p x = false)
    (xs ys : List α) : (xs ++ x :: ys).takeWhile p = xs.takeWhile p := by
  rw [List.takeWhile_append, List.takeWhile_cons_of_neg (by rw [hx]; decide), List.append_nil]
  split_ifs with h
  · exact ((List.takeWhile_prefix p).eq_of_length h).symm
  · rfl

/-- The strings are the parts up to the first one that is empty. -/
theorem stringsOf_eq (values : List WString) :
    stringsOf values = (values.flatMap partsOf).takeWhile fun part => !part.isEmpty := by
  induction values with
  | nil => rfl
  | cons val values ih =>
    rw [List.flatMap_cons, stringsOf]
    unfold partsOf whole quotes
    by_cases hempty : [] ∈ pieces val.chars
    · obtain ⟨front, back, hsplit⟩ := List.append_of_mem hempty
      rw [if_neg (by simp [hempty]), hsplit, List.append_assoc, List.append_assoc,
        List.cons_append, takeWhile_append_of_neg rfl, takeWhile_append_of_neg rfl]
    have hall : ∀ piece ∈ pieces val.chars, (!piece.isEmpty) = true := by
      intro piece hpiece
      cases piece with
      | nil => exact absurd hpiece hempty
      | cons _ _ => rfl
    by_cases hquote : (39 : WChar) ∈ val.chars
    · obtain ⟨n, hn⟩ := Nat.exists_eq_succ_of_ne_zero
        (Nat.pos_iff_ne_zero.mp (List.count_pos_iff.mpr hquote))
      rw [if_neg (by simp [hquote]), hn, List.replicate_succ, List.append_assoc, List.cons_append,
        takeWhile_append_of_neg rfl]
    · rw [if_pos (by simp [hempty, hquote]), List.count_eq_zero_of_not_mem hquote,
        List.replicate_zero, List.append_nil, List.takeWhile_append_of_pos hall, ih]
      rfl

/-- No value but the last one has a single quote, and no piece is empty. -/
def Lossless (values : List WString) : Prop :=
  (∀ val ∈ values, [] ∉ pieces val.chars) ∧ ∀ val ∈ values.dropLast, (39 : WChar) ∉ val.chars

theorem pieces_ne_nil (chars : List WChar) : pieces chars ≠ [] := by
  unfold pieces
  rw [ne_eq, List.map_eq_nil_iff]
  exact List.splitOnP_ne_nil _ _

/-- The list has all pieces of the values if and only if nothing is lost. -/
theorem stringsOf_eq_iff (values : List WString) :
    stringsOf values = values.flatMap (fun val => pieces val.chars) ↔ Lossless values := by
  have hproper : ∀ piece ∈ stringsOf values, piece ≠ [] := by
    intro piece hpiece hnil
    rw [stringsOf_eq] at hpiece
    have hmem := List.mem_takeWhile_imp hpiece
    rw [hnil] at hmem
    cases hmem
  constructor
  · intro hall
    have hempty : ∀ val ∈ values, [] ∉ pieces val.chars := by
      intro val hval hnil
      refine hproper [] ?_ rfl
      rw [hall]
      exact List.mem_flatMap.mpr ⟨val, hval, hnil⟩
    refine ⟨hempty, ?_⟩
    clear hproper
    induction values with
    | nil => exact nofun
    | cons val values ih =>
      cases values with
      | nil => exact nofun
      | cons next values =>
        obtain ⟨hfirst, hrest⟩ := List.forall_mem_cons.mp hempty
        rw [stringsOf, List.flatMap_cons] at hall
        by_cases hquote : (39 : WChar) ∈ val.chars
        · -- The pieces of the next value are missing.
          rw [if_neg (by unfold whole; simp [hquote])] at hall
          have hlength := congrArg List.length hall
          have hnext := List.length_pos_iff.mpr (pieces_ne_nil next.chars)
          have htake := (List.takeWhile_prefix (fun piece : Block => !piece.isEmpty)
            (l := pieces val.chars)).length_le
          rw [List.length_append, List.flatMap_cons, List.length_append] at hlength
          omega
        · rw [if_pos (by unfold whole; simp [hquote, hfirst])] at hall
          have hmore := ih (List.append_cancel_left hall) hrest
          rw [List.dropLast_cons_of_ne_nil (List.cons_ne_nil next values)]
          exact List.forall_mem_cons.mpr ⟨hquote, hmore⟩
  · rintro ⟨hempty, hquotes⟩
    clear hproper
    induction values with
    | nil => rfl
    | cons val values ih =>
      obtain ⟨hfirst, hrest⟩ := List.forall_mem_cons.mp hempty
      have hall : ∀ piece ∈ pieces val.chars, (!piece.isEmpty) = true := by
        intro piece hpiece
        cases piece with
        | nil => exact absurd hpiece hfirst
        | cons _ _ => rfl
      rw [stringsOf, List.flatMap_cons]
      cases values with
      | nil =>
        rw [List.flatMap_nil, List.append_nil, show stringsOf [] = [] from rfl, List.append_nil,
          List.takeWhile_eq_self_iff.mpr hall, ite_self]
      | cons next values =>
        rw [List.dropLast_cons_of_ne_nil (List.cons_ne_nil next values)] at hquotes
        obtain ⟨hquote, hquotes⟩ := List.forall_mem_cons.mp hquotes
        rw [if_pos (by unfold whole; simp [hquote, hfirst]), ih hrest hquotes]

theorem length_splitValue (insquote indquote : Bool) (chars : List WChar) :
    (splitValue insquote indquote chars).length + chars.count 39 = chars.length := by
  induction chars generalizing insquote indquote with
  | nil => rfl
  | cons pp rest ih =>
    unfold splitValue
    by_cases hquote : pp = 39
    · rw [if_pos hquote, hquote, List.count_cons_self, List.length_cons, ← ih (!insquote) indquote]
      rfl
    · rw [if_neg hquote, List.count_cons_of_ne hquote, List.length_cons]
      split_ifs
      · rw [List.length_cons, ← ih insquote (!indquote)]
        omega
      · rw [List.length_cons, ← ih insquote indquote]
        omega
      · rw [List.length_cons, ← ih insquote indquote]
        omega

theorem not_mem_partsOf {val : WString} {part : Block} (h : part ∈ partsOf val) :
    (0 : WChar) ∉ part := by
  rcases List.mem_append.mp h with h | h
  · rw [← splitValue_eq] at h
    exact (of_mem_splitOn h).1
  · rw [(List.mem_replicate.mp h).2]
    exact List.not_mem_nil

theorem encodes_listBlock (values : List WString) :
    Encodes 0 (listBlock values) (stringsOf values) := by
  rw [stringsOf_eq]
  apply encodes_parts
  intro part hpart
  obtain ⟨val, _, hmem⟩ := List.mem_flatMap.mp hpart
  exact not_mem_partsOf hmem

theorem encodeStrings_partsOf (val : WString) :
    encodeStrings (0 : WChar) (partsOf val) =
      splitValue false false val.chars ++ List.replicate (quotes val + 1) 0 := by
  unfold partsOf
  rw [encodeStrings_append, ← splitValue_eq, encodeStrings_splitOn, encodeStrings_replicate_nil,
    List.append_assoc, List.replicate_succ]
  rfl

theorem listBlock_append (values : List WString) (val : WString) :
    listBlock (values ++ [val]) = encodeStrings 0 (values.flatMap partsOf) ++
      (splitValue false false val.chars ++ List.replicate (quotes val + 2) 0) := by
  unfold listBlock
  rw [List.flatMap_append, encodeStrings_append, List.flatMap_singleton, encodeStrings_partsOf,
    List.append_assoc, List.append_assoc, ← List.replicate_succ']

theorem length_listBlock_append (values : List WString) (val : WString) :
    (listBlock (values ++ [val])).length =
      (encodeStrings (0 : WChar) (values.flatMap partsOf)).length + val.chars.length + 2 := by
  have hlength : (splitValue false false val.chars).length + quotes val = val.chars.length :=
    length_splitValue false false val.chars
  rw [listBlock_append, List.length_append, List.length_append, List.length_replicate]
  omega

/-- What is written for a value behind the others. -/
theorem callocWrite_value (values : List WString) (val : WString) :
    callocWrite ((encodeStrings (0 : WChar) (values.flatMap partsOf)).length +
        val.chars.length + 2)
      (encodeStrings 0 (values.flatMap partsOf) ++ splitValue false false val.chars) =
        some (listBlock (values ++ [val])) := by
  have hlength : (splitValue false false val.chars).length + quotes val = val.chars.length :=
    length_splitValue false false val.chars
  rw [callocWrite_eq (by rw [List.length_append]; omega), listBlock_append, List.append_assoc,
    List.length_append, show ∀ n s : Nat, s + quotes val = val.chars.length →
      n + val.chars.length + 2 - (n + s) = quotes val + 2 by omega]
  exact hlength

theorem appendMsz_first (val : WString) :
    appendMsz none 0 val = some (listBlock [val], (listBlock [val]).length * 2) := by
  have hlength : (listBlock [val]).length = 0 + val.chars.length + 2 :=
    length_listBlock_append [] val
  have hblock : callocWrite (0 + val.chars.length + 2) ([] ++ splitValue false false val.chars) =
      some (listBlock [val]) := callocWrite_value [] val
  rw [hlength]
  show (callocWrite (0 + val.chars.length + 2) ([] ++ splitValue false false val.chars)).bind _ = _
  rw [hblock]
  rfl

theorem appendMsz_next (values : List WString) (val : WString) :
    appendMsz (some (listBlock values)) ((listBlock values).length * 2) val =
      some (listBlock (values ++ [val]), (listBlock (values ++ [val])).length * 2) := by
  have hblock := callocWrite_value values val
  have hlength := length_listBlock_append values val
  have hhead : (listBlock values).length =
      (encodeStrings (0 : WChar) (values.flatMap partsOf)).length + 1 := List.length_append
  have hmove : moveMemory (some (listBlock values))
      (encodeStrings (0 : WChar) (values.flatMap partsOf)).length =
        some (encodeStrings 0 (values.flatMap partsOf)) := by
    unfold moveMemory
    dsimp only
    rw [if_pos (by omega)]
    unfold listBlock
    rw [List.take_left]
  unfold appendMsz
  rw [hlength, hhead]
  generalize (encodeStrings (0 : WChar) (values.flatMap partsOf)).length = length at *
  have hsp : (if (length + 1) * 2 > 2 then ((length + 1) * 2 - 2) / 2 else 0) = length := by
    split_ifs <;> omega
  rw [hsp]
  dsimp only
  rw [hmove]
  show (callocWrite (length + val.chars.length + 2)
    (encodeStrings 0 (values.flatMap partsOf) ++ splitValue false false val.chars)).bind _ = _
  rw [hblock]
  rfl

/-! ## Changes -/

/-- What a command line does to a list. -/
inductive Change where
  /-- It is not given. -/
  | keep
  /-- It is given as `++option` only: the values are added to those of the registry. -/
  | add (values : List WString)
  /-- The values replace those of the registry. -/
  | replace (values : List WString)

/-- One more value: the first `--option` discards the values before it. -/
def Change.set (add : Bool) (val : WString) : Change → Change
  | .keep => if add then .add [val] else .replace [val]
  | .add values => if add then .add (values ++ [val]) else .replace [val]
  | .replace values => .replace (values ++ [val])

/-- Some more values. -/
def Change.setAll (change : Change) (values : List Given) : Change :=
  values.foldl (fun change g => change.set g.add g.value) change

/-- The change that some values make. -/
def changeOf (values : List Given) : Change :=
  Change.keep.setAll values

def Change.dwType : Change → UInt32
  | .keep => APXCMDOPT_MSZ ||| APXCMDOPT_REG
  | .add _ => APXCMDOPT_MSZ ||| APXCMDOPT_REG ||| APXCMDOPT_FOUND ||| APXCMDOPT_ADD
  | .replace _ => APXCMDOPT_MSZ ||| APXCMDOPT_REG ||| APXCMDOPT_FOUND

def Change.block : Change → Option Block
  | .keep => none
  | .add values => some (listBlock values)
  | .replace values => some (listBlock values)

/-- The option of a list has a change. -/
structure Implements (change : Change) (o : CmdlineOpt) : Prop where
  dwType : o.dwType = change.dwType
  szValue : o.szValue = change.block
  dwValue : o.dwValue = (change.block.getD []).length * 2

/-- A value is written behind those that are left. -/
theorem CmdlineOpt.set_list {o : CmdlineOpt} {add : Bool} {val : WString} {block : Block}
    (hlist : (o.setAdd add).dwType &&& APXCMDOPT_STR = 0 ∧
      (o.setAdd add).dwType &&& APXCMDOPT_INT = 0 ∧ (o.setAdd add).dwType &&& APXCMDOPT_MSZ ≠ 0)
    (happend : appendMsz (o.setAdd add).szValue (o.setAdd add).dwValue val =
      some (block, block.length * 2)) :
    o.set add val = some { o.setAdd add with
      dwType := (o.setAdd add).dwType ||| APXCMDOPT_FOUND, szValue := some block,
      dwValue := block.length * 2 } := by
  obtain ⟨hstr, hint, hmsz⟩ := hlist
  unfold CmdlineOpt.set CmdlineOpt.setValue CmdlineOpt.has
  rw [if_neg (by simpa using hstr), if_neg (by simpa using hint), if_pos (by simpa using hmsz),
    happend]
  rfl

/-- What is left of a list before a value is written. -/
theorem Implements.setAdd {change : Change} {o : CmdlineOpt} (h : Implements change o) (add : Bool)
    (val : WString) : ∃ block,
      appendMsz (o.setAdd add).szValue (o.setAdd add).dwValue val =
        some (block, block.length * 2) ∧
      (change.set add val).block = some block ∧
      (o.setAdd add).dwType ||| APXCMDOPT_FOUND = (change.set add val).dwType ∧
      (o.setAdd add).dwType &&& APXCMDOPT_STR = 0 ∧ (o.setAdd add).dwType &&& APXCMDOPT_INT = 0 ∧
      (o.setAdd add).dwType &&& APXCMDOPT_MSZ ≠ 0 := by
  obtain ⟨htype, hvalue, hlength⟩ := h
  unfold CmdlineOpt.setAdd CmdlineOpt.has
  cases change with
  | keep =>
    have htype : o.dwType = APXCMDOPT_MSZ ||| APXCMDOPT_REG := htype
    cases add with
    | false =>
      rw [if_neg (by decide), if_neg (by rw [htype]; decide), hvalue, hlength, htype]
      exact ⟨_, appendMsz_first val, rfl, rfl, by decide⟩
    | true =>
      rw [if_pos rfl, if_neg (by rw [htype]; decide)]
      dsimp only
      rw [hvalue, hlength, htype]
      exact ⟨_, appendMsz_first val, rfl, rfl, by decide⟩
  | add values =>
    have htype : o.dwType = APXCMDOPT_MSZ ||| APXCMDOPT_REG ||| APXCMDOPT_FOUND |||
      APXCMDOPT_ADD := htype
    cases add with
    | false =>
      rw [if_neg (by decide), if_pos (by rw [htype]; decide)]
      dsimp only
      rw [htype]
      refine ⟨_, appendMsz_first val, rfl, ?_, by decide⟩
      show _ = APXCMDOPT_MSZ ||| APXCMDOPT_REG ||| APXCMDOPT_FOUND
      decide
    | true =>
      rw [if_pos rfl, if_pos (by rw [htype]; decide), hvalue, hlength, htype]
      exact ⟨_, appendMsz_next values val, rfl, rfl, by decide⟩
  | replace values =>
    have htype : o.dwType = APXCMDOPT_MSZ ||| APXCMDOPT_REG ||| APXCMDOPT_FOUND := htype
    cases add with
    | false =>
      rw [if_neg (by decide), if_neg (by rw [htype]; decide), hvalue, hlength, htype]
      exact ⟨_, appendMsz_next values val, rfl, rfl, by decide⟩
    | true =>
      rw [if_pos rfl, if_pos (by rw [htype]; decide), hvalue, hlength, htype]
      exact ⟨_, appendMsz_next values val, rfl, rfl, by decide⟩

theorem Implements.set {change : Change} {o : CmdlineOpt} (h : Implements change o) (add : Bool)
    (val : WString) : ∃ o', o.set add val = some o' ∧ Implements (change.set add val) o' := by
  obtain ⟨block, happend, hblock, htype, hlist⟩ := h.setAdd add val
  refine ⟨_, CmdlineOpt.set_list hlist happend, htype, hblock.symm, ?_⟩
  rw [hblock]
  rfl

theorem implements_after {values : List Given} {o o' : CmdlineOpt} (h : Implements .keep o)
    (hafter : After values o o') : Implements (changeOf (o.ofName values)) o' := by
  have hrun : ∀ (own : List Given) (change : Change) (o : CmdlineOpt), Implements change o →
      own.foldlM (fun o g => o.set g.add g.value) o = some o' →
      Implements (change.setAll own) o' := by
    intro own
    induction own with
    | nil =>
      intro change o h hown
      cases hown
      exact h
    | cons g own ih =>
      intro change o h hown
      obtain ⟨o₁, hset, hstep⟩ := h.set g.add g.value
      rw [List.foldlM_cons, hset] at hown
      exact ih _ o₁ hstep hown
  exact hrun _ _ o h hafter

theorem Change.setAll_cons (change : Change) (g : Given) (values : List Given) :
    change.setAll (g :: values) = (change.set g.add g.value).setAll values :=
  rfl

theorem Change.setAll_replace (first : List WString) (values : List Given) :
    (Change.replace first).setAll values = .replace (first ++ values.map (·.value)) := by
  induction values generalizing first with
  | nil =>
    rw [List.map_nil, List.append_nil]
    rfl
  | cons g values ih =>
    rw [Change.setAll_cons, List.map_cons]
    show (Change.replace (first ++ [g.value])).setAll values = _
    rw [ih, List.append_assoc]
    rfl

theorem Change.setAll_add (first : List WString) (values : List Given) :
    (Change.add first).setAll values =
      if values.all (·.add) then .add (first ++ values.map (·.value))
      else .replace ((values.dropWhile (·.add)).map (·.value)) := by
  induction values generalizing first with
  | nil =>
    rw [List.map_nil, List.append_nil]
    rfl
  | cons g values ih =>
    rw [Change.setAll_cons, List.all_cons]
    cases hg : g.add with
    | true =>
      show (Change.add (first ++ [g.value])).setAll values = _
      rw [ih, List.dropWhile_cons_of_pos hg, List.map_cons, List.append_assoc, Bool.true_and]
      rfl
    | false =>
      show (Change.replace [g.value]).setAll values = _
      rw [Change.setAll_replace, List.dropWhile_cons_of_neg (by rw [hg]; decide), Bool.false_and,
        if_neg (by decide)]
      rfl

/-- With `++option` only, all the values are added.  Else the ones from the first
`--option` on replace those of the registry. -/
theorem changeOf_cons (g : Given) (values : List Given) :
    changeOf (g :: values) =
      if (g :: values).all (·.add) then .add ((g :: values).map (·.value))
      else .replace (((g :: values).dropWhile (·.add)).map (·.value)) := by
  show (Change.add []).setAll (g :: values) = _
  rw [Change.setAll_add]
  rfl

/-! ## Undefined behaviour -/

theorem and_or_of_disjoint {t flag bits : UInt32} (h : bits &&& flag = 0) :
    (t ||| bits) &&& flag = t &&& flag := by
  apply UInt32.toBitVec_inj.mp
  rw [UInt32.toBitVec_and, UInt32.toBitVec_or, BitVec.and_or_distrib_right, ← UInt32.toBitVec_and,
    ← UInt32.toBitVec_and, h]
  exact BitVec.or_zero

theorem and_not_and {t flag bits : UInt32} (h : ~~~bits &&& flag = flag) :
    t &&& ~~~bits &&& flag = t &&& flag := by
  rw [UInt32.and_assoc, h]

theorem CmdlineOpt.has_or {o o' : CmdlineOpt} {flag bits : UInt32}
    (h : o'.dwType = o.dwType ||| bits) (hbits : bits &&& flag = 0) : o'.has flag = o.has flag := by
  unfold CmdlineOpt.has
  rw [h, and_or_of_disjoint hbits]

theorem CmdlineOpt.has_setAdd {o : CmdlineOpt} {add : Bool} {flag : UInt32}
    (hadd : APXCMDOPT_ADD &&& flag = 0) (hnot : ~~~APXCMDOPT_ADD &&& flag = flag) :
    (o.setAdd add).has flag = o.has flag := by
  unfold CmdlineOpt.setAdd
  split_ifs
  · rfl
  · exact CmdlineOpt.has_or rfl hadd
  · unfold CmdlineOpt.has
    rw [and_not_and hnot]
  · rfl

theorem Implements.dwType_cases {change : Change} {o : CmdlineOpt} (h : Implements change o) :
    o.dwType = APXCMDOPT_MSZ ||| APXCMDOPT_REG ∨
      o.dwType = APXCMDOPT_MSZ ||| APXCMDOPT_REG ||| APXCMDOPT_FOUND ||| APXCMDOPT_ADD ∨
      o.dwType = APXCMDOPT_MSZ ||| APXCMDOPT_REG ||| APXCMDOPT_FOUND := by
  rw [h.dwType]
  cases change with
  | keep => exact .inl rfl
  | add values => exact .inr (.inl rfl)
  | replace values => exact .inr (.inr rfl)

theorem Implements.has {change : Change} {o : CmdlineOpt} (h : Implements change o) :
    o.has APXCMDOPT_STR = false ∧ o.has APXCMDOPT_INT = false ∧ o.has APXCMDOPT_MSZ = true ∧
      o.has APXCMDOPT_REG = true ∧ o.has APXCMDOPT_SRV = false := by
  unfold CmdlineOpt.has
  rcases h.dwType_cases with htype | htype | htype <;> rw [htype] <;> decide

/-- What kind of option it is does not change. -/
theorem CmdlineOpt.set_has {o o' : CmdlineOpt} {add : Bool} {val : WString} {flag : UInt32}
    (h : o.set add val = some o') (hadd : APXCMDOPT_ADD &&& flag = 0)
    (hnot : ~~~APXCMDOPT_ADD &&& flag = flag) (hfound : APXCMDOPT_FOUND &&& flag = 0) :
    o'.has flag = o.has flag := by
  have hvalue : ∀ {o o' : CmdlineOpt}, o.setValue val = some o' → o'.dwType = o.dwType := by
    intro o o' h
    unfold CmdlineOpt.setValue at h
    split_ifs at h
    · cases h
      rfl
    · obtain ⟨v, _, rfl⟩ := Option.map_eq_some_iff.mp h
      rfl
    · obtain ⟨msz, _, rfl⟩ := Option.map_eq_some_iff.mp h
      rfl
    · cases h
      rfl
  unfold CmdlineOpt.set at h
  obtain ⟨o₁, hset, rfl⟩ := Option.map_eq_some_iff.mp h
  rw [← @CmdlineOpt.has_setAdd o add flag hadd hnot]
  apply CmdlineOpt.has_or _ hfound
  show o₁.dwType ||| _ = _
  rw [hvalue hset]

theorem After.has {values : List Given} {o o' : CmdlineOpt} {flag : UInt32}
    (h : After values o o') (hadd : APXCMDOPT_ADD &&& flag = 0)
    (hnot : ~~~APXCMDOPT_ADD &&& flag = flag) (hfound : APXCMDOPT_FOUND &&& flag = 0) :
    o'.has flag = o.has flag := by
  unfold After at h
  generalize o.ofName values = own at h
  induction own generalizing o with
  | nil =>
    cases h
    rfl
  | cons g own ih =>
    rw [List.foldlM_cons] at h
    obtain ⟨o₁, hset, hown⟩ := Option.bind_eq_some_iff.mp h
    exact (ih hown).trans (CmdlineOpt.set_has hset hadd hnot hfound)

/-- An option whose value can be set, added to and saved. -/
inductive Ready (o : CmdlineOpt) : Prop where
  | text (hstr : o.has APXCMDOPT_STR = true) (hmsz : o.has APXCMDOPT_MSZ = false)
      (hvalue : o.has APXCMDOPT_FOUND = true → ∃ val : WString, o.szValue = some val.block)
  | number (hstr : o.has APXCMDOPT_STR = false) (hint : o.has APXCMDOPT_INT = true)
      (hmsz : o.has APXCMDOPT_MSZ = false)
  | list (change : Change) (h : Implements change o)
  | other (hstr : o.has APXCMDOPT_STR = false) (hint : o.has APXCMDOPT_INT = false)
      (hmsz : o.has APXCMDOPT_MSZ = false)

theorem atoul_isSome {text : Block} (h : text ≠ [45]) : ∃ v, atoul text = some v :=
  ⟨_, atoul_eq h⟩

theorem Ready.set {o : CmdlineOpt} (h : Ready o) (add : Bool) {val : WString}
    (hval : o.has APXCMDOPT_INT = true → val.chars ≠ [45]) :
    ∃ o', o.set add val = some o' ∧ Ready o' ∧ o'.has APXCMDOPT_INT = o.has APXCMDOPT_INT := by
  have hstr' : (o.setAdd add).has APXCMDOPT_STR = o.has APXCMDOPT_STR :=
    CmdlineOpt.has_setAdd (by decide) (by decide)
  have hint' : (o.setAdd add).has APXCMDOPT_INT = o.has APXCMDOPT_INT :=
    CmdlineOpt.has_setAdd (by decide) (by decide)
  have hmsz' : (o.setAdd add).has APXCMDOPT_MSZ = o.has APXCMDOPT_MSZ :=
    CmdlineOpt.has_setAdd (by decide) (by decide)
  have hset : ∀ {o₁ : CmdlineOpt}, (o.setAdd add).setValue val = some o₁ →
      o.set add val = some { o₁ with dwType := o₁.dwType ||| APXCMDOPT_FOUND } := by
    intro o₁ hvalue
    unfold CmdlineOpt.set
    rw [hvalue]
    rfl
  have hkind : ∀ {o' : CmdlineOpt}, o.set add val = some o' →
      o'.has APXCMDOPT_STR = o.has APXCMDOPT_STR ∧ o'.has APXCMDOPT_INT = o.has APXCMDOPT_INT ∧
        o'.has APXCMDOPT_MSZ = o.has APXCMDOPT_MSZ := fun h =>
    ⟨CmdlineOpt.set_has h (by decide) (by decide) (by decide),
      CmdlineOpt.set_has h (by decide) (by decide) (by decide),
      CmdlineOpt.set_has h (by decide) (by decide) (by decide)⟩
  cases h with
  | text hstr hmsz =>
    have ho := @hset { o.setAdd add with szValue := some val.block } (if_pos (hstr'.trans hstr))
    obtain ⟨hstr₁, hint₁, hmsz₁⟩ := hkind ho
    exact ⟨_, ho, .text (hstr₁.trans hstr) (hmsz₁.trans hmsz) fun _ => ⟨val, rfl⟩, hint₁⟩
  | number hstr hint hmsz =>
    obtain ⟨v, hv⟩ := atoul_isSome (hval hint)
    have ho := @hset { o.setAdd add with dwValue := v.toNat } (by
      unfold CmdlineOpt.setValue
      rw [if_neg (by rw [hstr', hstr]; decide), if_pos (hint'.trans hint), hv]
      rfl)
    obtain ⟨hstr₁, hint₁, hmsz₁⟩ := hkind ho
    exact ⟨_, ho, .number (hstr₁.trans hstr) (hint₁.trans hint) (hmsz₁.trans hmsz), hint₁⟩
  | list change h =>
    obtain ⟨o', ho, hstep⟩ := h.set add val
    exact ⟨o', ho, .list _ hstep, (hkind ho).2.1⟩
  | other hstr hint hmsz =>
    have ho := @hset (o.setAdd add) (by
      unfold CmdlineOpt.setValue
      rw [if_neg (by rw [hstr', hstr]; decide), if_neg (by rw [hint', hint]; decide),
        if_neg (by rw [hmsz', hmsz]; decide)])
    obtain ⟨hstr₁, hint₁, hmsz₁⟩ := hkind ho
    exact ⟨_, ho, .other (hstr₁.trans hstr) (hint₁.trans hint) (hmsz₁.trans hmsz), hint₁⟩

/-- The names of the options that are numbers. -/
def isNumber (lpOptions : List CmdlineOpt) (name : Block) : Bool :=
  lpOptions.any fun o => o.szName == name && o.has APXCMDOPT_INT

/-- A number is given as a minus alone. -/
def givesMinus (number : Block → Bool) : List WString → Bool
  | [] => false
  | a :: words =>
    match readArg a with
    | none => false
    | some (_, name, some value) =>
      (number name && value.chars == [45]) || givesMinus number words
    | some (_, name, none) =>
      match words with
      | value :: words => (number name && value.chars == [45]) || givesMinus number words
      | [] => false

theorem setOption_ready {name : Block} {add : Bool} {val : WString} {lpOptions : List CmdlineOpt}
    (h : ∀ o ∈ lpOptions, Ready o)
    (hval : (isNumber lpOptions name && val.chars == [45]) = false) :
    ∃ set, setOption name add val lpOptions = some set ∧
      ∀ lpOptions', set = some lpOptions' →
        (∀ o ∈ lpOptions', Ready o) ∧ isNumber lpOptions' = isNumber lpOptions := by
  induction lpOptions with
  | nil => exact ⟨none, rfl, nofun⟩
  | cons o lpOptions ih =>
    obtain ⟨ho, hrest⟩ := List.forall_mem_cons.mp h
    unfold setOption
    split_ifs with hname
    · obtain ⟨o', hset, hready, hint⟩ := @Ready.set o ho add val (by
        intro hint hminus
        unfold isNumber at hval
        rw [List.any_cons, hname, hint, hminus] at hval
        simp at hval)
      refine ⟨some (o' :: lpOptions), by rw [hset]; rfl, fun lpOptions' hsome => ?_⟩
      cases hsome
      refine ⟨List.forall_mem_cons.mpr ⟨hready, hrest⟩, funext fun name => ?_⟩
      unfold isNumber
      rw [List.any_cons, List.any_cons, hint, (CmdlineOpt.set_static hset).1]
    · obtain ⟨set, hset, hmore⟩ := ih hrest (by
        unfold isNumber at hval ⊢
        rw [List.any_cons] at hval
        cases hchars : val.chars == [45] with
        | false => exact Bool.and_false _
        | true =>
          rw [hchars, Bool.and_true, Bool.or_eq_false_iff] at hval
          rw [hval.2]
          rfl)
      refine ⟨set.map (o :: ·), by rw [hset]; rfl, fun lpOptions' hsome => ?_⟩
      obtain ⟨rest, rfl, rfl⟩ := Option.map_eq_some_iff.mp hsome
      obtain ⟨hready, hnumber⟩ := hmore rest rfl
      refine ⟨List.forall_mem_cons.mpr ⟨ho, hready⟩, funext fun name => ?_⟩
      have hsame := congrFun hnumber name
      unfold isNumber at hsame ⊢
      rw [List.any_cons, List.any_cons, hsame]

/-- The loop has a defined result, if no number is given as a minus alone. -/
theorem parseOptions_ready {argv : List WString} {lpOptions : List CmdlineOpt}
    (h : ∀ o ∈ lpOptions, Ready o) (hminus : givesMinus (isNumber lpOptions) argv = false) :
    ∃ parsed, parseOptions argv lpOptions = some parsed ∧
      ∀ lpOptions' words, parsed = some (lpOptions', words) → ∀ o ∈ lpOptions', Ready o := by
  have hcons : ∀ {name : Block} {add : Bool} {val : WString} {words : List WString}
      {lpOptions : List CmdlineOpt} {next : Option (Option (List CmdlineOpt × List WString))},
      (∀ o ∈ lpOptions, Ready o) →
      ((isNumber lpOptions name && val.chars == [45]) ||
        givesMinus (isNumber lpOptions) words) = false →
      (∀ mid, (∀ o ∈ mid, Ready o) → givesMinus (isNumber mid) words = false →
        ∃ parsed, parseOptions words mid = some parsed ∧
          ∀ lpOptions' words, parsed = some (lpOptions', words) → ∀ o ∈ lpOptions', Ready o) →
      (setOption name add val lpOptions = some none → next = some none) →
      (∀ mid, setOption name add val lpOptions = some (some mid) →
        next = parseOptions words mid) →
      ∃ parsed, next = some parsed ∧
        ∀ lpOptions' words, parsed = some (lpOptions', words) → ∀ o ∈ lpOptions', Ready o := by
    intro name add val words lpOptions next h hminus ih hunknown hknown
    rw [Bool.or_eq_false_iff] at hminus
    obtain ⟨set, hset, hmore⟩ := @setOption_ready name add val lpOptions h hminus.1
    cases set with
    | none => exact ⟨none, hunknown hset, nofun⟩
    | some mid =>
      obtain ⟨hready, hnumber⟩ := hmore mid rfl
      rw [hknown mid hset]
      exact ih mid hready (hnumber ▸ hminus.2)
  fun_induction parseOptions argv lpOptions with
  | case1 lpOptions =>
    refine ⟨_, rfl, fun lpOptions' words hsome => ?_⟩
    cases hsome
    exact h
  | case2 a words lpOptions hread =>
    refine ⟨_, rfl, fun lpOptions' words' hsome => ?_⟩
    cases hsome
    exact h
  | case3 a words lpOptions add name val hread ih =>
    rw [givesMinus, hread] at hminus
    refine @hcons name add val words lpOptions _ h hminus ih (fun hset => ?_)
      fun mid hset => ?_
    · rw [hset]
      rfl
    · rw [hset]
      rfl
  | case4 a lpOptions add name hread val words ih =>
    rw [givesMinus, hread] at hminus
    refine @hcons name add val words lpOptions _ h hminus ih (fun hset => ?_)
      fun mid hset => ?_
    · rw [hset]
      rfl
    · rw [hset]
      rfl
  | case5 => exact ⟨none, rfl, nofun⟩

/-! ## Numbers -/

/-- The option of a number: it is given, or it is not. -/
structure Takes (number : Option UInt32) (o : CmdlineOpt) : Prop where
  kind : o.has APXCMDOPT_STR = false ∧ o.has APXCMDOPT_INT = true ∧
    o.has APXCMDOPT_MSZ = false ∧ o.has APXCMDOPT_REG = true ∧ o.has APXCMDOPT_SRV = false
  found : o.has APXCMDOPT_FOUND = number.isSome
  value : ∀ v ∈ number, o.dwValue = v.toNat

theorem atoul_eq_some {text : Block} {v : UInt32} (h : atoul text = some v) :
    v = numberOf text := by
  by_cases hminus : text = [45]
  · subst hminus
    cases h
  · rw [atoul_eq hminus, Option.some.injEq] at h
    exact h.symm

theorem CmdlineOpt.has_or_self {o o' : CmdlineOpt} {flag : UInt32}
    (h : o'.dwType = o.dwType ||| flag) (hflag : flag ≠ 0) : o'.has flag = true := by
  have habsorb : (o.dwType ||| flag) &&& flag = flag := by
    apply UInt32.toBitVec_inj.mp
    rw [UInt32.toBitVec_and, UInt32.toBitVec_or]
    apply BitVec.eq_of_getLsbD_eq
    intro i _
    rw [BitVec.getLsbD_and, BitVec.getLsbD_or]
    cases flag.toBitVec.getLsbD i with
    | false => exact Bool.and_false _
    | true => rw [Bool.or_true, Bool.and_true]
  unfold CmdlineOpt.has
  rw [h, habsorb]
  exact bne_iff_ne.mpr hflag

/-- The last number that is given counts. -/
theorem Takes.set {number : Option UInt32} {o o' : CmdlineOpt} {add : Bool} {val : WString}
    (h : Takes number o) (hset : o.set add val = some o') :
    Takes (some (numberOf val.chars)) o' := by
  obtain ⟨hstr, hint, hmsz, hreg, hsrv⟩ := h.kind
  have hsame : ∀ {flag : UInt32}, APXCMDOPT_ADD &&& flag = 0 → ~~~APXCMDOPT_ADD &&& flag = flag →
      APXCMDOPT_FOUND &&& flag = 0 → o'.has flag = o.has flag := CmdlineOpt.set_has hset
  have hkind : o'.has APXCMDOPT_STR = false ∧ o'.has APXCMDOPT_INT = true ∧
      o'.has APXCMDOPT_MSZ = false ∧ o'.has APXCMDOPT_REG = true ∧
      o'.has APXCMDOPT_SRV = false :=
    ⟨(hsame (by decide) (by decide) (by decide)).trans hstr,
      (hsame (by decide) (by decide) (by decide)).trans hint,
      (hsame (by decide) (by decide) (by decide)).trans hmsz,
      (hsame (by decide) (by decide) (by decide)).trans hreg,
      (hsame (by decide) (by decide) (by decide)).trans hsrv⟩
  have hstr' : (o.setAdd add).has APXCMDOPT_STR = false :=
    (CmdlineOpt.has_setAdd (by decide) (by decide)).trans hstr
  have hint' : (o.setAdd add).has APXCMDOPT_INT = true :=
    (CmdlineOpt.has_setAdd (by decide) (by decide)).trans hint
  unfold CmdlineOpt.set CmdlineOpt.setValue at hset
  rw [if_neg (by rw [hstr']; decide), if_pos hint'] at hset
  obtain ⟨o₁, hvalue, rfl⟩ := Option.map_eq_some_iff.mp hset
  obtain ⟨v, hv, rfl⟩ := Option.map_eq_some_iff.mp hvalue
  refine ⟨hkind, ?_, fun v' hv' => ?_⟩
  · exact @CmdlineOpt.has_or_self (o.setAdd add) _ APXCMDOPT_FOUND rfl (by decide)
  · cases hv'
    rw [← atoul_eq_some hv]

theorem takes_after {values : List Given} {o o' : CmdlineOpt} (h : Takes none o)
    (hafter : After values o o') :
    Takes ((o.ofName values).getLast?.map fun g => numberOf g.value.chars) o' := by
  have hrun : ∀ (own : List Given) (number : Option UInt32) (o : CmdlineOpt), Takes number o →
      own.foldlM (fun o g => o.set g.add g.value) o = some o' →
      Takes ((own.getLast?.map fun g => numberOf g.value.chars).or number) o' := by
    intro own
    induction own with
    | nil =>
      intro number o h hown
      cases hown
      exact h
    | cons g own ih =>
      intro number o h hown
      rw [List.foldlM_cons] at hown
      obtain ⟨o₁, hset, hrest⟩ := Option.bind_eq_some_iff.mp hown
      have hlast := ih _ o₁ (h.set hset) hrest
      cases own with
      | nil => exact hlast
      | cons next own =>
        rw [List.getLast?_cons_cons]
        rw [List.getLast?_cons] at hlast ⊢
        exact hlast
  have hlast := hrun _ none o h hafter
  rw [Option.or_none] at hlast
  exact hlast

/-! ## The lists of a command line -/

/-- The values of a list that are kept. -/
def kept (values : List Given) : List WString :=
  if values.all (·.add) then values.map (·.value)
  else (values.dropWhile (·.add)).map (·.value)

/-- The lists after a command line that is accepted: one that is not given is not changed,
and another one has the strings of the values that are kept, which are all of their pieces if
and only if nothing is lost.  It is to be added to that of the registry if and only if it is
given as `++option` only. -/
theorem lists_given {argv words : List WString} {lpOptions lpOptions' : List CmdlineOpt}
    (hnames : (names lpOptions).Nodup)
    (h : parseOptions argv lpOptions = some (some (lpOptions', words))) :
    ∃ values, given (· ∈ names lpOptions) argv = some (values, words) ∧
      List.Forall₂ (fun o o' => Implements .keep o →
        (o.ofName values = [] → o' = o) ∧
        (o.ofName values ≠ [] → ∃ block strings, o'.szValue = some block ∧
          o'.dwValue = block.length * 2 ∧ Encodes 0 block strings ∧
          strings = stringsOf (kept (o.ofName values)) ∧
          (strings = (kept (o.ofName values)).flatMap (fun val => pieces val.chars) ↔
            Lossless (kept (o.ofName values))) ∧
          o'.has APXCMDOPT_FOUND = true ∧
          o'.has APXCMDOPT_ADD = (o.ofName values).all (·.add))) lpOptions lpOptions' := by
  obtain ⟨values, hgiven, hafter⟩ := parseOptions_accepts hnames h
  refine ⟨values, hgiven, hafter.imp fun o o' ho hkeep => ⟨fun hnone => ?_, fun hsome => ?_⟩⟩
  · unfold After at ho
    rw [hnone] at ho
    exact (Option.some.inj ho).symm
  · obtain ⟨htype, hvalue, hlength⟩ := implements_after hkeep ho
    cases hown : o.ofName values with
    | nil => exact absurd hown hsome
    | cons g own =>
      rw [hown, changeOf_cons] at htype hvalue hlength
      unfold kept
      unfold CmdlineOpt.has
      split_ifs at htype hvalue hlength ⊢ with hadd
      · have htype : o'.dwType = APXCMDOPT_MSZ ||| APXCMDOPT_REG ||| APXCMDOPT_FOUND |||
          APXCMDOPT_ADD := htype
        refine ⟨_, _, hvalue, hlength, encodes_listBlock _, rfl, stringsOf_eq_iff _, ?_⟩
        rw [htype, hadd]
        decide
      · have htype : o'.dwType = APXCMDOPT_MSZ ||| APXCMDOPT_REG ||| APXCMDOPT_FOUND := htype
        refine ⟨_, _, hvalue, hlength, encodes_listBlock _, rfl, stringsOf_eq_iff _, ?_⟩
        rw [htype, Bool.eq_false_iff.mpr hadd]
        decide

/-- The second value replaces the first one, and the third one is lost, because the second
one has single quotes. -/
theorem lists_given_replaced :
    (∃ values, given (· ∈ [wide "JvmOptions"])
        [word "++JvmOptions=-Xa;-Xb", word "--JvmOptions", word "-Xc;'-Xd#e'",
          word "++JvmOptions=-Xf"] = some (values, []) ∧
      List.Forall₂ (fun o o' => Implements .keep o →
        (o.ofName values = [] → o' = o) ∧
        (o.ofName values ≠ [] → ∃ block strings, o'.szValue = some block ∧
          o'.dwValue = block.length * 2 ∧ Encodes 0 block strings ∧
          strings = stringsOf (kept (o.ofName values)) ∧
          (strings = (kept (o.ofName values)).flatMap (fun val => pieces val.chars) ↔
            Lossless (kept (o.ofName values))) ∧
          o'.has APXCMDOPT_FOUND = true ∧
          o'.has APXCMDOPT_ADD = (o.ofName values).all (·.add)))
        [⟨wide "JvmOptions", wide "Options", some (wide "Java"),
          APXCMDOPT_MSZ ||| APXCMDOPT_REG, none, 0⟩]
        [⟨wide "JvmOptions", wide "Options", some (wide "Java"),
          APXCMDOPT_MSZ ||| APXCMDOPT_REG ||| APXCMDOPT_FOUND,
          some (wide "-Xc" ++ [0] ++ wide "-Xd#e" ++ [0, 0, 0] ++ wide "-Xf" ++ [0, 0]), 34⟩]) ∧
    stringsOf [word "-Xc;'-Xd#e'", word "-Xf"] = [wide "-Xc", wide "-Xd#e"] :=
  ⟨@lists_given _ _
    [⟨wide "JvmOptions", wide "Options", some (wide "Java"), APXCMDOPT_MSZ ||| APXCMDOPT_REG,
      none, 0⟩] _ (List.nodup_singleton _) (by decide +kernel), by decide +kernel⟩

end BoundaryEventSdk.Prunsrv
