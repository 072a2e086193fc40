import BoundaryEventSdk.Prunsrv.MultiSz

/-!
# The command line of a process

`apxProcessSetCommandArgsW` writes the title of a process and its arguments to one
command line.  An argument that has a blank is put into quotes, unless it has a
quote itself.

`commandWords` is what a program makes of its command line, by the rules of the C
runtime: a quote opens or closes a part that keeps its blanks, backslashes count
only before a quote, and the name of the program has no escapes.
`commandWords_eq_iff` says that the words are the title and the arguments if and
only if each argument is `Safe`.
-/

namespace BoundaryEventSdk.Prunsrv

/-- A blank or a tab. -/
def isBlank (c : WChar) : Bool :=
  c == 32 || c == 9

/-- `__apxStrQuote`: quotes are added only if there are none. -/
def strQuote (szSrc : Block) : Block :=
  if szSrc.any isBlank && !szSrc.any (· == 34) then
    34 :: szSrc ++ [34]
  else
    szSrc

/-- Writing to the first characters of what is allocated. -/
def allocWrite (size : Nat) (content : Block) : Option Block :=
  if content.length ≤ size then some content else none

/-- The command line, without the zero behind it. -/
def commandLine (szTitle : Block) (lpArgs : List Block) : Block :=
  strQuote szTitle ++ lpArgs.flatMap fun arg => 32 :: strQuote arg

/-- `apxProcessSetCommandArgsW`. -/
def processSetCommandArgs (szTitle : Block) (lpArgs : List Block) : Option Block :=
  let l := lpArgs.foldl (fun l arg => l + (arg.length + 3)) (szTitle.length + 3)
  allocWrite l (commandLine szTitle lpArgs ++ [0])

theorem length_strQuote_le (s : Block) : (strQuote s).length ≤ s.length + 2 := by
  unfold strQuote
  split_ifs
  · rw [List.length_append, List.length_cons, List.length_singleton]
  · exact Nat.le_add_right _ _

/-- The command line always fits. -/
theorem processSetCommandArgs_eq (szTitle : Block) (lpArgs : List Block) :
    processSetCommandArgs szTitle lpArgs = some (commandLine szTitle lpArgs ++ [0]) := by
  have hargs : ∀ l, l + (lpArgs.flatMap fun arg => 32 :: strQuote arg).length ≤
      lpArgs.foldl (fun l arg => l + (arg.length + 3)) l := by
    induction lpArgs with
    | nil => exact fun l => Nat.le_refl l
    | cons arg lpArgs ih =>
      intro l
      have harg := length_strQuote_le arg
      have hrest := ih (l + (arg.length + 3))
      rw [List.flatMap_cons, List.length_append, List.length_cons, List.foldl_cons]
      omega
  have htitle := length_strQuote_le szTitle
  have hall := hargs (szTitle.length + 3)
  have hlength : (commandLine szTitle lpArgs ++ [0]).length = (strQuote szTitle).length +
      (lpArgs.flatMap fun arg => 32 :: strQuote arg).length + 1 := by
    unfold commandLine
    rw [List.length_append, List.length_append, List.length_singleton]
  unfold processSetCommandArgs allocWrite
  exact if_pos (by omega)

theorem zero_not_mem_commandLine {szTitle : Block} {lpArgs : List Block} (htitle : 0 ∉ szTitle)
    (hargs : ∀ arg ∈ lpArgs, 0 ∉ arg) : 0 ∉ commandLine szTitle lpArgs := by
  have hquote : ∀ s : Block, 0 ∉ s → 0 ∉ strQuote s := by
    intro s hs
    unfold strQuote
    split_ifs
    · simp [hs]
    · exact hs
  intro hmem
  rcases List.mem_append.mp hmem with hmem | hmem
  · exact hquote szTitle htitle hmem
  · obtain ⟨arg, harg, hzero⟩ := List.mem_flatMap.mp hmem
    rcases List.mem_cons.mp hzero with hzero | hzero
    · exact absurd hzero (by decide)
    · exact hquote arg (hargs arg harg) hzero

/-! ## Reading a command line -/

/-- The words behind the name of the program.  `word` is what is read of a word, and behind it
`slashes` backslashes are read that may stand before a quote. -/
def argWords (quoted : Bool) (slashes : Nat) (word : Option Block) : Block → List Block
  | [] => (word.map (· ++ List.replicate slashes 92)).toList
  | c :: rest =>
    if c = 92 then argWords quoted (slashes + 1) (some (word.getD [])) rest
    else if c = 34 then
      -- Two backslashes before a quote are one.
      let before := word.getD [] ++ List.replicate (slashes / 2) 92
      if slashes % 2 = 1 then argWords quoted 0 (some (before ++ [34])) rest
      else
        match rest with
        | d :: behind =>
          -- Two quotes inside of quotes are one.
          if quoted = true ∧ d = 34 then argWords true 0 (some (before ++ [34])) behind
          else argWords (!quoted) 0 (some before) (d :: behind)
        | [] => argWords (!quoted) 0 (some before) []
    else if isBlank c = true ∧ quoted = false then
      (word.map (· ++ List.replicate slashes 92)).toList ++ argWords false 0 none rest
    else
      argWords quoted 0 (some (word.getD [] ++ List.replicate slashes 92 ++ [c])) rest

/-- The name of the program, and what is behind it. -/
def programName (quoted : Bool) : Block → Block × Block
  | [] => ([], [])
  | c :: rest =>
    if c = 34 then programName (!quoted) rest
    else if isBlank c = true ∧ quoted = false then ([], c :: rest)
    else (c :: (programName quoted rest).1, (programName quoted rest).2)

/-- The words of a command line. -/
def commandWords (line : Block) : List Block :=
  (programName false line).1 :: argWords false 0 none (programName false line).2

/-- An argument that is passed on as it is. -/
def Safe (arg : Block) : Prop :=
  arg ≠ [] ∧ 34 ∉ arg ∧ ¬(arg.any isBlank = true ∧ arg.getLast? = some 92)

instance (arg : Block) : Decidable (Safe arg) :=
  inferInstanceAs (Decidable
    (arg ≠ [] ∧ 34 ∉ arg ∧ ¬(arg.any isBlank = true ∧ arg.getLast? = some 92)))

section

variable {quoted : Bool} {slashes : Nat} {word : Option Block} {c : WChar} {rest : Block}

theorem argWords_slash :
    argWords quoted slashes word (92 :: rest) =
      argWords quoted (slashes + 1) (some (word.getD [])) rest := by
  rw [argWords, if_pos rfl]

theorem argWords_char (hslash : c ≠ 92) (hquote : c ≠ 34)
    (hblank : ¬(isBlank c = true ∧ quoted = false)) :
    argWords quoted slashes word (c :: rest) =
      argWords quoted 0 (some (word.getD [] ++ List.replicate slashes 92 ++ [c])) rest := by
  rw [argWords, if_neg hslash, if_neg hquote, if_neg hblank]

theorem argWords_blank (hblank : isBlank c = true) :
    argWords false slashes word (c :: rest) =
      (word.map (· ++ List.replicate slashes 92)).toList ++ argWords false 0 none rest := by
  have hslash : c ≠ 92 := by
    rintro rfl
    exact absurd hblank (by decide)
  have hquote : c ≠ 34 := by
    rintro rfl
    exact absurd hblank (by decide)
  rw [argWords, if_neg hslash, if_neg hquote, if_pos ⟨hblank, rfl⟩]

theorem argWords_escaped (hodd : slashes % 2 = 1) :
    argWords quoted slashes word (34 :: rest) =
      argWords quoted 0
        (some (word.getD [] ++ List.replicate (slashes / 2) 92 ++ [34])) rest := by
  rw [argWords, if_neg (by decide), if_pos rfl]
  exact if_pos hodd

/-- A quote that opens or closes. -/
theorem argWords_toggle (heven : slashes % 2 = 0)
    (hpair : ¬(quoted = true ∧ rest.head? = some 34)) :
    argWords quoted slashes word (34 :: rest) =
      argWords (!quoted) 0 (some (word.getD [] ++ List.replicate (slashes / 2) 92)) rest := by
  rw [argWords, if_neg (by decide), if_pos rfl]
  dsimp only
  rw [if_neg (by omega)]
  cases rest with
  | nil => rfl
  | cons d behind =>
    dsimp only
    rw [if_neg]
    rintro ⟨hquoted, rfl⟩
    exact hpair ⟨hquoted, rfl⟩

/-- Characters that are no quotes are read as they are, but the backslashes at their end may
still stand before a quote. -/
theorem argWords_append {s : Block} (hne : s ≠ []) (hquote : 34 ∉ s)
    (hblank : quoted = true ∨ s.any isBlank = false) :
    ∃ slashes' word', argWords quoted slashes word (s ++ rest) =
        argWords quoted slashes' (some word') rest ∧
      word' ++ List.replicate slashes' 92 = word.getD [] ++ List.replicate slashes 92 ++ s ∧
      (slashes' = 0 ↔ s.getLast? ≠ some 92) := by
  induction s generalizing slashes word with
  | nil => exact absurd rfl hne
  | cons c s ih =>
    rw [List.mem_cons, not_or] at hquote
    have hrest : quoted = true ∨ s.any isBlank = false := by
      rcases hblank with hquoted | hblank
      · exact .inl hquoted
      · rw [List.any_cons, Bool.or_eq_false_iff] at hblank
        exact .inr hblank.2
    have hc : ¬(isBlank c = true ∧ quoted = false) := by
      rintro ⟨hc, hquoted⟩
      rcases hblank with hblank | hblank
      · exact absurd (hquoted.symm.trans hblank) (by decide)
      · rw [List.any_cons, hc, Bool.true_or] at hblank
        cases hblank
    -- The state behind the first character.
    obtain ⟨slashes₁, word₁, hstep, htext, hlast⟩ : ∃ slashes₁ word₁,
        argWords quoted slashes word (c :: (s ++ rest)) =
          argWords quoted slashes₁ (some word₁) (s ++ rest) ∧
        word₁ ++ List.replicate slashes₁ 92 =
          word.getD [] ++ List.replicate slashes 92 ++ [c] ∧
        (slashes₁ = 0 ↔ c ≠ 92) := by
      by_cases hslash : c = 92
      · subst hslash
        refine ⟨_, _, argWords_slash, ?_, by simp⟩
        rw [List.replicate_succ', List.append_assoc]
      · exact ⟨_, _, argWords_char hslash (Ne.symm hquote.1) hc, List.append_nil _,
          by simp [hslash]⟩
    rw [List.cons_append, hstep]
    cases s with
    | nil =>
      refine ⟨slashes₁, word₁, rfl, htext, ?_⟩
      rw [hlast, List.getLast?_singleton, ne_eq, ne_eq, Option.some.injEq]
    | cons d s =>
      obtain ⟨slashes', word', hread, hsame, hend⟩ :=
        @ih slashes₁ (some word₁) (List.cons_ne_nil d s) hquote.2 hrest
      refine ⟨slashes', word', hread, ?_, ?_⟩
      · rw [hsame, Option.getD_some, htext, List.append_assoc]
        rfl
      · rw [hend, List.getLast?_cons_cons]

end

/-! ## Arguments that are safe -/

/-- What is behind an argument: nothing, or a blank. -/
def Behind (rest : Block) : Prop :=
  ∀ c ∈ rest.head?, c = 32

theorem behind_arguments (args : List Block) :
    Behind (args.flatMap fun arg => 32 :: strQuote arg) := by
  cases args with
  | nil => exact nofun
  | cons arg args =>
    intro c hc
    cases hc
    rfl

theorem argWords_end {slashes : Nat} {word : Option Block} {rest : Block} (hrest : Behind rest) :
    argWords false slashes word rest =
      (word.map (· ++ List.replicate slashes 92)).toList ++ argWords false 0 none rest := by
  cases rest with
  | nil => exact (List.append_nil _).symm
  | cons c rest =>
    have hc : c = 32 := hrest c rfl
    subst hc
    rw [argWords_blank rfl, argWords_blank rfl]
    rfl

theorem Behind.head_ne {rest : Block} (hrest : Behind rest) : rest.head? ≠ some 34 := by
  intro hhead
  exact absurd (hrest 34 hhead) (by decide)

/-- The two ways of passing an argument that has no quotes. -/
theorem strQuote_cases {arg : Block} (hquote : 34 ∉ arg) :
    (arg.any isBlank = true ∧ strQuote arg = 34 :: arg ++ [34]) ∨
      (arg.any isBlank = false ∧ strQuote arg = arg) := by
  have hnone : arg.any (· == 34) = false := by
    rw [List.any_eq_false]
    intro c hc hsame
    exact hquote ((beq_iff_eq.mp hsame) ▸ hc)
  unfold strQuote
  rw [hnone, Bool.not_false, Bool.and_true]
  cases hblank : arg.any isBlank with
  | true => exact .inl ⟨rfl, if_pos rfl⟩
  | false => exact .inr ⟨rfl, if_neg (by decide)⟩

/-- An argument in quotes is read up to its last quote, with the backslashes before that. -/
theorem argWords_quoted {arg rest : Block} (hquote : 34 ∉ arg) (hne : arg ≠ []) :
    ∃ slashes word, argWords false 0 none (34 :: arg ++ [34] ++ rest) =
        argWords true slashes (some word) (34 :: rest) ∧
      word ++ List.replicate slashes 92 = arg ∧ (slashes = 0 ↔ arg.getLast? ≠ some 92) := by
  obtain ⟨slashes, word, hread, hsame, hlast⟩ :=
    @argWords_append true 0 (some []) (34 :: rest) arg hne hquote (.inl rfl)
  refine ⟨slashes, word, ?_, hsame, hlast⟩
  rw [List.append_assoc, List.cons_append, argWords_toggle rfl (by simp)]
  exact hread

theorem argWords_strQuote {arg rest : Block} (hsafe : Safe arg) (hrest : Behind rest) :
    argWords false 0 none (strQuote arg ++ rest) = arg :: argWords false 0 none rest := by
  obtain ⟨hne, hquote, hend⟩ := hsafe
  rcases strQuote_cases hquote with ⟨hblank, hpassed⟩ | ⟨hblank, hpassed⟩
  · obtain ⟨slashes, word, hread, hsame, hlast⟩ := @argWords_quoted arg rest hquote hne
    have hzero : slashes = 0 := hlast.mpr fun hslash => hend ⟨hblank, hslash⟩
    subst hzero
    rw [hpassed, hread, argWords_toggle rfl fun h => hrest.head_ne h.2, Bool.not_true,
      argWords_end hrest, ← hsame]
    simp
  · obtain ⟨slashes, word, hread, hsame, _⟩ :=
      @argWords_append false 0 none rest arg hne hquote (.inr hblank)
    rw [hpassed, hread, argWords_end hrest, Option.map_some, hsame]
    rfl

theorem programName_append {quoted : Bool} {s rest : Block} (hquote : 34 ∉ s)
    (hblank : quoted = true ∨ s.any isBlank = false) :
    programName quoted (s ++ rest) =
      (s ++ (programName quoted rest).1, (programName quoted rest).2) := by
  induction s with
  | nil => rfl
  | cons c s ih =>
    rw [List.mem_cons, not_or] at hquote
    rw [List.any_cons, Bool.or_eq_false_iff] at hblank
    have hc : ¬(isBlank c = true ∧ quoted = false) := by
      rintro ⟨hc, hquoted⟩
      rcases hblank with hblank | hblank
      · exact absurd (hquoted.symm.trans hblank) (by decide)
      · exact absurd (hc.symm.trans hblank.1) (by decide)
    rw [List.cons_append, programName, if_neg (Ne.symm hquote.1), if_neg hc,
      ih hquote.2 (hblank.imp_right And.right)]
    rfl

theorem programName_end {rest : Block} (hrest : Behind rest) :
    programName false rest = ([], rest) := by
  cases rest with
  | nil => rfl
  | cons c rest =>
    have hc : c = 32 := hrest c rfl
    subst hc
    rfl

/-- The name of the program is the title. -/
theorem programName_strQuote {szTitle rest : Block} (hquote : 34 ∉ szTitle)
    (hrest : Behind rest) : programName false (strQuote szTitle ++ rest) = (szTitle, rest) := by
  rcases strQuote_cases hquote with ⟨_, hpassed⟩ | ⟨hblank, hpassed⟩
  · have hclose : programName true (34 :: rest) = ([], rest) := programName_end hrest
    rw [hpassed, List.append_assoc, List.cons_append]
    show programName true (szTitle ++ (34 :: rest)) = _
    rw [programName_append hquote (.inl rfl), hclose, List.append_nil]
  · rw [hpassed, programName_append hquote (.inr hblank), programName_end hrest, List.append_nil]

/-- The blank before an argument ends no word. -/
theorem argWords_next (arg : Block) (args : List Block) :
    argWords false 0 none ((arg :: args).flatMap fun arg => 32 :: strQuote arg) =
      argWords false 0 none (strQuote arg ++ args.flatMap fun arg => 32 :: strQuote arg) := by
  rw [List.flatMap_cons, List.cons_append, argWords_blank rfl]
  rfl

theorem argWords_arguments {args : List Block} (hsafe : ∀ arg ∈ args, Safe arg) :
    argWords false 0 none (args.flatMap fun arg => 32 :: strQuote arg) = args := by
  induction args with
  | nil => rfl
  | cons arg args ih =>
    obtain ⟨hone, hsafe⟩ := List.forall_mem_cons.mp hsafe
    rw [argWords_next, argWords_strQuote hone (behind_arguments args), ih hsafe]

/-! ## Arguments that are not safe -/

/-- How many quotes can be read as the second one of two. -/
def pairs : Block → Nat
  | [] => 0
  | c :: rest =>
    match rest with
    | d :: behind => if c = 34 ∧ d = 34 then pairs behind + 1 else pairs (d :: behind)
    | [] => 0

theorem pairs_cons_of_ne {c : WChar} {rest : Block} (hc : c ≠ 34) :
    pairs (c :: rest) = pairs rest := by
  cases rest with
  | nil => rfl
  | cons d behind => rw [pairs, if_neg fun h => hc h.1]

theorem pairs_cons (c : WChar) (rest : Block) :
    pairs rest ≤ pairs (c :: rest) ∧ pairs (c :: rest) ≤ pairs rest + 1 := by
  induction rest generalizing c with
  | nil => exact ⟨Nat.le_refl 0, Nat.zero_le 1⟩
  | cons d behind ih =>
    obtain ⟨hle, hlt⟩ := ih d
    rw [pairs]
    split_ifs
    · exact ⟨hlt, Nat.add_le_add_right hle 1⟩
    · exact ⟨Nat.le_refl _, Nat.le_succ _⟩

theorem two_mul_pairs_le (s : Block) : 2 * pairs s ≤ s.count 34 := by
  fun_induction pairs s with
  | case1 => exact Nat.le_refl 0
  | case2 c d behind hboth ih =>
    obtain ⟨rfl, rfl⟩ := hboth
    rw [List.count_cons_self, List.count_cons_self]
    omega
  | case3 c d behind _ ih => exact ih.trans List.count_le_count_cons
  | case4 c => exact Nat.zero_le _

theorem pairs_append {s rest : Block} (hrest : Behind rest) :
    pairs (s ++ rest) = pairs s + pairs rest := by
  fun_induction pairs s with
  | case1 => exact (Nat.zero_add _).symm
  | case2 c d behind hboth ih =>
    rw [List.cons_append, List.cons_append, pairs, if_pos hboth, ih]
    omega
  | case3 c d behind hboth ih =>
    rw [List.cons_append, List.cons_append, pairs, if_neg hboth, ← List.cons_append, ih]
  | case4 c =>
    rw [List.singleton_append, Nat.zero_add]
    cases rest with
    | nil => rfl
    | cons d behind =>
      rw [pairs, if_neg]
      rintro ⟨_, rfl⟩
      exact hrest.head_ne rfl

theorem pairs_quoted {s : Block} (hquote : 34 ∉ s) : pairs (s ++ [34]) = 0 := by
  induction s with
  | nil => rfl
  | cons c s ih =>
    rw [List.mem_cons, not_or] at hquote
    rw [List.cons_append, pairs_cons_of_ne (Ne.symm hquote.1), ih hquote.2]

/-- The quotes that are added are not next to another one. -/
theorem two_mul_pairs_strQuote_le (arg : Block) : 2 * pairs (strQuote arg) ≤ arg.count 34 := by
  by_cases hquote : 34 ∈ arg
  · have hany : arg.any (· == 34) = true := List.any_eq_true.mpr ⟨34, hquote, rfl⟩
    unfold strQuote
    rw [hany, Bool.not_true, Bool.and_false, if_neg (by decide)]
    exact two_mul_pairs_le arg
  rcases strQuote_cases hquote with ⟨hblank, hpassed⟩ | ⟨_, hpassed⟩
  · cases arg with
    | nil => cases hblank
    | cons d behind =>
      have hfirst : ¬(34 = (34 : WChar) ∧ d = 34) := fun h => hquote (h.2 ▸ List.mem_cons_self)
      rw [hpassed, List.cons_append, List.cons_append, pairs, if_neg hfirst, ← List.cons_append,
        pairs_quoted hquote]
      exact Nat.zero_le _
  · rw [hpassed]
    exact two_mul_pairs_le arg

theorem two_mul_pairs_arguments_le (args : List Block) :
    2 * pairs (args.flatMap fun arg => 32 :: strQuote arg) ≤ args.flatten.count 34 := by
  induction args with
  | nil => exact Nat.le_refl 0
  | cons arg args ih =>
    have hfirst := two_mul_pairs_strQuote_le arg
    rw [List.flatMap_cons, List.cons_append, pairs_cons_of_ne (by decide),
      pairs_append (behind_arguments args), List.flatten_cons, List.count_append]
    omega

theorem count_slashes (args : List Block) :
    (args.flatMap fun arg => 32 :: strQuote arg).count 92 = args.flatten.count 92 := by
  have hone : ∀ arg : Block, (strQuote arg).count 92 = arg.count 92 := by
    intro arg
    unfold strQuote
    split_ifs
    · rw [List.count_append, List.count_cons_of_ne (by decide)]
      rfl
    · rfl
  induction args with
  | nil => rfl
  | cons arg args ih =>
    rw [List.flatMap_cons, List.cons_append, List.count_cons_of_ne (by decide), List.count_append,
      hone, ih, List.flatten_cons, List.count_append]

/-- The quotes and the backslashes of a text. -/
def marks (text : Block) : Nat :=
  text.count 34 + text.count 92

theorem marks_append (s t : Block) : marks (s ++ t) = marks s + marks t := by
  unfold marks
  rw [List.count_append, List.count_append]
  omega

theorem marks_replicate (n : Nat) : marks (List.replicate n 92) = n := by
  unfold marks
  rw [List.count_replicate_self, List.count_replicate]
  exact Nat.zero_add n

/-- A quote that is read as a character needs a backslash or another quote. -/
theorem marks_argWords_le (quoted : Bool) (slashes : Nat) (word : Option Block) (text : Block) :
    marks (argWords quoted slashes word text).flatten ≤
      marks (word.getD []) + slashes + pairs text + text.count 92 := by
  have hword : ∀ (word : Option Block) (slashes : Nat),
      marks (word.map (· ++ List.replicate slashes 92)).toList.flatten ≤
        marks (word.getD []) + slashes := by
    intro word slashes
    cases word with
    | none => exact Nat.zero_le _
    | some word =>
      show marks (word ++ List.replicate slashes 92 ++ []) ≤ _
      rw [List.append_nil, marks_append, marks_replicate]
      exact Nat.le_refl _
  have hbefore : ∀ (word : Option Block) (slashes : Nat),
      marks (word.getD [] ++ List.replicate (slashes / 2) 92) =
        marks (word.getD []) + slashes / 2 := by
    intro word slashes
    rw [marks_append, marks_replicate]
  fun_induction argWords quoted slashes word text with
  | case1 quoted slashes word => exact (hword word slashes).trans (by omega)
  | case2 quoted slashes word rest ih =>
    have hpairs := (pairs_cons 92 rest).1
    rw [List.count_cons_self]
    rw [Option.getD_some] at ih
    omega
  | case3 quoted slashes word rest before hodd _ ih =>
    -- The backslash is lost, and the quote is read.
    have hpairs := (pairs_cons 34 rest).1
    have hquote : marks [34] = 1 := rfl
    have hmarks : marks before = marks (word.getD []) + slashes / 2 := hbefore word slashes
    rw [Option.getD_some, marks_append, hquote] at ih
    rw [List.count_cons_of_ne (by decide)]
    omega
  | case4 quoted slashes word before _ d behind hpair _ ih =>
    obtain ⟨_, rfl⟩ := hpair
    have hquote : marks [34] = 1 := rfl
    have hmarks : marks before = marks (word.getD []) + slashes / 2 := hbefore word slashes
    rw [Option.getD_some, marks_append, hquote] at ih
    rw [pairs, if_pos ⟨rfl, rfl⟩, List.count_cons_of_ne (by decide),
      List.count_cons_of_ne (by decide)]
    omega
  | case5 quoted slashes word before _ d behind _ _ ih =>
    have hpairs := (pairs_cons 34 (d :: behind)).1
    have hmarks : marks before = marks (word.getD []) + slashes / 2 := hbefore word slashes
    have hcount : List.count 92 (34 :: d :: behind) = List.count 92 (d :: behind) :=
      List.count_cons_of_ne (by decide)
    rw [Option.getD_some] at ih
    omega
  | case6 quoted slashes word before _ _ ih =>
    have hmarks : marks before = marks (word.getD []) + slashes / 2 := hbefore word slashes
    have hpairs : pairs [] = 0 := rfl
    have hcount : List.count 92 ([] : Block) = 0 := rfl
    rw [Option.getD_some] at ih
    omega
  | case7 quoted slashes word c rest hslash hquote _ ih =>
    have hfirst := hword word slashes
    have hnone : marks (Option.getD none []) = 0 := rfl
    rw [hnone] at ih
    rw [List.flatten_append, marks_append, pairs_cons_of_ne hquote, List.count_cons_of_ne hslash]
    omega
  | case8 quoted slashes word c rest hslash hquote _ ih =>
    have hc : marks [c] = 0 := by
      unfold marks
      rw [List.count_singleton, List.count_singleton, if_neg (by simpa using hquote),
        if_neg (by simpa using hslash)]
    rw [Option.getD_some, marks_append, marks_append, marks_replicate, hc] at ih
    rw [pairs_cons_of_ne hquote, List.count_cons_of_ne hslash]
    omega

/-- What is read of a word is the beginning of the next word. -/
theorem argWords_prefix (quoted : Bool) (slashes : Nat) (word text : Block) :
    ∃ more words, argWords quoted slashes (some word) text = (word ++ more) :: words := by
  generalize hword : some word = word'
  fun_induction argWords quoted slashes word' text generalizing word with
  | case1 quoted slashes =>
    subst hword
    exact ⟨List.replicate slashes 92, [], rfl⟩
  | case2 quoted slashes word' rest ih =>
    subst hword
    exact ih word rfl
  | case3 quoted slashes word' rest before _ _ ih =>
    subst hword
    obtain ⟨more, words, hwords⟩ := ih _ rfl
    refine ⟨List.replicate (slashes / 2) 92 ++ ([34] ++ more), words, ?_⟩
    rw [hwords]
    simp [before]
  | case4 quoted slashes word' before _ d behind _ _ ih =>
    subst hword
    obtain ⟨more, words, hwords⟩ := ih _ rfl
    refine ⟨List.replicate (slashes / 2) 92 ++ ([34] ++ more), words, ?_⟩
    rw [hwords]
    simp [before]
  | case5 quoted slashes word' before _ d behind _ _ ih =>
    subst hword
    obtain ⟨more, words, hwords⟩ := ih _ rfl
    refine ⟨List.replicate (slashes / 2) 92 ++ more, words, ?_⟩
    rw [hwords]
    simp [before]
  | case6 quoted slashes word' before _ _ ih =>
    subst hword
    obtain ⟨more, words, hwords⟩ := ih _ rfl
    refine ⟨List.replicate (slashes / 2) 92 ++ more, words, ?_⟩
    rw [hwords]
    simp [before]
  | case7 quoted slashes word' c rest _ _ _ ih =>
    subst hword
    exact ⟨List.replicate slashes 92, argWords false 0 none rest, rfl⟩
  | case8 quoted slashes word' c rest _ _ _ ih =>
    subst hword
    obtain ⟨more, words, hwords⟩ := ih _ rfl
    refine ⟨List.replicate slashes 92 ++ ([c] ++ more), words, ?_⟩
    rw [hwords]
    simp

/-- No argument has a quote, if the words are the arguments. -/
theorem no_quotes {args : List Block}
    (h : argWords false 0 none (args.flatMap fun arg => 32 :: strQuote arg) = args) :
    ∀ arg ∈ args, 34 ∉ arg := by
  have hmarks := marks_argWords_le false 0 none (args.flatMap fun arg => 32 :: strQuote arg)
  have hpairs := two_mul_pairs_arguments_le args
  have hnone : marks (Option.getD none []) = 0 := rfl
  rw [h, count_slashes, hnone] at hmarks
  unfold marks at hmarks
  have hzero : args.flatten.count 34 = 0 := by omega
  intro arg harg hquote
  exact List.count_eq_zero.mp hzero (List.mem_flatten_of_mem harg hquote)

/-- Of an argument in quotes whose last character is a backslash, a quote is read, or a
backslash is lost. -/
theorem argWords_quoted_last {arg rest : Block} (hquote : 34 ∉ arg)
    (hlast : arg.getLast? = some 92) (hrest : Behind rest) :
    (∃ word ∈ argWords false 0 none (34 :: arg ++ [34] ++ rest), 34 ∈ word) ∨
      ∃ word, word ≠ [] ∧ word ≠ arg ∧ argWords false 0 none (34 :: arg ++ [34] ++ rest) =
        word :: argWords false 0 none rest := by
  have hne : arg ≠ [] := by
    rintro rfl
    cases hlast
  obtain ⟨slashes, word, hread, hsame, hzero⟩ := @argWords_quoted arg rest hquote hne
  have hslashes : slashes ≠ 0 := fun h => hzero.mp h hlast
  rw [hread]
  by_cases hodd : slashes % 2 = 1
  · left
    rw [argWords_escaped hodd]
    obtain ⟨more, words, hmore⟩ := argWords_prefix true 0
      ((some word).getD [] ++ List.replicate (slashes / 2) 92 ++ [34]) rest
    rw [hmore]
    exact ⟨_, List.mem_cons_self, by simp⟩
  · right
    have hlength : (word ++ List.replicate (slashes / 2) 92).length =
        word.length + slashes / 2 := by
      rw [List.length_append, List.length_replicate]
    refine ⟨word ++ List.replicate (slashes / 2) 92, ?_, ?_, ?_⟩
    · refine List.ne_nil_of_length_pos ?_
      omega
    · intro h
      rw [h, ← hsame, List.length_append, List.length_replicate] at hlength
      omega
    · rw [argWords_toggle (by omega) fun h => hrest.head_ne h.2, Bool.not_true,
        argWords_end hrest]
      exact congrArg (· :: argWords false 0 none rest) (List.append_nil _)

/-- An argument that is not safe has a blank and ends with a backslash, if it is not empty and
has no quote. -/
theorem not_safe {arg : Block} (hne : arg ≠ []) (hquote : 34 ∉ arg) (hsafe : ¬Safe arg) :
    strQuote arg = 34 :: arg ++ [34] ∧ arg.getLast? = some 92 := by
  obtain ⟨hblank, hlast⟩ : arg.any isBlank = true ∧ arg.getLast? = some 92 := by
    by_contra h
    exact hsafe ⟨hne, hquote, h⟩
  rcases strQuote_cases hquote with ⟨_, hpassed⟩ | ⟨hnone, _⟩
  · exact ⟨hpassed, hlast⟩
  · exact absurd (hblank.symm.trans hnone) (by decide)

/-- No empty word is read of arguments without quotes, unless a quote is read. -/
theorem argWords_ne_nil {args : List Block} (hquotes : ∀ arg ∈ args, 34 ∉ arg) :
    (∃ word ∈ argWords false 0 none (args.flatMap fun arg => 32 :: strQuote arg), 34 ∈ word) ∨
      [] ∉ argWords false 0 none (args.flatMap fun arg => 32 :: strQuote arg) := by
  induction args with
  | nil => exact .inr nofun
  | cons arg args ih =>
    obtain ⟨hquote, hquotes⟩ := List.forall_mem_cons.mp hquotes
    have hrest := ih hquotes
    rw [argWords_next]
    by_cases hne : arg = []
    · subst hne
      exact hrest
    obtain hquoted | ⟨word, hword, hread⟩ :
        (∃ word ∈ argWords false 0 none
          (strQuote arg ++ args.flatMap fun arg => 32 :: strQuote arg), 34 ∈ word) ∨
        ∃ word, word ≠ [] ∧ argWords false 0 none
          (strQuote arg ++ args.flatMap fun arg => 32 :: strQuote arg) =
            word :: argWords false 0 none (args.flatMap fun arg => 32 :: strQuote arg) := by
      by_cases hsafe : Safe arg
      · exact .inr ⟨arg, hne, argWords_strQuote hsafe (behind_arguments args)⟩
      · obtain ⟨hpassed, hlast⟩ := not_safe hne hquote hsafe
        rw [hpassed]
        exact (argWords_quoted_last hquote hlast (behind_arguments args)).imp_right
          fun ⟨word, hword, _, hread⟩ => ⟨word, hword, hread⟩
    · exact .inl hquoted
    · rw [hread, List.mem_cons, not_or]
      refine hrest.imp ?_ fun hnone => ⟨Ne.symm hword, hnone⟩
      rintro ⟨other, hother, hmem⟩
      exact ⟨other, List.mem_cons_of_mem word hother, hmem⟩

/-- The words of the command line are the title and the arguments if and only if each argument
is safe. -/
theorem commandWords_eq_iff {szTitle : Block} {args : List Block} (htitle : 34 ∉ szTitle) :
    commandWords (commandLine szTitle args) = szTitle :: args ↔ ∀ arg ∈ args, Safe arg := by
  have hsplit : commandWords (commandLine szTitle args) =
      szTitle :: argWords false 0 none (args.flatMap fun arg => 32 :: strQuote arg) := by
    unfold commandWords commandLine
    rw [programName_strQuote htitle (behind_arguments args)]
  rw [hsplit, List.cons.injEq, and_iff_right rfl]
  refine ⟨fun h => ?_, argWords_arguments⟩
  have hquotes := no_quotes h
  clear hsplit
  induction args with
  | nil => exact nofun
  | cons arg args ih =>
    obtain ⟨hquote, hargs⟩ := List.forall_mem_cons.mp hquotes
    have hnone : ¬∃ word ∈ arg :: args, 34 ∈ word := by
      rintro ⟨word, hword, hmem⟩
      exact hquotes word hword hmem
    rw [argWords_next] at h
    have hne : arg ≠ [] := by
      rintro rfl
      -- Nothing is written for an empty argument, so an empty word would have to be read.
      have hempty := argWords_ne_nil hargs
      rw [show argWords false 0 none (args.flatMap fun arg => 32 :: strQuote arg) =
        [] :: args from h] at hempty
      exact hempty.elim hnone fun hnot => hnot List.mem_cons_self
    have hsafe : Safe arg := by
      by_contra hsafe
      obtain ⟨hpassed, hlast⟩ := not_safe hne hquote hsafe
      rw [hpassed] at h
      rcases argWords_quoted_last hquote hlast (behind_arguments args) with
        hquoted | ⟨word, _, hother, hread⟩
      · rw [h] at hquoted
        exact hnone hquoted
      · rw [hread] at h
        exact hother (List.cons.inj h).1
    rw [argWords_strQuote hsafe (behind_arguments args)] at h
    exact List.forall_mem_cons.mpr ⟨hsafe, ih (List.cons.inj h).2 hargs⟩

end BoundaryEventSdk.Prunsrv
