import BoundaryEventSdk.Java.Words
import BoundaryEventSdk.Snmp.ExportAgreement

/-!
# The texts of an exported metric

A metric definition has a short display name and a description, both made from
texts of a MIB.  Descriptions in a MIB are set in paragraphs, with newlines and
indentation of any length.

`oidToDescription` makes each newline a blank and replaces two blanks by one, in
one pass from the left.  The pass halves a run of blanks, and so it leaves a
double blank exactly where the run had three blanks or more
(`doubleBlank_replaceDoubleBlanks`).  The words of the text are kept in any
case (`words_oidToDescription`).
-/

namespace BoundaryEventSdk.Snmp

open BoundaryEventSdk.Java

/-- The blank that a newline is replaced by. -/
def newlineToBlank (unit : UInt16) : UInt16 :=
  if unit = 10 then 32 else unit

theorem oidToDescription_eq (description : JString) :
    oidToDescription description = replaceDoubleBlanks (description.map newlineToBlank) := rfl

/-- Two blanks in a row. -/
def DoubleBlank (s : JString) : Prop :=
  [32, 32] <:+: s

instance (s : JString) : Decidable (DoubleBlank s) :=
  inferInstanceAs (Decidable ([32, 32] <:+: s))

/-- Three units in a row that are blanks or newlines. -/
def LongGap (s : JString) : Prop :=
  [32, 32, 32] <:+: s.map newlineToBlank

instance (s : JString) : Decidable (LongGap s) :=
  inferInstanceAs (Decidable ([32, 32, 32] <:+: s.map newlineToBlank))

/-! ## One pass over the blanks -/

/-- The pass keeps the first unit. -/
theorem singleton_prefix_replaceDoubleBlanks {unit : UInt16} (s : JString) :
    [unit] <+: replaceDoubleBlanks s ↔ [unit] <+: s := by
  fun_cases replaceDoubleBlanks s with
  | case1 rest => simp [List.cons_prefix_cons]
  | case2 first rest hnot => simp [List.cons_prefix_cons]
  | case3 => rfl

/-- A unit that does not start a double blank starts no run of blanks. -/
theorem not_startsBlanks {first : UInt16} {s : JString}
    (h : ∀ rest, first = 32 → s = 32 :: rest → False) (blanks : JString) :
    ¬ 32 :: 32 :: blanks <+: first :: s := by
  intro hprefix
  obtain ⟨hfirst, rest, hrest⟩ := List.cons_prefix_cons.mp hprefix
  exact h (blanks ++ rest) hfirst.symm hrest.symm

/-- A double blank comes out where three blanks went in. -/
theorem doubleBlank_replaceDoubleBlanks (s : JString) :
    DoubleBlank (replaceDoubleBlanks s) ↔ [32, 32, 32] <:+: s := by
  fun_induction replaceDoubleBlanks s with
  | case1 rest ih =>
    have hlonger : [32, 32] <+: rest → [32] <+: rest := (List.prefix_append [32] [32]).trans
    have hdone : DoubleBlank (32 :: replaceDoubleBlanks rest) ↔
        [32] <+: rest ∨ [32, 32, 32] <:+: rest := by
      rw [← ih, DoubleBlank, List.infix_cons_iff, List.cons_prefix_cons,
        singleton_prefix_replaceDoubleBlanks, DoubleBlank]
      simp only [true_and]
    rw [hdone, List.infix_cons_iff, List.infix_cons_iff]
    simp only [List.cons_prefix_cons, true_and]
    grind
  | case2 first rest hnot ih =>
    have hnext : ∀ next, first = 32 → replaceDoubleBlanks rest = 32 :: next → False := by
      intro next hfirst hhead
      have hprefix : [32] <+: rest := by
        rw [← singleton_prefix_replaceDoubleBlanks, hhead]
        exact List.prefix_append [32] next
      obtain ⟨rest', hrest'⟩ := hprefix
      exact hnot rest' hfirst hrest'.symm
    have hinput : [32, 32, 32] <:+: first :: rest ↔
        [32, 32, 32] <+: first :: rest ∨ [32, 32, 32] <:+: rest := List.infix_cons_iff
    rw [hinput, or_iff_right (not_startsBlanks hnot [32]), ← ih, DoubleBlank,
      List.infix_cons_iff, or_iff_right (not_startsBlanks hnext []), DoubleBlank]
  | case3 => simp [DoubleBlank]

theorem replaceDoubleBlanks_length_le (s : JString) :
    (replaceDoubleBlanks s).length ≤ s.length := by
  fun_induction replaceDoubleBlanks s with
  | case1 rest ih =>
    simp only [List.length_cons]
    omega
  | case2 first rest hnot ih =>
    simp only [List.length_cons]
    omega
  | case3 => exact Nat.le_refl 0

/-- The pass has nothing to do exactly when there is no double blank. -/
theorem replaceDoubleBlanks_eq_self_iff (s : JString) :
    replaceDoubleBlanks s = s ↔ ¬ DoubleBlank s := by
  fun_induction replaceDoubleBlanks s with
  | case1 rest ih =>
    refine iff_of_false ?_ (not_not_intro (List.prefix_append [32, 32] rest).isInfix)
    intro h
    have hlength := congrArg List.length h
    have hle := replaceDoubleBlanks_length_le rest
    simp only [List.length_cons] at hlength
    omega
  | case2 first rest hnot ih =>
    rw [List.cons_inj_right, ih, DoubleBlank, DoubleBlank, List.infix_cons_iff,
      or_iff_right (not_startsBlanks hnot [])]
  | case3 => simp [DoubleBlank]

theorem not_mem_replaceDoubleBlanks {unit : UInt16} {s : JString} (h : unit ∉ s) :
    unit ∉ replaceDoubleBlanks s := by
  fun_induction replaceDoubleBlanks s with
  | case1 rest ih =>
    simp only [List.mem_cons, not_or] at h ⊢
    exact ⟨h.1, ih h.2.2⟩
  | case2 first rest hnot ih =>
    simp only [List.mem_cons, not_or] at h ⊢
    exact ⟨h.1, ih h.2⟩
  | case3 => exact h

/-- The pass moves no letter from one word to another.  The induction carries
what stands before the rest of the text, as that may end in half a word. -/
theorem words_append_replaceDoubleBlanks {p : UInt16 → Bool} (hblank : p 32 = true)
    (front s : JString) : words p (front ++ replaceDoubleBlanks s) = words p (front ++ s) := by
  fun_induction replaceDoubleBlanks s generalizing front with
  | case1 rest ih =>
    rw [words_append_separator hblank, words_append_separator hblank,
      words_cons_separator hblank]
    exact congrArg (words p front ++ ·) (ih [])
  | case2 first rest hnot ih =>
    have hrest := ih (front ++ [first])
    rwa [List.append_assoc, List.append_assoc] at hrest
  | case3 => rfl

/-! ## The description -/

/-- The white space of a regular expression. -/
def isSpace (unit : UInt16) : Bool :=
  unit == 32 || 9 ≤ unit.toNat && unit.toNat ≤ 13

theorem not_mem_map_newlineToBlank (description : JString) :
    10 ∉ description.map newlineToBlank := by
  intro hmem
  obtain ⟨unit, _, hunit⟩ := List.mem_map.mp hmem
  by_cases hnewline : unit = 10
  · rw [newlineToBlank, if_pos hnewline] at hunit
    exact absurd hunit (by decide)
  · rw [newlineToBlank, if_neg hnewline] at hunit
    exact hnewline hunit

theorem map_newlineToBlank_eq_self {s : JString} (h : 10 ∉ s) : s.map newlineToBlank = s := by
  refine (List.map_congr_left fun unit hunit => ?_).trans (List.map_id s)
  refine if_neg fun hnewline => h ?_
  rwa [← hnewline]

theorem newline_not_mem_oidToDescription (description : JString) :
    10 ∉ oidToDescription description :=
  not_mem_replaceDoubleBlanks (not_mem_map_newlineToBlank description)

theorem doubleBlank_oidToDescription (description : JString) :
    DoubleBlank (oidToDescription description) ↔ LongGap description :=
  doubleBlank_replaceDoubleBlanks _

/-- A second normalisation changes the text exactly when the first one left a
double blank. -/
theorem oidToDescription_idempotent_iff (description : JString) :
    oidToDescription (oidToDescription description) = oidToDescription description ↔
      ¬ LongGap description := by
  have hnewline := newline_not_mem_oidToDescription description
  rw [← doubleBlank_oidToDescription, ← replaceDoubleBlanks_eq_self_iff,
    oidToDescription_eq (oidToDescription description), map_newlineToBlank_eq_self hnewline]

theorem words_oidToDescription (description : JString) :
    words isSpace (oidToDescription description) = words isSpace description := by
  have hmap := words_append_map (p := isSpace) (f := newlineToBlank) (fun unit => ?_)
    (fun unit hunit => ?_) [] description
  · exact (words_append_replaceDoubleBlanks rfl [] _).trans hmap
  · by_cases hnewline : unit = 10
    · rw [hnewline]
      rfl
    · rw [newlineToBlank, if_neg hnewline]
  · refine if_neg fun hnewline => ?_
    rw [hnewline] at hunit
    exact absurd hunit (by decide)

/-! ## The definition of an exported object -/

/-- The longest short display name: `SHORT_DISPLAY_NAME_MAX_INDEX` is the last
index of such a name. -/
def shortDisplayNameLimit : Nat := 20

/-- The texts of the definition are normalised texts of the object. -/
structure NormalisedTexts (object : MibObject) (definition : MetricDefinition) : Prop where
  shortName_starts : definition.displayNameShort <+: object.objectName
  shortName_length : definition.displayNameShort.length ≤ shortDisplayNameLimit
  oneLine : 10 ∉ definition.description
  singleBlanks : ¬ DoubleBlank definition.description
  idempotent : oidToDescription definition.description = definition.description
  words_eq : words isSpace definition.description = words isSpace object.description
  isDescription : definition.description = oidToDescription object.description

/-- The object adds one definition, and its texts are normalised. -/
def AddsNormalised (toUpperUnderscore : JString → UInt16 → JString)
    (list : List MetricDefinition) (smiModule : SmiModule) (object : MibObject) : Prop :=
  ∃ definition,
    (mibToMetricDefinition toUpperUnderscore).transform list smiModule object =
        .ok (list ++ [definition]) ∧
      NormalisedTexts object definition

/-- What `transform` does with an object that passes the filter. -/
theorem mibToMetricDefinition_transform (toUpperUnderscore : JString → UInt16 → JString)
    (list : List MetricDefinition) (smiModule : SmiModule) {object : MibObject}
    (hexported : exported object = true) :
    (mibToMetricDefinition toUpperUnderscore).transform list smiModule object =
      if object.objectName = [] then .error .stringIndexOutOfBounds
      else .ok (list ++ [{
        name := oidToMetricId toUpperUnderscore smiModule.moduleName object.objectName
        displayName := oidToDisplayName smiModule.moduleName object.objectName
        displayNameShort := object.objectName
        description := oidToDescription object.description
        defaultResolutionMS := 5000
        defaultAggregate := utf16 "avg"
        unit := utf16 "number" }]) := by
  rw [mibToMetricDefinition]
  simp only [if_pos hexported, oidToShortDisplayName_eq]
  split
  · rfl
  · rfl

/-- The texts are normalised exactly when the name has 1 to 20 units, as it is
never shortened, and the description has no gap that one pass cannot close. -/
theorem addsNormalised_iff (toUpperUnderscore : JString → UInt16 → JString)
    (list : List MetricDefinition) (smiModule : SmiModule) (object : MibObject)
    (hexported : exported object = true) :
    AddsNormalised toUpperUnderscore list smiModule object ↔
      object.objectName ≠ [] ∧ object.objectName.length ≤ shortDisplayNameLimit ∧
        ¬ LongGap object.description := by
  rw [AddsNormalised, mibToMetricDefinition_transform _ _ _ hexported]
  constructor
  · intro hadds
    obtain ⟨definition, htransform, htexts⟩ := hadds
    split at htransform
    · cases htransform
    rename_i hname
    have hdefinition := List.append_cancel_left (Except.ok.inj htransform)
    have hlength := htexts.shortName_length
    have hgap := htexts.singleBlanks
    rw [← List.singleton_inj.mp hdefinition] at hlength hgap
    exact ⟨hname, hlength, fun h => hgap ((doubleBlank_oidToDescription _).mpr h)⟩
  · intro hcondition
    obtain ⟨hname, hlength, hgap⟩ := hcondition
    rw [if_neg hname]
    refine ⟨_, rfl, ?_⟩
    exact {
      shortName_starts := List.prefix_rfl
      shortName_length := hlength
      oneLine := newline_not_mem_oidToDescription object.description
      singleBlanks := fun h => hgap ((doubleBlank_oidToDescription _).mp h)
      idempotent := (oidToDescription_idempotent_iff object.description).mpr hgap
      words_eq := words_oidToDescription object.description
      isDescription := rfl }

/-- A scalar of `SNMP-FRAMEWORK-MIB`, with its description. -/
def snmpEngineObject (objectName description : String) : MibObject where
  objectName := utf16 objectName
  type := .OBJECT_TYPE_SCALAR
  oid := some [1, 3, 6, 1, 6, 3, 10, 2, 1, 3, 0]
  smiSyntax := .SYNTAX_INTEGER32
  description := utf16 description

theorem addsNormalised_snmpEngineTime :
    AddsNormalised (fun name _ => name) [] ⟨utf16 "SNMP-FRAMEWORK-MIB", []⟩
      (snmpEngineObject "snmpEngineTime" "The number of\nseconds since") :=
  (addsNormalised_iff (fun name _ => name) [] ⟨utf16 "SNMP-FRAMEWORK-MIB", []⟩
    (snmpEngineObject "snmpEngineTime" "The number of\nseconds since") (by decide +kernel)).mpr
      ⟨by decide +kernel, by decide +kernel, by decide +kernel⟩

/-- A name of 24 letters is the short name too. -/
theorem not_addsNormalised_snmpEngineMaxMessageSize :
    ¬ AddsNormalised (fun name _ => name) [] ⟨utf16 "SNMP-FRAMEWORK-MIB", []⟩
      (snmpEngineObject "snmpEngineMaxMessageSize" "The maximum length") := by
  intro hadds
  obtain ⟨definition, htransform, htexts⟩ := hadds
  have hlength := htexts.shortName_length
  rw [mibToMetricDefinition_transform _ _ _ (by decide +kernel),
    if_neg (by decide +kernel)] at htransform
  have hdefinition := List.append_cancel_left (Except.ok.inj htransform)
  rw [← List.singleton_inj.mp hdefinition] at hlength
  exact absurd hlength (by decide +kernel)

end BoundaryEventSdk.Snmp
