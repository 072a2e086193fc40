import Mathlib.Data.Option.Basic
import BoundaryEventSdk.Java.LinkedHashMap
import BoundaryEventSdk.Java.Text

/-!
# `BaseEvent`: truncation to the API limit

The Boundary Event API takes strings of at most 255 characters.  `BaseEvent`
holds the helper that cuts a string to that length, in four overloads: for a
string, a list, an object and a map.  The map overload truncates the values
and leaves the keys alone.

`FitsText` is what a truncated string owes to the argument it was made from,
and `truncateToMaximumLength_fits` is the only fact about the cut that the
limits of an event rest on.
-/

namespace BoundaryEventSdk.Event

open BoundaryEventSdk.Java

/-- `BaseEvent.MAXIMUM_STRING_LENGTH`. -/
def maximumStringLength : Nat := 255

/-- A property value: a string, a boxed integer, or any other object, which is
known by its identity only. -/
inductive Obj where
  | string (text : JString)
  | number (value : Int)
  | object (identity : Nat)
  deriving DecidableEq, Repr

/-- The properties of an event or a source.  Keys and values may be `null`. -/
abbrev Properties := LinkedHashMap (Option JString) (Option Obj)

/-- The cut itself: `str.substring(0, Math.min(str.length(), 255))`. -/
def truncateText (str : JString) : JString :=
  str.take (min str.length maximumStringLength)

/-- `BaseEvent.truncateToMaximumLength(String)`. -/
def truncateToMaximumLength (str : Option JString) : Option JString :=
  str.map truncateText

/-- `BaseEvent.truncateToMaximumLength(List)`, for a list that is not `null`. -/
def truncateList (array : List (Option JString)) : List (Option JString) :=
  array.map truncateToMaximumLength

/-- `BaseEvent.truncateToMaximumLength(Object)`. -/
def truncateObject : Option Obj → Option Obj
  | some (.string text) => some (.string (truncateText text))
  | obj => obj

/-- `BaseEvent.truncateToMaximumLength(Map)`, for a map that is not `null`. -/
def truncateMap (prop : Properties) : Properties :=
  prop.entries.foldl (fun truncated entry => truncated.put entry.1 (truncateObject entry.2)) .empty

/-! ## What the cut keeps -/

/-- What a stored string owes to the argument it was made from. -/
structure FitsText (stored argument : JString) : Prop where
  length_le : stored.length ≤ maximumStringLength
  isPrefix : stored <+: argument
  whole : argument.length ≤ maximumStringLength → stored = argument

/-- The same for references: both are `null`, or both are strings that fit. -/
abbrev Fits (stored argument : Option JString) : Prop := Option.Rel FitsText stored argument

theorem truncateText_fits (str : JString) : FitsText (truncateText str) str where
  length_le := by
    rw [truncateText, List.length_take]
    omega
  isPrefix := List.take_prefix _ _
  whole h := by rw [truncateText, Nat.min_eq_left h, List.take_length]

/-- A text within the limit is stored as it is, and only such a text is. -/
theorem truncateText_eq_self_iff {str : JString} :
    truncateText str = str ↔ str.length ≤ maximumStringLength := by
  constructor
  · intro h
    rw [← h]
    exact (truncateText_fits str).length_le
  · exact (truncateText_fits str).whole

theorem truncateToMaximumLength_fits (str : Option JString) :
    Fits (truncateToMaximumLength str) str := by
  cases str with
  | none => exact .none
  | some str => exact .some (truncateText_fits str)

theorem truncateList_fits (array : List (Option JString)) :
    List.Forall₂ Fits (truncateList array) array := by
  rw [truncateList, List.forall₂_map_left_iff]
  exact List.forall₂_same.mpr fun str _ => truncateToMaximumLength_fits str

theorem truncateMap_entries (prop : Properties) :
    (truncateMap prop).entries = prop.entries.map fun entry => (entry.1, truncateObject entry.2) :=
  prop.putAll_entries fun _ value => truncateObject value

/-! ## The limit on property names and values -/

/-- A property name that the API accepts. -/
def NameWithin (name : Option JString) : Prop :=
  ∀ text ∈ name, text.length ≤ maximumStringLength

/-- A property value that the API accepts: a string within the limit, or no
string. -/
def ValueWithin (value : Option Obj) : Prop :=
  ∀ text, value = some (.string text) → text.length ≤ maximumStringLength

/-- Every name and every string value of the map is within the limit. -/
def PropertiesWithin (properties : Properties) : Prop :=
  ∀ entry ∈ properties.entries, NameWithin entry.1 ∧ ValueWithin entry.2

theorem nameWithin_truncate (name : Option JString) :
    NameWithin (truncateToMaximumLength name) := by
  intro text htext
  obtain ⟨str, _, rfl⟩ := Option.map_eq_some_iff.mp htext
  exact (truncateText_fits str).length_le

theorem valueWithin_truncate (value : Option Obj) : ValueWithin (truncateObject value) := by
  intro text htext
  unfold truncateObject at htext
  split at htext
  · cases htext
    exact (truncateText_fits _).length_le
  · rename_i hother
    exact absurd htext (hother text)

/-- Truncation leaves exactly the values within the limit alone. -/
theorem truncateObject_eq_self_iff {value : Option Obj} :
    truncateObject value = value ↔ ValueWithin value := by
  constructor
  · intro h
    rw [← h]
    exact valueWithin_truncate value
  · intro h
    unfold truncateObject
    split
    · rename_i text
      rw [truncateText_eq_self_iff.mpr (h text rfl)]
    · rfl

/-- Truncation leaves exactly the names within the limit alone. -/
theorem truncateToMaximumLength_eq_self_iff {name : Option JString} :
    truncateToMaximumLength name = name ↔ NameWithin name := by
  constructor
  · intro h
    rw [← h]
    exact nameWithin_truncate name
  · intro h
    cases name with
    | none => rfl
    | some text =>
      exact congrArg some (truncateText_eq_self_iff.mpr (h text rfl))

theorem propertiesWithin_empty : PropertiesWithin .empty := by
  simp [PropertiesWithin]

theorem propertiesWithin_put {properties : Properties} {name : Option JString} {value : Option Obj}
    (h : PropertiesWithin properties) (hname : NameWithin name) (hvalue : ValueWithin value) :
    PropertiesWithin (properties.put name value) := by
  intro entry hentry
  rcases LinkedHashMap.mem_put.mp hentry with rfl | ⟨hentry, _⟩
  · exact ⟨hname, hvalue⟩
  · exact h entry hentry

theorem propertiesWithin_remove {properties : Properties} (name : Option JString)
    (h : PropertiesWithin properties) : PropertiesWithin (properties.remove name) :=
  fun entry hentry => h entry (LinkedHashMap.mem_remove.mp hentry).1

/-- The map overload leaves the names as they are, so the limit holds after it
exactly when the names were within it. -/
theorem propertiesWithin_truncateMap {properties : Properties} :
    PropertiesWithin (truncateMap properties) ↔
      ∀ entry ∈ properties.entries, NameWithin entry.1 := by
  simp only [PropertiesWithin, truncateMap_entries, List.forall_mem_map, valueWithin_truncate,
    and_true]

end BoundaryEventSdk.Event
