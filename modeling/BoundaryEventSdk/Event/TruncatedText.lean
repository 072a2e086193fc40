import BoundaryEventSdk.Event.Truncation
import BoundaryEventSdk.Java.Utf16

/-!
# What truncation does to characters

The limit of 255 counts UTF-16 units, and a character outside the basic plane
takes two.  The truncation helper is a plain cut at the limit and never looks
at the units around it, so it splits a pair that straddles the limit.

`truncation_keeps` collects what the helper does keep of a well formed text,
and says when well-formedness is part of it.
-/

namespace BoundaryEventSdk.Event

open BoundaryEventSdk.Java

/-- The last unit within the limit is the first half of a pair, whose other
half is the first unit beyond the limit. -/
def PairStraddlesLimit (s : JString) : Prop :=
  ∃ u ∈ s[maximumStringLength - 1]?, isHighSurrogate u = true

instance (s : JString) : Decidable (PairStraddlesLimit s) :=
  inferInstanceAs (Decidable (∃ u ∈ s[maximumStringLength - 1]?, _))

/-- What the cut of a text keeps. -/
structure KeepsText (stored argument : JString) : Prop extends FitsText stored argument where
  length_eq : stored.length = min argument.length maximumStringLength
  again : truncateText stored = stored
  wellFormed_iff : WellFormed stored ↔ ¬ PairStraddlesLimit argument
  halfPair : PairStraddlesLimit argument →
    EndsHigh stored ∧ WellFormed stored.dropLast

theorem truncateText_eq_take (s : JString) : truncateText s = s.take maximumStringLength := by
  rw [truncateText, List.take_eq_take_iff]
  omega

/-- A well formed text is cut after a high surrogate only where a pair
straddles the limit. -/
theorem endsHigh_truncateText {s : JString} (hs : WellFormed s) :
    EndsHigh (truncateText s) ↔ PairStraddlesLimit s := by
  have hlast : ∀ u ∈ s.getLast?, isHighSurrogate u = false := by
    intro u hu
    by_contra hhigh
    exact hs.not_endsHigh ⟨u, hu, by simpa using hhigh⟩
  rw [truncateText_eq_take, EndsHigh, PairStraddlesLimit, List.getLast?_take,
    if_neg (by decide)]
  cases hunit : s[maximumStringLength - 1]? with
  | some u => simp
  | none =>
    refine iff_of_false ?_ (by simp)
    intro hends
    obtain ⟨u, hu, hhigh⟩ := hends
    rw [hlast u hu] at hhigh
    exact absurd hhigh (by decide)

/-- The cut one unit before the limit never splits a pair that straddles it. -/
theorem wellFormed_dropLast_truncateText {s : JString} (hs : WellFormed s)
    (hpair : PairStraddlesLimit s) : WellFormed (truncateText s).dropLast := by
  have hends := (endsHigh_truncateText hs).mpr hpair
  rw [truncateText_eq_take] at hends ⊢
  exact hs.dropLast_take hends

theorem truncateText_keeps {s : JString} (hs : WellFormed s) : KeepsText (truncateText s) s where
  toFitsText := truncateText_fits s
  length_eq := by rw [truncateText_eq_take, List.length_take, Nat.min_comm]
  again := truncateText_eq_self_iff.mpr (truncateText_fits s).length_le
  wellFormed_iff := by
    rw [← endsHigh_truncateText hs, truncateText_eq_take]
    exact wellFormed_take_iff hs
  halfPair hpair :=
    ⟨(endsHigh_truncateText hs).mpr hpair, wellFormed_dropLast_truncateText hs hpair⟩

/-- The list overload keeps the length and the order, and does to each element
what the string overload does to it. -/
theorem truncateList_keeps {array : List (Option JString)}
    (harray : ∀ s, some s ∈ array → WellFormed s) :
    List.Forall₂ (Option.Rel KeepsText) (truncateList array) array := by
  rw [truncateList, List.forall₂_map_left_iff, List.forall₂_same]
  intro str hstr
  cases str with
  | none => exact .none
  | some s => exact .some (truncateText_keeps (harray s hstr))

/-- Both overloads, on well formed text. -/
theorem truncation_keeps (s : JString) (array : List (Option JString)) (hs : WellFormed s)
    (harray : ∀ t, some t ∈ array → WellFormed t) :
    Option.Rel KeepsText (truncateToMaximumLength (some s)) (some s) ∧
      List.Forall₂ (Option.Rel KeepsText) (truncateList array) array :=
  ⟨.some (truncateText_keeps hs), truncateList_keeps harray⟩

/-- 254 letters and a character outside the basic plane. -/
def pairAtLimit : JString :=
  List.replicate 254 97 ++ utf16 "😀"

theorem wellFormed_pairAtLimit : WellFormed pairAtLimit := by
  have hletters : ∀ n, WellFormed (List.replicate n 97) := by
    intro n
    induction n with
    | zero => exact .nil
    | succ n ih => exact .unit (by decide) (by decide) ih
  exact (hletters 254).append (wellFormed_utf16 _)

theorem truncation_keeps_pairAtLimit :
    Option.Rel KeepsText (truncateToMaximumLength (some pairAtLimit)) (some pairAtLimit) ∧
      List.Forall₂ (Option.Rel KeepsText) (truncateList [none, some pairAtLimit])
        [none, some pairAtLimit] :=
  truncation_keeps pairAtLimit [none, some pairAtLimit] wellFormed_pairAtLimit (by
    intro t ht
    simp only [List.mem_cons, reduceCtorEq, Option.some.injEq, List.not_mem_nil, or_false,
      false_or] at ht
    rw [ht]
    exact wellFormed_pairAtLimit)

/-- The helper does not keep text well formed: here it drops the second half of
the pair and keeps the first. -/
theorem truncation_splits_pair :
    WellFormed pairAtLimit ∧
      ¬ ∀ stored ∈ truncateToMaximumLength (some pairAtLimit), WellFormed stored := by
  refine ⟨wellFormed_pairAtLimit, ?_⟩
  intro hstored
  have hends : EndsHigh (truncateText pairAtLimit) :=
    (endsHigh_truncateText wellFormed_pairAtLimit).mpr (by decide +kernel)
  exact (hstored (truncateText pairAtLimit) rfl).not_endsHigh hends

end BoundaryEventSdk.Event
