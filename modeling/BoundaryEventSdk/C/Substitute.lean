import Mathlib.Data.List.Basic

/-!
# Substitution in a list

`substitute mch rpl s` is the list `s` with every occurrence of `mch` replaced
by `rpl`, and `occurrences mch s` the number of them.  Occurrences are found
from left to right and do not overlap.  `find` is where the first one is, and
the two cases of `find` take the other two functions apart:
`substitute_of_find_eq_some` goes on behind the first occurrence, and
`substitute_of_find_eq_none` says that there is none.
-/

namespace BoundaryEventSdk.C

variable {α : Type} [DecidableEq α]

/-- Where a list occurs in another for the first time. -/
def find (mch : List α) : List α → Option Nat
  | [] => if mch = [] then some 0 else none
  | c :: s => if mch <+: c :: s then some 0 else (find mch s).map (· + 1)

/-- The list with every occurrence of `mch` replaced by `rpl`. -/
def substitute (mch rpl : List α) : List α → List α
  | [] => []
  | c :: s =>
    if mch <+: c :: s then rpl ++ substitute mch rpl (s.drop (mch.length - 1))
    else c :: substitute mch rpl s
  termination_by s => s.length
  decreasing_by
    · rw [List.length_drop, List.length_cons]
      omega
    · exact Nat.lt_succ_self _

/-- The number of occurrences. -/
def occurrences (mch : List α) : List α → Nat
  | [] => 0
  | c :: s =>
    if mch <+: c :: s then occurrences mch (s.drop (mch.length - 1)) + 1 else occurrences mch s
  termination_by s => s.length
  decreasing_by
    · rw [List.length_drop, List.length_cons]
      omega
    · exact Nat.lt_succ_self _

variable {mch rpl s rest : List α}

/-- At an occurrence the search goes on behind it. -/
theorem substitute_append (hmch : mch ≠ []) :
    substitute mch rpl (mch ++ rest) = rpl ++ substitute mch rpl rest ∧
      occurrences mch (mch ++ rest) = occurrences mch rest + 1 := by
  cases hcons : mch ++ rest with
  | nil => exact absurd (List.append_eq_nil_iff.mp hcons).1 hmch
  | cons c s =>
    have hprefix : mch <+: c :: s := ⟨rest, hcons⟩
    have hdrop : s.drop (mch.length - 1) = rest := by
      have hpos : 0 < mch.length := List.length_pos_iff.mpr hmch
      have hrest : (c :: s).drop mch.length = rest := by
        rw [← hcons, List.drop_left]
      rwa [show mch.length = mch.length - 1 + 1 by omega, List.drop_succ_cons] at hrest
    rw [substitute, occurrences, if_pos hprefix, if_pos hprefix, hdrop]
    exact ⟨rfl, rfl⟩

theorem substitute_of_find_eq_none (hfind : find mch s = none) :
    substitute mch rpl s = s ∧ occurrences mch s = 0 := by
  induction s with
  | nil => simp [substitute, occurrences]
  | cons c s ih =>
    unfold find at hfind
    split at hfind
    · cases hfind
    · next hprefix =>
      obtain ⟨hsubstitute, hoccurrences⟩ := ih (Option.map_eq_none_iff.mp hfind)
      rw [substitute, occurrences, if_neg hprefix, if_neg hprefix, hsubstitute]
      exact ⟨rfl, hoccurrences⟩

theorem substitute_of_find_eq_some {k : Nat} (hmch : mch ≠ []) (hfind : find mch s = some k) :
    ∃ before rest, s = before ++ mch ++ rest ∧ before.length = k ∧
      substitute mch rpl s = before ++ rpl ++ substitute mch rpl rest ∧
        occurrences mch s = occurrences mch rest + 1 := by
  induction s generalizing k with
  | nil =>
    rw [find, if_neg hmch] at hfind
    cases hfind
  | cons c s ih =>
    unfold find at hfind
    split at hfind
    · next hprefix =>
      cases hfind
      obtain ⟨rest, hrest⟩ := hprefix
      obtain ⟨hsubstitute, hoccurrences⟩ := @substitute_append _ _ mch rpl rest hmch
      rw [hrest] at hsubstitute hoccurrences
      exact ⟨[], rest, hrest.symm, rfl, hsubstitute, hoccurrences⟩
    · next hprefix =>
      obtain ⟨k', hk', rfl⟩ := Option.map_eq_some_iff.mp hfind
      obtain ⟨before, rest, rfl, rfl, hsubstitute, hoccurrences⟩ := ih hk'
      refine ⟨c :: before, rest, rfl, rfl, ?_, ?_⟩
      · rw [substitute, if_neg hprefix, hsubstitute]
        rfl
      · rw [occurrences, if_neg hprefix, hoccurrences]

theorem substitute_of_find {before : List α} (hmch : mch ≠ [])
    (hfind : find mch (before ++ mch ++ rest) = some before.length) :
    substitute mch rpl (before ++ mch ++ rest) = before ++ rpl ++ substitute mch rpl rest ∧
      occurrences mch (before ++ mch ++ rest) = occurrences mch rest + 1 := by
  obtain ⟨before', rest', heq, hlength, hsubstitute, hoccurrences⟩ :=
    @substitute_of_find_eq_some _ _ mch rpl _ _ hmch hfind
  rw [List.append_assoc, List.append_assoc] at heq
  obtain ⟨rfl, hrest⟩ := List.append_inj heq hlength.symm
  rw [List.append_cancel_left hrest]
  rw [List.append_cancel_left hrest] at hsubstitute hoccurrences
  exact ⟨hsubstitute, hoccurrences⟩

/-- A rule of induction: from behind the first occurrence to the whole list. -/
theorem find_induction (hmch : mch ≠ []) {P : List α → Prop}
    (hnone : ∀ s, find mch s = none → P s)
    (hsome : ∀ before rest, find mch (before ++ mch ++ rest) = some before.length → P rest →
      P (before ++ mch ++ rest)) (s : List α) : P s := by
  induction hn : s.length using Nat.strongRecOn generalizing s with
  | ind n ih =>
    cases hfind : find mch s with
    | none => exact hnone s hfind
    | some k =>
      obtain ⟨before, rest, rfl, rfl, _, _⟩ := @substitute_of_find_eq_some _ _ mch [] s k hmch hfind
      have hpos : 0 < mch.length := List.length_pos_iff.mpr hmch
      refine hsome before rest hfind (ih rest.length ?_ rest rfl)
      simp only [List.length_append] at hn
      omega

theorem length_substitute (hmch : mch ≠ []) (s : List α) :
    ((substitute mch rpl s).length : Int) =
      s.length + (rpl.length - mch.length) * occurrences mch s := by
  induction s using find_induction hmch with
  | hnone s hfind =>
    obtain ⟨hsubstitute, hoccurrences⟩ := @substitute_of_find_eq_none _ _ mch rpl s hfind
    rw [hsubstitute, hoccurrences, Int.natCast_zero, Int.mul_zero, Int.add_zero]
  | hsome before rest hfind ih =>
    obtain ⟨hsubstitute, hoccurrences⟩ := @substitute_of_find _ _ mch rpl rest before hmch hfind
    rw [hsubstitute, hoccurrences]
    simp only [List.length_append, Int.natCast_add, ih, Int.natCast_one, Int.mul_add, Int.mul_one]
    omega

theorem substitute_of_occurrences_eq_zero (hmch : mch ≠ []) (h : occurrences mch s = 0) :
    substitute mch rpl s = s := by
  cases hfind : find mch s with
  | none => exact (substitute_of_find_eq_none hfind).1
  | some k =>
    obtain ⟨_, _, _, _, _, hoccurrences⟩ := @substitute_of_find_eq_some _ _ mch rpl s k hmch hfind
    omega

theorem length_le_substitute (hmch : mch ≠ []) (h : mch.length ≤ rpl.length) (s : List α) :
    s.length ≤ (substitute mch rpl s).length := by
  have hlength := @length_substitute _ _ mch rpl hmch s
  have hgrows : 0 ≤ ((rpl.length : Int) - mch.length) * occurrences mch s :=
    Int.mul_nonneg (by omega) (Int.natCast_nonneg _)
  omega

/-- There is room for each occurrence. -/
theorem occurrences_mul_le (hmch : mch ≠ []) (s : List α) :
    occurrences mch s * mch.length ≤ s.length := by
  induction s using find_induction hmch with
  | hnone s hfind =>
    rw [(@substitute_of_find_eq_none _ _ mch [] s hfind).2, Nat.zero_mul]
    exact Nat.zero_le _
  | hsome before rest hfind ih =>
    rw [(@substitute_of_find _ _ mch [] rest before hmch hfind).2, Nat.add_mul, Nat.one_mul]
    simp only [List.length_append]
    omega

theorem not_mem_substitute {c : α} (hmch : mch ≠ []) (hrpl : c ∉ rpl) {s : List α} (hs : c ∉ s) :
    c ∉ substitute mch rpl s := by
  induction s using find_induction hmch with
  | hnone s hfind =>
    rw [(@substitute_of_find_eq_none _ _ mch rpl s hfind).1]
    exact hs
  | hsome before rest hfind ih =>
    rw [(@substitute_of_find _ _ mch rpl rest before hmch hfind).1]
    simp only [List.mem_append, not_or] at hs ⊢
    exact ⟨⟨hs.1.1, hrpl⟩, ih hs.2⟩

end BoundaryEventSdk.C
