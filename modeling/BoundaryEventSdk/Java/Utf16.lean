import BoundaryEventSdk.Java.Text

/-!
# Well formed UTF-16

A list of code units is well formed when it is the encoding of characters:
every unit stands for itself or is one half of a surrogate pair, high half
first.  Java does not ask this of a `String`, and an operation that counts in
units can break it.

`wellFormed_take_iff` says when a cut breaks it: the cut of a well formed text
is well formed exactly when it does not end in a high surrogate.
-/

namespace BoundaryEventSdk.Java

/-- `Character.isHighSurrogate`. -/
def isHighSurrogate (unit : UInt16) : Bool :=
  0xD800 ≤ unit.toNat && unit.toNat ≤ 0xDBFF

/-- `Character.isLowSurrogate`. -/
def isLowSurrogate (unit : UInt16) : Bool :=
  0xDC00 ≤ unit.toNat && unit.toNat ≤ 0xDFFF

/-- Every surrogate of the text is part of a pair. -/
inductive WellFormed : JString → Prop where
  | nil : WellFormed []
  | unit {u : UInt16} {s : JString} (hhigh : isHighSurrogate u = false)
      (hlow : isLowSurrogate u = false) (hs : WellFormed s) : WellFormed (u :: s)
  | pair {high low : UInt16} {s : JString} (hhigh : isHighSurrogate high = true)
      (hlow : isLowSurrogate low = true) (hs : WellFormed s) : WellFormed (high :: low :: s)

/-- The last unit is a high surrogate, so its other half is missing. -/
def EndsHigh (s : JString) : Prop :=
  ∃ u ∈ s.getLast?, isHighSurrogate u = true

instance (s : JString) : Decidable (EndsHigh s) :=
  inferInstanceAs (Decidable (∃ u ∈ s.getLast?, _))

theorem isHighSurrogate_eq_false_of_low {u : UInt16} (h : isLowSurrogate u = true) :
    isHighSurrogate u = false := by
  simp only [isLowSurrogate, isHighSurrogate, Bool.and_eq_true, Bool.and_eq_false_iff,
    decide_eq_true_eq, decide_eq_false_iff_not] at h ⊢
  omega

theorem not_endsHigh_nil : ¬ EndsHigh [] := by
  simp [EndsHigh]

theorem endsHigh_singleton {u : UInt16} : EndsHigh [u] ↔ isHighSurrogate u = true := by
  simp [EndsHigh]

theorem endsHigh_cons_cons {u v : UInt16} {s : JString} :
    EndsHigh (u :: v :: s) ↔ EndsHigh (v :: s) := by
  rw [EndsHigh, EndsHigh, List.getLast?_cons_cons]

/-- What stands before a text that does not end high does not matter. -/
theorem endsHigh_cons_of_low {u : UInt16} {s : JString} (hu : isHighSurrogate u = false) :
    EndsHigh (u :: s) ↔ EndsHigh s := by
  cases s with
  | nil =>
    rw [endsHigh_singleton]
    exact iff_of_false (by simp [hu]) not_endsHigh_nil
  | cons v s => exact endsHigh_cons_cons

theorem WellFormed.not_endsHigh {s : JString} (h : WellFormed s) : ¬ EndsHigh s := by
  induction h with
  | nil => exact not_endsHigh_nil
  | unit hhigh _ _ ih => rwa [endsHigh_cons_of_low hhigh]
  | pair _ hlow _ ih =>
    rwa [endsHigh_cons_cons, endsHigh_cons_of_low (isHighSurrogate_eq_false_of_low hlow)]

/-- A cut of a well formed text that does not end in the first half of a pair
is well formed. -/
theorem WellFormed.take {s : JString} (h : WellFormed s) {n : Nat} (hn : ¬ EndsHigh (s.take n)) :
    WellFormed (s.take n) := by
  induction h generalizing n with
  | nil =>
    rw [List.take_nil]
    exact .nil
  | unit hhigh hlow _ ih =>
    cases n with
    | zero => exact .nil
    | succ n =>
      rw [List.take_succ_cons, endsHigh_cons_of_low hhigh] at hn
      exact .unit hhigh hlow (ih hn)
  | pair hhigh hlow _ ih =>
    match n with
    | 0 => exact .nil
    | 1 => exact absurd (endsHigh_singleton.mpr hhigh) hn
    | n + 2 =>
      rw [List.take_succ_cons, List.take_succ_cons, endsHigh_cons_cons,
        endsHigh_cons_of_low (isHighSurrogate_eq_false_of_low hlow)] at hn
      exact .pair hhigh hlow (ih hn)

theorem wellFormed_take_iff {s : JString} (h : WellFormed s) {n : Nat} :
    WellFormed (s.take n) ↔ ¬ EndsHigh (s.take n) :=
  ⟨WellFormed.not_endsHigh, h.take⟩

theorem EndsHigh.ne_nil {s : JString} (h : EndsHigh s) : s ≠ [] := by
  intro hnil
  subst hnil
  exact not_endsHigh_nil h

/-- A cut in the middle of a pair is well formed up to the half that it keeps. -/
theorem WellFormed.dropLast_take {s : JString} (h : WellFormed s) {n : Nat}
    (hn : EndsHigh (s.take n)) : WellFormed (s.take n).dropLast := by
  induction h generalizing n with
  | nil => exact absurd rfl (List.take_nil ▸ hn.ne_nil)
  | unit hhigh hlow _ ih =>
    cases n with
    | zero => exact absurd hn not_endsHigh_nil
    | succ n =>
      rw [List.take_succ_cons, endsHigh_cons_of_low hhigh] at hn
      rw [List.take_succ_cons, List.dropLast_cons_of_ne_nil hn.ne_nil]
      exact .unit hhigh hlow (ih hn)
  | pair hhigh hlow _ ih =>
    match n with
    | 0 => exact absurd hn not_endsHigh_nil
    | 1 => exact .nil
    | n + 2 =>
      rw [List.take_succ_cons, List.take_succ_cons, endsHigh_cons_cons,
        endsHigh_cons_of_low (isHighSurrogate_eq_false_of_low hlow)] at hn
      rw [List.take_succ_cons, List.take_succ_cons, List.dropLast_cons_cons,
        List.dropLast_cons_of_ne_nil hn.ne_nil]
      exact .pair hhigh hlow (ih hn)

theorem WellFormed.append {s t : JString} (hs : WellFormed s) (ht : WellFormed t) :
    WellFormed (s ++ t) := by
  induction hs with
  | nil => exact ht
  | unit hhigh hlow _ ih => exact .unit hhigh hlow ih
  | pair hhigh hlow _ ih => exact .pair hhigh hlow ih

/-- The units of one character. -/
theorem wellFormed_charUnits (c : Char) : WellFormed (charUnits c) := by
  have hvalid := c.valid
  have hnat : c.toNat < 0xD800 ∨ 0xDFFF < c.toNat ∧ c.toNat < 0x110000 := hvalid
  rw [charUnits]
  split
  · have hunit : (UInt16.ofNat c.toNat).toNat = c.toNat :=
      UInt16.toNat_ofNat_of_lt' (by rw [UInt16.size]; omega)
    refine .unit ?_ ?_ .nil
    · simp only [isHighSurrogate, hunit, Bool.and_eq_false_iff, decide_eq_false_iff_not]
      omega
    · simp only [isLowSurrogate, hunit, Bool.and_eq_false_iff, decide_eq_false_iff_not]
      omega
  · have hhigh : (UInt16.ofNat (0xD800 + (c.toNat - 0x10000) / 0x400)).toNat =
        0xD800 + (c.toNat - 0x10000) / 0x400 :=
      UInt16.toNat_ofNat_of_lt' (by rw [UInt16.size]; omega)
    have hlow : (UInt16.ofNat (0xDC00 + (c.toNat - 0x10000) % 0x400)).toNat =
        0xDC00 + (c.toNat - 0x10000) % 0x400 :=
      UInt16.toNat_ofNat_of_lt' (by rw [UInt16.size]; omega)
    refine .pair ?_ ?_ .nil
    · simp only [isHighSurrogate, hhigh, Bool.and_eq_true, decide_eq_true_eq]
      omega
    · simp only [isLowSurrogate, hlow, Bool.and_eq_true, decide_eq_true_eq]
      omega

/-- A literal of the source is well formed. -/
theorem wellFormed_utf16 (s : String) : WellFormed (utf16 s) := by
  rw [utf16]
  induction s.toList with
  | nil => exact .nil
  | cons c cs ih =>
    rw [List.flatMap_cons]
    exact (wellFormed_charUnits c).append ih

end BoundaryEventSdk.Java
