import Mathlib.Data.List.Basic

/-!
# Multi-strings

Several strings in one block: each string is followed by a terminator, and the
last one by a second terminator.  So no string of a block is empty; an empty
string ends the block.

`Encodes` says which strings a block has, and nothing of what is behind the end of
the strings.  `encodes_encodeStrings` writes a block, and `encodes_parts` reads parts that are
put one after the other, of which an empty one hides those behind it.
-/

namespace BoundaryEventSdk.C

variable {α : Type} {z : α}

/-- Each string with its terminator. -/
def encodeStrings (z : α) (strings : List (List α)) : List α :=
  strings.flatMap fun s => s ++ [z]

theorem encodeStrings_cons (s : List α) (strings : List (List α)) :
    encodeStrings z (s :: strings) = s ++ z :: encodeStrings z strings := by
  show s ++ [z] ++ encodeStrings z strings = _
  rw [List.append_assoc]
  rfl

theorem encodeStrings_append (strings more : List (List α)) :
    encodeStrings z (strings ++ more) = encodeStrings z strings ++ encodeStrings z more :=
  List.flatMap_append

/-- The block begins with the strings and an empty one. -/
structure Encodes (z : α) (block : List α) (strings : List (List α)) : Prop where
  proper : ∀ s ∈ strings, s ≠ [] ∧ z ∉ s
  begins : ∃ rest, block = encodeStrings z strings ++ z :: rest

theorem encodes_encodeStrings {strings : List (List α)} (h : ∀ s ∈ strings, s ≠ [] ∧ z ∉ s)
    (rest : List α) : Encodes z (encodeStrings z strings ++ z :: rest) strings :=
  ⟨h, rest, rfl⟩

theorem encodes_nil (rest : List α) : Encodes z (z :: rest) [] :=
  ⟨nofun, rest, rfl⟩

theorem Encodes.cons {s block : List α} {strings : List (List α)} (h : Encodes z block strings)
    (hne : s ≠ []) (hz : z ∉ s) : Encodes z (s ++ z :: block) (s :: strings) := by
  obtain ⟨rest, rfl⟩ := h.begins
  refine ⟨List.forall_mem_cons.mpr ⟨⟨hne, hz⟩, h.proper⟩, rest, ?_⟩
  rw [encodeStrings_cons, List.append_assoc]
  rfl

/-- A part of a list has no separator, and only what the list has. -/
theorem of_mem_splitOn [DecidableEq α] {xs part : List α} (h : part ∈ xs.splitOn z) :
    z ∉ part ∧ ∀ c ∈ part, c ∈ xs := by
  induction xs generalizing part with
  | nil =>
    rw [List.splitOn_nil, List.mem_singleton] at h
    subst h
    exact ⟨List.not_mem_nil, nofun⟩
  | cons x xs ih =>
    have htail : ∀ part ∈ xs.splitOn z, z ∉ part ∧ ∀ c ∈ part, c ∈ x :: xs :=
      fun part hpart => ⟨(ih hpart).1, fun c hc => List.mem_cons_of_mem x ((ih hpart).2 c hc)⟩
    rw [List.splitOn_cons_eq_if_modifyHead] at h
    split_ifs at h with hx
    · rcases List.mem_cons.mp h with rfl | h
      · exact ⟨List.not_mem_nil, nofun⟩
      · exact htail part h
    · cases hsplit : xs.splitOn z with
      | nil => exact absurd hsplit (List.splitOn_ne_nil z xs)
      | cons first parts =>
        rw [hsplit] at h htail
        rcases List.mem_cons.mp h with rfl | h
        · obtain ⟨hz, hmem⟩ := htail first List.mem_cons_self
          refine ⟨fun h => ?_, fun c hc => ?_⟩
          · rcases List.mem_cons.mp h with rfl | h
            · exact hx (beq_self_eq_true z)
            · exact hz h
          · rcases List.mem_cons.mp hc with rfl | hc
            · exact List.mem_cons_self
            · exact hmem c hc
        · exact htail part (List.mem_cons_of_mem first h)

/-- Parts that are put one after the other: an empty one is the end. -/
theorem encodes_parts {parts : List (List α)} (hz : ∀ part ∈ parts, z ∉ part) (rest : List α) :
    Encodes z (encodeStrings z parts ++ z :: rest)
      (parts.takeWhile fun part => !part.isEmpty) := by
  induction parts with
  | nil => exact encodes_nil rest
  | cons part parts ih =>
    have hpart := hz part List.mem_cons_self
    rw [encodeStrings_cons]
    cases part with
    | nil =>
      rw [List.takeWhile_cons_of_neg (by simp)]
      exact encodes_nil _
    | cons c part =>
      rw [List.takeWhile_cons_of_pos rfl, List.append_assoc]
      exact (ih fun part hmem => hz part (List.mem_cons_of_mem _ hmem)).cons
        (List.cons_ne_nil c part) hpart

/-- Parts with a terminator between two of them. -/
theorem intercalate_append {parts : List (List α)} (hparts : parts ≠ []) :
    [z].intercalate parts ++ [z] = encodeStrings z parts := by
  induction parts with
  | nil => exact absurd rfl hparts
  | cons part parts ih =>
    rw [encodeStrings_cons]
    cases parts with
    | nil =>
      rw [List.intercalate_singleton]
      rfl
    | cons next parts =>
      rw [List.intercalate_cons_cons, List.append_assoc, List.append_assoc,
        ih (List.cons_ne_nil next parts)]
      rfl

theorem encodeStrings_splitOn [DecidableEq α] (xs : List α) :
    encodeStrings z (xs.splitOn z) = xs ++ [z] := by
  rw [← intercalate_append (List.splitOn_ne_nil z xs), List.intercalate_splitOn]

theorem encodeStrings_replicate_nil (n : Nat) :
    encodeStrings z (List.replicate n []) = List.replicate n z := by
  induction n with
  | zero => rfl
  | succ n ih =>
    rw [List.replicate_succ, List.replicate_succ, encodeStrings_cons, ih]
    rfl

end BoundaryEventSdk.C
