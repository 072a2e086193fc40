import Mathlib.Data.List.Forall2

/-!
# Objects and references

A heap of objects of one class is the list of the objects in the order of
their creation, and a reference is a position in it.  A new object goes to the
end, so a reference stays valid, and a method call overwrites the object at its
position.

`forall_mem_alloc` and `forall_mem_write` keep a property of all objects, and
`write_eq_self_iff` says when a write has no effect.  The
other lemmas are about two heaps that hold related objects at the same
positions: `related_alloc` and `related_write` keep the relation, and
`Related.lookup` uses it.
-/

namespace BoundaryEventSdk.Java

variable {α β : Type}

/-- A reference to an object: its position in the heap. -/
abbrev Ref := Nat

theorem forall_mem_alloc {P : α → Prop} {heap : List α} {a : α} (h : ∀ b ∈ heap, P b) (ha : P a) :
    ∀ b ∈ heap ++ [a], P b :=
  List.forall_mem_append.mpr ⟨h, List.forall_mem_singleton.mpr ha⟩

theorem forall_mem_write {P : α → Prop} {heap : List α} {a : α} (h : ∀ b ∈ heap, P b) (ha : P a)
    (ref : Ref) : ∀ b ∈ heap.set ref a, P b := by
  intro b hb
  rcases List.mem_or_eq_of_mem_set hb with hb | rfl
  · exact h b hb
  · exact ha

/-- A write changes the heap unless it puts back what is there. -/
theorem write_eq_self_iff {heap : List α} {ref : Ref} {a b : α} (h : heap[ref]? = some a) :
    heap.set ref b = heap ↔ b = a := by
  obtain ⟨href, ha⟩ := List.getElem?_eq_some_iff.mp h
  constructor
  · intro hset
    have hread := congrArg (fun heap => heap[ref]?) hset
    rw [List.getElem?_set_self href, h] at hread
    exact Option.some.inj hread
  · intro hb
    rw [hb, ← ha]
    exact List.set_getElem_self href

/-- Two heaps with related objects at the same positions. -/
abbrev Related (R : α → β → Prop) (heap : List α) (shadow : List β) : Prop :=
  List.Forall₂ R heap shadow

theorem related_alloc {R : α → β → Prop} {heap : List α} {shadow : List β} {a : α} {b : β}
    (h : Related R heap shadow) (hab : R a b) : Related R (heap ++ [a]) (shadow ++ [b]) :=
  List.rel_append h (.cons hab .nil)

theorem related_write {R : α → β → Prop} {heap : List α} {shadow : List β} {a : α} {b : β}
    (h : Related R heap shadow) (hab : R a b) (ref : Ref) :
    Related R (heap.set ref a) (shadow.set ref b) := by
  induction h generalizing ref with
  | nil => exact .nil
  | cons hhead htail ih =>
    cases ref with
    | zero => exact .cons hab htail
    | succ ref => exact .cons hhead (ih ref)

/-- A write to one heap keeps the relation when the new object is related to
the one at the same position of the other. -/
theorem related_write_left {R : α → β → Prop} {heap : List α} {shadow : List β} {a : α}
    (h : Related R heap shadow) {ref : Ref} (hab : ∀ b, shadow[ref]? = some b → R a b) :
    Related R (heap.set ref a) shadow := by
  induction h generalizing ref with
  | nil => exact .nil
  | cons hhead htail ih =>
    cases ref with
    | zero => exact .cons (hab _ rfl) htail
    | succ ref => exact .cons hhead (ih fun b hb => hab b hb)

/-- A reference that is valid in one heap is valid in the other. -/
theorem Related.lookup {R : α → β → Prop} {heap : List α} {shadow : List β}
    (h : Related R heap shadow) {ref : Ref} {a : α} (ha : heap[ref]? = some a) :
    ∃ b, shadow[ref]? = some b ∧ R a b := by
  induction h generalizing ref with
  | nil => simp at ha
  | cons hhead htail ih =>
    cases ref with
    | zero =>
      rw [List.getElem?_cons_zero] at ha
      cases ha
      exact ⟨_, rfl, hhead⟩
    | succ ref =>
      rw [List.getElem?_cons_succ] at ha
      exact ih ha

theorem Related.lookup_none {R : α → β → Prop} {heap : List α} {shadow : List β}
    (h : Related R heap shadow) {ref : Ref} (hnone : heap[ref]? = none) : shadow[ref]? = none := by
  rw [List.getElem?_eq_none_iff] at hnone ⊢
  rw [← h.length_eq]
  exact hnone

/-- Dropping the first occurrence of an element from related lists, in both at
the position where it stands in the first. -/
theorem related_erase [BEq α] [LawfulBEq α] {R : α → β → Prop} {heap : List α} {shadow : List β}
    (h : Related R heap shadow) (a : α) :
    Related R (heap.erase a) (shadow.eraseIdx (heap.idxOf a)) := by
  induction h with
  | nil => exact .nil
  | @cons b c heap shadow hhead htail ih =>
    by_cases hba : b = a
    · simpa [hba] using htail
    · rw [List.erase_cons_tail (by simpa using hba), List.idxOf_cons_ne _ hba]
      exact .cons hhead ih

end BoundaryEventSdk.Java
