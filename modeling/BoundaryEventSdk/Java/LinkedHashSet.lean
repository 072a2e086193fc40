import Mathlib.Data.List.Induction

/-!
# `java.util.LinkedHashSet`

The set keeps its elements in insertion order and finds an element through
the hash it had when it was added.  That stored hash matters for elements that
change while they are in the set: a lookup compares the hash of the argument
now with the hash of the member then, and only after that calls `equals`.  So
a member is modelled as a pair of the stored hash and the element, and `add`
takes the two functions as they read the heap at the time of the call.

`addAll_elements` is the rule the model uses: where equal elements have equal
hashes, and no member changed after it was added, a sequence of `add` calls
leaves the first occurrences, `List.eraseDupsBy` of the sequence.
-/

namespace BoundaryEventSdk.Java

variable {α κ : Type}

/-- A member of the set: the hash stored when it was added, and the element. -/
structure Member (α : Type) where
  hash : UInt32
  element : α
  deriving DecidableEq, Repr

/-- The members in insertion order. -/
abbrev LinkedHashSet (α : Type) := List (Member α)

namespace LinkedHashSet

/-- Whether the set finds an element equal to `a`. -/
def contains (hash : α → UInt32) (equals : α → α → Bool) (set : LinkedHashSet α) (a : α) : Bool :=
  set.any fun m => m.hash == hash a && equals a m.element

/-- `LinkedHashSet.add`: an element that is found changes nothing, any other
is appended under its present hash. -/
def add (hash : α → UInt32) (equals : α → α → Bool) (set : LinkedHashSet α) (a : α) :
    LinkedHashSet α :=
  if contains hash equals set a then set else set ++ [⟨hash a, a⟩]

/-- `ArrayList.addAll` of the set: its elements in iteration order. -/
def toList (set : LinkedHashSet α) : List α :=
  set.map Member.element

/-- The members stand under the hash that `hash` gives them now. -/
def Fresh (hash : α → UInt32) (set : LinkedHashSet α) : Prop :=
  ∀ m ∈ set, m.hash = hash m.element

@[simp] theorem toList_nil : toList ([] : LinkedHashSet α) = [] := rfl

/-- Two tests that agree on the members answer alike. -/
theorem any_eq_of_forall_mem {as : List α} {p q : α → Bool} (h : ∀ a ∈ as, p a = q a) :
    as.any p = as.any q := by
  induction as with
  | nil => rfl
  | cons a as ih =>
    rw [List.any_cons, List.any_cons, h a List.mem_cons_self,
      ih fun b hb => h b (List.mem_cons_of_mem a hb)]

theorem fresh_nil (hash : α → UInt32) : Fresh hash [] := by
  simp [Fresh]

/-- The set depends on the two functions only at its members and at the
argument. -/
theorem add_congr {hash hash' : α → UInt32} {equals equals' : α → α → Bool}
    {set : LinkedHashSet α} {a : α} (hhash : hash a = hash' a)
    (heq : ∀ m ∈ set, equals a m.element = equals' a m.element) :
    add hash equals set a = add hash' equals' set a := by
  have hany : contains hash equals set a = contains hash' equals' set a := by
    unfold contains
    apply any_eq_of_forall_mem
    intro m hm
    rw [hhash, heq m hm]
  rw [add, add, hany, hhash]

section Consistent

variable {hash : α → UInt32} {equals : α → α → Bool}

/-- Where equal elements have equal hashes, the hash does not decide a lookup
among fresh members. -/
theorem contains_eq_any (hconsistent : ∀ a b, equals a b = true → hash a = hash b)
    {set : LinkedHashSet α} (hfresh : Fresh hash set) (a : α) :
    contains hash equals set a = set.toList.any (equals a) := by
  rw [contains, toList, List.any_map]
  apply any_eq_of_forall_mem
  intro m hm
  cases he : equals a m.element with
  | false => simp [he]
  | true => simp [he, hfresh m hm, hconsistent a m.element he]

theorem fresh_add {set : LinkedHashSet α} (hfresh : Fresh hash set) (a : α) :
    Fresh hash (add hash equals set a) := by
  unfold add
  split
  · exact hfresh
  · intro m hm
    rcases List.mem_append.mp hm with hm | hm
    · exact hfresh m hm
    · rw [List.mem_singleton.mp hm]

theorem toList_add (hconsistent : ∀ a b, equals a b = true → hash a = hash b)
    {set : LinkedHashSet α} (hfresh : Fresh hash set) (a : α) :
    (add hash equals set a).toList =
      if set.toList.any (equals a) then set.toList else set.toList ++ [a] := by
  rw [add, contains_eq_any hconsistent hfresh]
  split
  · rfl
  · simp [toList]

private theorem addAll_loop (hconsistent : ∀ a b, equals a b = true → hash a = hash b)
    (as : List α) (set : LinkedHashSet α) (hfresh : Fresh hash set) :
    (as.foldl (add hash equals) set).toList =
      List.eraseDupsBy.loop equals as set.toList.reverse := by
  induction as generalizing set with
  | nil => simp [List.eraseDupsBy.loop]
  | cons a as ih =>
    rw [List.foldl_cons, ih _ (fresh_add hfresh a), toList_add hconsistent hfresh,
      List.eraseDupsBy.loop, List.any_reverse]
    cases set.toList.any (equals a) with
    | true => rfl
    | false => simp

/-- A sequence of `add` calls on an empty set leaves the first occurrence of
each element, in order. -/
theorem addAll_elements (hconsistent : ∀ a b, equals a b = true → hash a = hash b)
    (as : List α) :
    (as.foldl (add hash equals) []).toList = as.eraseDupsBy equals :=
  addAll_loop hconsistent as [] (fresh_nil hash)

end Consistent

end LinkedHashSet

/-! ## First occurrences

Facts about `List.eraseDupsBy` for an `equals` that compares a key. -/

section FirstOccurrences

variable [BEq κ] [LawfulBEq κ] {key : α → κ}

private theorem eraseDupsBy_loop_append (r : α → α → Bool) (as : List α) (a : α) (acc : List α) :
    List.eraseDupsBy.loop r (as ++ [a]) acc =
      if (List.eraseDupsBy.loop r as acc).any (r a) then List.eraseDupsBy.loop r as acc
      else List.eraseDupsBy.loop r as acc ++ [a] := by
  induction as generalizing acc with
  | nil =>
    simp only [List.nil_append, List.eraseDupsBy.loop, List.any_reverse]
    cases acc.any (r a) with
    | true => rfl
    | false => simp
  | cons b as ih =>
    rw [List.cons_append, List.eraseDupsBy.loop, List.eraseDupsBy.loop]
    split
    · exact ih acc
    · exact ih (b :: acc)

/-- One more element at the end: it stays when no kept element equals it. -/
theorem eraseDupsBy_append_singleton (r : α → α → Bool) (as : List α) (a : α) :
    (as ++ [a]).eraseDupsBy r =
      if (as.eraseDupsBy r).any (r a) then as.eraseDupsBy r else as.eraseDupsBy r ++ [a] :=
  eraseDupsBy_loop_append r as a []

/-- More elements at the end change nothing in what is kept before them. -/
theorem isPrefix_eraseDupsBy (r : α → α → Bool) (as bs : List α) :
    as.eraseDupsBy r <+: (as ++ bs).eraseDupsBy r := by
  induction bs using List.reverseRecOn with
  | nil => simp
  | append_singleton bs b ih =>
    rw [← List.append_assoc, eraseDupsBy_append_singleton]
    split
    · exact ih
    · exact ih.trans (List.prefix_append _ _)

/-- What is kept was there. -/
theorem mem_of_mem_eraseDupsBy {r : α → α → Bool} {as : List α} {a : α}
    (h : a ∈ as.eraseDupsBy r) : a ∈ as := by
  induction as using List.reverseRecOn with
  | nil => exact h
  | append_singleton as b ih =>
    rw [eraseDupsBy_append_singleton] at h
    split at h
    · exact List.mem_append_left _ (ih h)
    · rcases List.mem_append.mp h with h | h
      · exact List.mem_append_left _ (ih h)
      · exact List.mem_append_right _ h

omit [LawfulBEq κ] in
/-- The kept keys are the keys of the list without their repeats. -/
theorem map_eraseDupsBy_key (key : α → κ) (as : List α) :
    (as.eraseDupsBy fun a b => key a == key b).map key = (as.map key).eraseDups := by
  induction as using List.reverseRecOn with
  | nil => rfl
  | append_singleton as a ih =>
    rw [eraseDupsBy_append_singleton, List.map_append, List.map_singleton, List.eraseDups,
      eraseDupsBy_append_singleton, ← List.eraseDups, ← ih, List.any_map]
    simp only [Function.comp_def]
    split <;> simp

/-- Every element of the list has a kept element with its key. -/
theorem exists_mem_eraseDupsBy_key (key : α → κ) {as : List α} {a : α} (h : a ∈ as) :
    ∃ b ∈ as.eraseDupsBy (fun a b => key a == key b), key b = key a := by
  have hkey : key a ∈ (as.map key).eraseDups :=
    List.mem_eraseDups.mpr (List.mem_map_of_mem h)
  rw [← map_eraseDupsBy_key key as] at hkey
  exact List.mem_map.mp hkey

/-- The kept elements have pairwise different keys. -/
theorem eraseDupsBy_key_injective {as : List α} {a b : α}
    (ha : a ∈ as.eraseDupsBy fun a b => key a == key b)
    (hb : b ∈ as.eraseDupsBy fun a b => key a == key b) (h : key a = key b) : a = b := by
  induction as using List.reverseRecOn with
  | nil => cases ha
  | append_singleton as c ih =>
    rw [eraseDupsBy_append_singleton] at ha hb
    split at ha
    · rw [if_pos ‹_›] at hb
      exact ih ha hb
    · rename_i hnew
      rw [if_neg hnew] at hb
      have hother : ∀ d ∈ as.eraseDupsBy (fun a b => key a == key b), key c ≠ key d := by
        intro d hd hcd
        exact hnew (List.any_eq_true.mpr ⟨d, hd, by simpa using hcd⟩)
      rcases List.mem_append.mp ha with ha | ha <;> rcases List.mem_append.mp hb with hb | hb
      · exact ih ha hb
      · rw [List.mem_singleton.mp hb] at h
        exact absurd h.symm (hother a ha)
      · rw [List.mem_singleton.mp ha] at h
        exact absurd h (hother b hb)
      · rw [List.mem_singleton.mp ha, List.mem_singleton.mp hb]

end FirstOccurrences

end BoundaryEventSdk.Java
