import BoundaryEventSdk.C.Substitute

/-!
# Strings in a C buffer

A buffer is the list of its bytes.  Loading and storing outside of it is
undefined behaviour, and so is arithmetic of `int` that leaves its range; a
function with undefined behaviour gives `none`.

`Holds` says what bytes a buffer has from an offset on.  `holds_append` takes
such a fact apart, `Holds.store` and `Holds.store_of_ne` say what a store does to
it, and `cstr_of_holds` reads a string that the buffer holds.  `strlen`, `strstr`,
`strcpy` and `strncpy` are the functions of `string.h`, on offsets.
-/

namespace BoundaryEventSdk.C

/-- The bytes of a buffer. -/
abbrev Buffer := List UInt8

/-- A string: its bytes without the one that ends it. -/
structure CString where
  bytes : List UInt8
  nonzero : (0 : UInt8) ∉ bytes

/-- `""`. -/
def CString.empty : CString := ⟨[], List.not_mem_nil⟩

/-- A value of type `int`. -/
def int (n : Int) : Option Int :=
  if -2147483648 ≤ n ∧ n ≤ 2147483647 then some n else none

theorem int_eq_some {n : Int} (h : -2147483648 ≤ n ∧ n ≤ 2147483647) : int n = some n :=
  if_pos h

/-- `b[i] = value`. -/
def store (b : Buffer) (i : Nat) (value : UInt8) : Option Buffer :=
  if i < b.length then some (b.set i value) else none

/-- The string at an offset. -/
def cstr (b : Buffer) (i : Nat) : Option (List UInt8) :=
  if 0 ∈ b.drop i then some ((b.drop i).takeWhile (· ≠ 0)) else none

/-- `strlen(b + i)`. -/
def strlen (b : Buffer) (i : Nat) : Option Nat :=
  (cstr b i).map List.length

/-- `strstr(b + i, mch)`. -/
def strstr (b : Buffer) (i : Nat) (mch : List UInt8) : Option (Option Nat) :=
  (cstr b i).map fun s => (find mch s).map (i + ·)

/-- `strncpy(b + i, s, n)`, for the `n` bytes of a string. -/
def strncpy (b : Buffer) (i : Nat) : List UInt8 → Option Buffer
  | [] => some b
  | c :: s => do
    let b ← store b i c
    strncpy b (i + 1) s

/-- `strcpy(b, s)`. -/
def strcpy (b : Buffer) (s : List UInt8) : Option Buffer :=
  strncpy b 0 (s ++ [0])

/-! ## What a buffer holds -/

/-- The buffer has the bytes, from the offset on. -/
def Holds (b : Buffer) (i : Nat) (bytes : List UInt8) : Prop :=
  ∀ k, k < bytes.length → b[i + k]? = bytes[k]?

theorem holds_nil (b : Buffer) (i : Nat) : Holds b i [] :=
  fun _ hk => absurd hk (Nat.not_lt_zero _)

theorem holds_append {b : Buffer} {i : Nat} {left right : List UInt8} :
    Holds b i (left ++ right) ↔ Holds b i left ∧ Holds b (i + left.length) right := by
  constructor
  · intro h
    constructor
    · intro k hk
      rw [h k (by rw [List.length_append]; omega), List.getElem?_append_left hk]
    · intro k hk
      rw [Nat.add_assoc, h (left.length + k) (by rw [List.length_append]; omega),
        List.getElem?_append_right (Nat.le_add_right _ _), Nat.add_sub_cancel_left]
  · intro h k hk
    rw [List.length_append] at hk
    by_cases hleft : k < left.length
    · rw [h.1 k hleft, List.getElem?_append_left hleft]
    · have hright := h.2 (k - left.length) (by omega)
      rw [Nat.add_assoc, Nat.add_sub_cancel' (by omega)] at hright
      rw [hright, List.getElem?_append_right (by omega)]

/-- A held list lies inside the buffer. -/
theorem Holds.length_le {b : Buffer} {i : Nat} {bytes : List UInt8} (h : Holds b i bytes)
    (hne : bytes ≠ []) : i + bytes.length ≤ b.length := by
  have hpos : 0 < bytes.length := List.length_pos_iff.mpr hne
  have hlast := h (bytes.length - 1) (by omega)
  rw [List.getElem?_eq_getElem (l := bytes) (by omega)] at hlast
  have hbound := (List.getElem?_eq_some_iff.mp hlast).1
  omega

/-- Two buffers that agree on a range hold the same there. -/
theorem Holds.congr {b b' : Buffer} {i j : Nat} {bytes : List UInt8} (h : Holds b i bytes)
    (hagree : ∀ k, k < bytes.length → b'[j + k]? = b[i + k]?) : Holds b' j bytes := by
  intro k hk
  rw [hagree k hk, h k hk]

/-- A string that the buffer holds is the string at that offset. -/
theorem cstr_of_holds {b : Buffer} {i : Nat} {s : List UInt8} (hs : (0 : UInt8) ∉ s)
    (h : Holds b i (s ++ [0])) : cstr b i = some s := by
  have hprefix : ∃ rest, b.drop i = s ++ 0 :: rest := by
    refine ⟨(b.drop i).drop (s.length + 1), ?_⟩
    rw [← List.singleton_append, ← List.append_assoc]
    refine List.ext_getElem? fun k => ?_
    rw [List.getElem?_drop]
    by_cases hk : k < (s ++ [0]).length
    · rw [h k hk, List.getElem?_append_left hk]
    · rw [List.getElem?_append_right (by omega), List.getElem?_drop, List.getElem?_drop]
      rw [List.length_append, List.length_singleton] at hk ⊢
      congr 1
      omega
  obtain ⟨rest, hrest⟩ := hprefix
  have hall : ∀ c ∈ s, decide (c ≠ 0) = true := by
    intro c hc
    rw [decide_eq_true_iff]
    intro hzero
    exact hs (hzero ▸ hc)
  rw [cstr, hrest, if_pos (by simp), List.takeWhile_append_of_pos hall,
    List.takeWhile_cons_of_neg (by decide), List.append_nil]

theorem strlen_of_holds {b : Buffer} {i : Nat} {s : List UInt8} (hs : (0 : UInt8) ∉ s)
    (h : Holds b i (s ++ [0])) : strlen b i = some s.length := by
  rw [strlen, cstr_of_holds hs h]
  rfl

/-! ## Copying -/

theorem getElem?_store {b b' : Buffer} {i : Nat} {value : UInt8} (h : store b i value = some b') :
    b'.length = b.length ∧ ∀ j, b'[j]? = if j = i then some value else b[j]? := by
  unfold store at h
  split at h
  · next hi =>
    cases h
    refine ⟨List.length_set, fun j => ?_⟩
    by_cases hj : j = i
    · rw [hj, List.getElem?_set_self hi, if_pos rfl]
    · rw [List.getElem?_set_ne (Ne.symm hj), if_neg hj]
  · cases h

theorem load_of_lt {b : Buffer} {i : Nat} (h : i < b.length) : ∃ value, b[i]? = some value :=
  ⟨_, List.getElem?_eq_getElem h⟩

theorem store_of_lt {b : Buffer} {i : Nat} (value : UInt8) (h : i < b.length) :
    ∃ b', store b i value = some b' :=
  ⟨_, if_pos h⟩

/-- A store into a held list changes one byte of it. -/
theorem Holds.store {b b' : Buffer} {i k : Nat} {bytes : List UInt8} {value : UInt8}
    (h : Holds b i bytes) (hstore : C.store b (i + k) value = some b') :
    Holds b' i (bytes.set k value) := by
  intro j hj
  rw [List.length_set] at hj
  rw [(getElem?_store hstore).2]
  by_cases hjk : j = k
  · rw [if_pos (by omega), hjk, List.getElem?_set_self (by omega)]
  · rw [if_neg (by omega), List.getElem?_set_ne (Ne.symm hjk), h j hj]

/-- A store in front of or behind a held list leaves it alone. -/
theorem Holds.store_of_ne {b b' : Buffer} {i j : Nat} {bytes : List UInt8} {value : UInt8}
    (h : Holds b i bytes) (hstore : C.store b j value = some b')
    (hj : ∀ k, k < bytes.length → i + k ≠ j) : Holds b' i bytes := by
  refine h.congr fun k hk => ?_
  rw [(getElem?_store hstore).2, if_neg (hj k hk)]

/-- A copy that fits puts the bytes at the offset, and nothing else changes. -/
theorem strncpy_of_le {b : Buffer} {i : Nat} {s : List UInt8} (h : i + s.length ≤ b.length) :
    ∃ b', strncpy b i s = some b' ∧ b'.length = b.length ∧
      ∀ j, b'[j]? = if i ≤ j ∧ j < i + s.length then s[j - i]? else b[j]? := by
  induction s generalizing b i with
  | nil => exact ⟨b, rfl, rfl, fun j => (if_neg fun hj => by simp at hj; omega).symm⟩
  | cons c s ih =>
    rw [List.length_cons] at h
    obtain ⟨b₁, hb₁⟩ := store_of_lt c (show i < b.length by omega)
    obtain ⟨hlength₁, hget₁⟩ := getElem?_store hb₁
    obtain ⟨b', hb', hlength, hget⟩ := @ih b₁ (i + 1) (by omega)
    refine ⟨b', by rw [strncpy, hb₁]; exact hb', hlength.trans hlength₁, fun j => ?_⟩
    rw [hget, hget₁, List.length_cons]
    by_cases hj : j = i
    · rw [if_neg (by omega), if_pos hj, if_pos (by omega), hj, Nat.sub_self]
      rfl
    · rw [if_neg hj]
      by_cases hin : i ≤ j ∧ j < i + (s.length + 1)
      · rw [if_pos (by omega), if_pos hin, show j - i = j - (i + 1) + 1 by omega,
          List.getElem?_cons_succ]
      · rw [if_neg (by omega), if_neg hin]

/-- A copy that does not fit leaves the buffer. -/
theorem strncpy_of_lt {b : Buffer} {i : Nat} {s : List UInt8} (hne : s ≠ [])
    (h : b.length < i + s.length) : strncpy b i s = none := by
  induction s generalizing b i with
  | nil => exact absurd rfl hne
  | cons c s ih =>
    rw [strncpy]
    by_cases hi : i < b.length
    · obtain ⟨b₁, hb₁⟩ := store_of_lt c hi
      have hlength := (getElem?_store hb₁).1
      rw [hb₁]
      show strncpy b₁ (i + 1) s = none
      rw [List.length_cons] at h
      refine ih ?_ (by omega)
      intro hnil
      rw [hnil, List.length_nil] at h
      omega
    · rw [store, if_neg hi]
      rfl

/-- A string fits if there is room for the byte that ends it. -/
theorem strcpy_of_lt {b : Buffer} {s : List UInt8} (h : s.length < b.length) :
    ∃ b', strcpy b s = some b' ∧ b'.length = b.length ∧ Holds b' 0 (s ++ [0]) := by
  have hlength : (s ++ [0]).length = s.length + 1 := by simp
  obtain ⟨b', hb', hlength', hget⟩ := @strncpy_of_le b 0 (s ++ [0]) (by omega)
  refine ⟨b', hb', hlength', fun k hk => ?_⟩
  rw [Nat.zero_add, hget, if_pos (by omega), Nat.sub_zero]

theorem strcpy_of_le {b : Buffer} {s : List UInt8} (h : b.length ≤ s.length) :
    strcpy b s = none := by
  refine strncpy_of_lt (by simp) ?_
  rw [List.length_append, List.length_singleton]
  omega

end BoundaryEventSdk.C
