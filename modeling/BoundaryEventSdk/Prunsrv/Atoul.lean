import Mathlib.Data.List.TakeWhile
import Mathlib.Data.Nat.Digits.Lemmas
import BoundaryEventSdk.Prunsrv.MultiSz

/-!
# The numbers of `utils.c`

`apxAtoulW` reads a number from its last character back to the first one.  So the
digits at the end of a text count, and what is before them does not, but for a
minus at the beginning; `atoul_eq` says which number a text is.

The manager shows a number of the registry as a signed one and saves the text of
the field.  `shown_numbers_saved` says that the number of a field that always
shows its number is kept, and what becomes of the number of a field that is left
empty for two values.
-/

namespace BoundaryEventSdk.Prunsrv

/-- The characters of a string that ends with a zero. -/
structure WString where
  chars : Block
  noZero : (0 : WChar) ∉ chars
  deriving DecidableEq

/-- The characters of a string, and its terminator. -/
def WString.block (s : WString) : Block :=
  s.chars ++ [0]

/-- A string literal of the source. -/
def wide (text : String) : Block :=
  text.toList.map fun c => UInt16.ofNat c.toNat

/-- A string of a literal, up to its first zero. -/
def word (text : String) : WString where
  chars := (wide text).takeWhile (· != 0)
  noZero h := absurd (List.mem_takeWhile_imp h) (by decide)

/-- The cases of the switch of `apxAtoulW`. -/
def isDigit (c : WChar) : Bool :=
  48 ≤ c.toNat && c.toNat ≤ 57

/-- The loop of `apxAtoulW` that goes back, over the characters in this order. -/
def atoulBack (rv sh : UInt32) : List WChar → UInt32
  | [] => rv
  | c :: p =>
    if isDigit c then atoulBack (rv + UInt32.ofNat (c.toNat - 48) * sh) (sh * 10) p else rv

/-- `apxAtoulW`.  A minus alone makes it look for the last digit behind the end. -/
def atoul (szNum : Block) : Option UInt32 :=
  match szNum with
  | [] => some 0
  | [45] => none
  | 45 :: _ => some (atoulBack 0 1 szNum.reverse * -1)
  | _ => some (atoulBack 0 1 szNum.reverse)

/-- The number of the digits that a text ends with. -/
def lastDigits (text : Block) : Nat :=
  Nat.ofDigits 10 ((text.reverse.takeWhile isDigit).map fun c => c.toNat - 48)

/-- The number of a text: its last digits, with a sign if it begins with a minus. -/
def numberOf (text : Block) : UInt32 :=
  if text.head? = some 45 then -UInt32.ofNat (lastDigits text) else UInt32.ofNat (lastDigits text)

theorem atoulBack_eq (p : List WChar) (rv sh : UInt32) :
    atoulBack rv sh p = rv + sh *
      UInt32.ofNat (Nat.ofDigits 10 ((p.takeWhile isDigit).map fun c => c.toNat - 48)) := by
  induction p generalizing rv sh with
  | nil =>
    show rv = rv + sh * 0
    grind
  | cons c p ih =>
    unfold atoulBack
    split_ifs with hdigit
    · rw [ih, List.takeWhile_cons_of_pos hdigit, List.map_cons, Nat.ofDigits_cons, UInt32.ofNat_add,
        UInt32.ofNat_mul]
      show _ = rv + sh * (_ + 10 * _)
      grind
    · rw [List.takeWhile_cons_of_neg hdigit]
      show rv = rv + sh * 0
      grind

theorem atoul_eq {text : Block} (h : text ≠ [45]) : atoul text = some (numberOf text) := by
  have hback : atoulBack 0 1 text.reverse = UInt32.ofNat (lastDigits text) := by
    rw [atoulBack_eq]
    unfold lastDigits
    grind
  unfold atoul numberOf
  split
  · rfl
  · exact absurd rfl h
  · rw [hback, List.head?_cons, if_pos rfl]
    congr 1
    grind
  · rename_i hnil _ hminus
    rw [hback, if_neg ?_]
    intro hhead
    cases text with
    | nil => cases hhead
    | cons c rest =>
      rw [List.head?_cons, Option.some.injEq] at hhead
      exact hminus rest (by rw [hhead])

/-! ## Numbers as text -/

/-- The digits of a number. -/
def decimal (n : Nat) : Block :=
  if n = 0 then [48] else (Nat.digits 10 n).reverse.map fun d => UInt16.ofNat (48 + d)

/-- `wsprintf` with `%d`. -/
def wsprintfD (v : UInt32) : Block :=
  if v.toNat < 2147483648 then decimal v.toNat else 45 :: decimal (4294967296 - v.toNat)

/-- The field of an initial memory size, a maximal one or a stack size: it stays empty for
two values. -/
def memoryField (v : UInt32) : Block :=
  if v ≠ 0 ∧ v ≠ 0xFFFFFFFF then wsprintfD v else []

theorem toNat_digit {d : Nat} (hd : d < 10) : (UInt16.ofNat (48 + d)).toNat = 48 + d :=
  UInt16.toNat_ofNat_of_lt' (show 48 + d < 65536 by omega)

theorem isDigit_of_mem_decimal {n : Nat} {c : WChar} (hc : c ∈ decimal n) : isDigit c = true := by
  unfold decimal at hc
  split_ifs at hc with hn
  · rw [List.mem_singleton] at hc
    subst hc
    rfl
  · obtain ⟨d, hd, rfl⟩ := List.mem_map.mp hc
    have hlt := Nat.digits_lt_base (by decide) (List.mem_reverse.mp hd)
    unfold isDigit
    rw [toNat_digit hlt, Bool.and_eq_true, decide_eq_true_iff, decide_eq_true_iff]
    omega

theorem ofDigits_decimal (n : Nat) :
    Nat.ofDigits 10 ((decimal n).reverse.map fun c => c.toNat - 48) = n := by
  unfold decimal
  split_ifs with hn
  · subst hn
    rfl
  · rw [← List.map_reverse, List.reverse_reverse, List.map_map]
    have hdigits : (Nat.digits 10 n).map ((fun c : WChar => c.toNat - 48) ∘
        fun d => UInt16.ofNat (48 + d)) = Nat.digits 10 n := by
      rw [List.map_congr_left (g := id), List.map_id]
      intro d hd
      show (UInt16.ofNat (48 + d)).toNat - 48 = d
      rw [toNat_digit (Nat.digits_lt_base (by decide) hd)]
      omega
    rw [hdigits, Nat.ofDigits_digits]

/-- What is before the digits does not count. -/
theorem lastDigits_append_decimal {text : Block} (n : Nat)
    (h : ∀ c ∈ text.getLast?, isDigit c = false) : lastDigits (text ++ decimal n) = n := by
  have hall : ∀ c ∈ (decimal n).reverse, isDigit c = true := by
    intro c hc
    exact isDigit_of_mem_decimal (List.mem_reverse.mp hc)
  have hstop : text.reverse.takeWhile isDigit = [] := by
    cases hreverse : text.reverse with
    | nil => rfl
    | cons c rest =>
      have hlast : text.getLast? = some c := by
        rw [← List.head?_reverse, hreverse]
        rfl
      rw [List.takeWhile_cons_of_neg (by rw [h c hlast]; decide)]
  unfold lastDigits
  rw [List.reverse_append, List.takeWhile_append_of_pos hall, hstop, List.append_nil,
    ofDigits_decimal]

theorem decimal_ne_nil (n : Nat) : decimal n ≠ [] := by
  unfold decimal
  split_ifs with hn
  · exact List.cons_ne_nil _ _
  · intro h
    rw [List.map_eq_nil_iff, List.reverse_eq_nil_iff, Nat.digits_eq_nil_iff_eq_zero] at h
    exact hn h

theorem atoul_decimal (n : Nat) : atoul (decimal n) = some (UInt32.ofNat n) := by
  have hhead : (decimal n).head? ≠ some 45 := by
    intro h
    have := isDigit_of_mem_decimal (List.mem_of_head? h)
    exact absurd this (by decide)
  have hminus : decimal n ≠ [45] := fun h => hhead (by rw [h]; rfl)
  have hdigits := @lastDigits_append_decimal [] n nofun
  rw [atoul_eq hminus]
  unfold numberOf
  rw [if_neg hhead]
  rw [List.nil_append] at hdigits
  rw [hdigits]

theorem atoul_minus_decimal (n : Nat) : atoul (45 :: decimal n) = some (-UInt32.ofNat n) := by
  have hminus : 45 :: decimal n ≠ [45] := by
    intro h
    exact decimal_ne_nil n (List.cons.inj h).2
  have hdigits := @lastDigits_append_decimal [45] n (by
    intro c hc
    cases hc
    rfl)
  rw [atoul_eq hminus]
  unfold numberOf
  rw [List.head?_cons, if_pos rfl]
  rw [List.singleton_append] at hdigits
  rw [hdigits]

theorem atoul_wsprintfD (v : UInt32) : atoul (wsprintfD v) = some v := by
  unfold wsprintfD
  split_ifs with hsign
  · rw [atoul_decimal, UInt32.ofNat_toNat]
  · rw [atoul_minus_decimal]
    have hlt := v.toNat_lt
    congr 1
    apply UInt32.toNat_inj.mp
    rw [UInt32.toNat_neg, UInt32.toNat_ofNat_of_lt' (by show _ < 4294967296; omega)]
    show (4294967296 - (4294967296 - v.toNat)) % 4294967296 = v.toNat
    omega

/-- The numbers of the registry that the manager shows and that it saves as they are
shown. -/
theorem shown_numbers_saved (v : UInt32) :
    atoul (wsprintfD v) = some v ∧
      atoul (memoryField v) = some (if v = 0xFFFFFFFF then 0 else v) := by
  refine ⟨atoul_wsprintfD v, ?_⟩
  unfold memoryField
  by_cases hzero : v = 0
  · subst hzero
    rfl
  by_cases hall : v = 0xFFFFFFFF
  · subst hall
    rfl
  · rw [if_pos ⟨hzero, hall⟩, if_neg hall, atoul_wsprintfD]

end BoundaryEventSdk.Prunsrv
