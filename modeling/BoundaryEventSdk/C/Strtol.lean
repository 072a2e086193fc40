import Mathlib.Data.List.TakeWhile
import Mathlib.Data.Nat.Digits.Defs

/-!
# `strtol`

`strtol` and `atoi` for the bases up to ten, of a string without its terminating
zero, and the numerals that they read back.  A `long` has 64 bits and an `int`
has 32.
-/

namespace BoundaryEventSdk.C

/-- `isspace`. -/
def isspace (c : UInt8) : Bool :=
  c == 32 || (9 ≤ c.toNat && c.toNat ≤ 13)

/-- A digit of a base of at most ten. -/
def isdigit (base : Nat) (c : UInt8) : Bool :=
  48 ≤ c.toNat && c.toNat < 48 + base

/-- The number of the digits that a string begins with. -/
def readDigits (base : Nat) (s : List UInt8) : Nat :=
  (s.takeWhile (isdigit base)).foldl (fun n c => n * base + (c.toNat - 48)) 0

/-- `strtol(s, NULL, base)`.  What does not fit is the largest or the smallest `long`. -/
def strtol (base : Nat) (s : List UInt8) : Int :=
  match s.dropWhile isspace with
  | 45 :: s => max (-9223372036854775808) (-(readDigits base s : Int))
  | 43 :: s => min 9223372036854775807 (readDigits base s)
  | s => min 9223372036854775807 (readDigits base s)

/-- The conversion of a `long` to an `int`. -/
def longToInt (n : Int) : Int :=
  n.bmod 4294967296

/-- `atoi`. -/
def atoi (s : List UInt8) : Int :=
  longToInt (strtol 10 s)

/-- The digits of a positive number. -/
def numeral (base n : Nat) : List UInt8 :=
  (Nat.digits base n).reverse.map fun d => UInt8.ofNat (48 + d)

variable {base n : Nat}

theorem toNat_of_mem_numeral (hbase : 2 ≤ base) (hten : base ≤ 10) {c : UInt8}
    (hc : c ∈ numeral base n) : 48 ≤ c.toNat ∧ c.toNat < 48 + base := by
  unfold numeral at hc
  obtain ⟨d, hd, rfl⟩ := List.mem_map.mp hc
  have hlt := Nat.digits_lt_base (by omega) (List.mem_reverse.mp hd)
  rw [UInt8.toNat_ofNat_of_lt' (show 48 + d < 256 by omega)]
  omega

theorem readDigits_numeral (hbase : 2 ≤ base) (hten : base ≤ 10) :
    readDigits base (numeral base n) = n := by
  have hall : (numeral base n).takeWhile (isdigit base) = numeral base n := by
    rw [List.takeWhile_eq_self_iff]
    intro c hc
    have hdigit := toNat_of_mem_numeral hbase hten hc
    unfold isdigit
    simp only [Bool.and_eq_true, decide_eq_true_eq]
    exact hdigit
  have hdigits : ∀ digits : List Nat, (∀ d ∈ digits, d < base) →
      (digits.reverse.map fun d => UInt8.ofNat (48 + d)).foldl
        (fun n c => n * base + (c.toNat - 48)) 0 = Nat.ofDigits base digits := by
    intro digits hlt
    induction digits with
    | nil => rfl
    | cons d digits ih =>
      have hd : (UInt8.ofNat (48 + d)).toNat = 48 + d := by
        have := hlt d List.mem_cons_self
        exact UInt8.toNat_ofNat_of_lt' (show 48 + d < 256 by omega)
      rw [List.reverse_cons, List.map_append, List.foldl_append,
        ih fun d hd => hlt d (List.mem_cons_of_mem _ hd)]
      show Nat.ofDigits base digits * base + ((UInt8.ofNat (48 + d)).toNat - 48) = _
      rw [hd, Nat.ofDigits_cons, Nat.mul_comm]
      omega
  unfold readDigits
  rw [hall]
  unfold numeral
  rw [hdigits _ fun d hd => Nat.digits_lt_base (by omega) hd, Nat.ofDigits_digits]

/-- A numeral is read as its number, if an `int` can hold it. -/
theorem longToInt_strtol_numeral (hbase : 2 ≤ base) (hten : base ≤ 10) (hn : n < 2147483648) :
    longToInt (strtol base (numeral base n)) = n := by
  have hstrtol : strtol base (numeral base n) = n := by
    have hread := readDigits_numeral (n := n) hbase hten
    unfold strtol
    cases hs : numeral base n with
    | nil =>
      rw [hs] at hread
      show min 9223372036854775807 ((readDigits base [] : Nat) : Int) = n
      rw [hread]
      omega
    | cons c s =>
      have hc := toNat_of_mem_numeral hbase hten (hs ▸ List.mem_cons_self : c ∈ numeral base n)
      have hspace : isspace c = false := by
        unfold isspace
        have hne : c ≠ 32 := by
          rintro rfl
          exact absurd hc.1 (by decide)
        simp only [Bool.or_eq_false_iff, beq_eq_false_iff_ne, Bool.and_eq_false_iff,
          decide_eq_false_iff_not]
        exact ⟨hne, Or.inr (by omega)⟩
      rw [List.dropWhile_cons_of_neg (by simp [hspace]), ← hs]
      rw [hs] at hread ⊢
      split
      · next heq =>
        cases heq
        exact absurd hc.1 (by decide)
      · next heq =>
        cases heq
        exact absurd hc.1 (by decide)
      · rw [hread]
        omega
  unfold longToInt
  rw [hstrtol, Int.bmod_eq_of_le (by omega) (by omega)]

end BoundaryEventSdk.C
