import Mathlib.Data.List.Basic

/-!
# Java strings as UTF-16 code units

A Java `String` is a list of UTF-16 code units, and every length, prefix and
comparison of the modelled code counts in those units.  `JString` is that
list.  A string literal of the source enters the model through `utf16`, and a
reference that may be `null` is an `Option`.

The module holds the part of `java.lang` that reads or writes text:

* `display` is the text of a reference in a string concatenation, where
  `null` prints as four letters.
* `decimal` is `Integer.toString` and `Long.toString`.
* `hashCode` is `String.hashCode`, in 32-bit arithmetic.
* `parseInt` is `Integer.parseInt`, with its sign, its Unicode digits and its
  range check.
-/

namespace BoundaryEventSdk.Java

/-- A Java string: its UTF-16 code units. -/
abbrev JString := List UInt16

/-- The code units of one character: one unit inside the basic plane, a
surrogate pair above it. -/
def charUnits (c : Char) : JString :=
  if c.toNat < 0x10000 then [UInt16.ofNat c.toNat]
  else
    [UInt16.ofNat (0xD800 + (c.toNat - 0x10000) / 0x400),
      UInt16.ofNat (0xDC00 + (c.toNat - 0x10000) % 0x400)]

/-- The Java string that a literal of the source denotes. -/
def utf16 (s : String) : JString :=
  s.toList.flatMap charUnits

/-- The text of a reference in a string concatenation. -/
def display (s : Option JString) : JString :=
  s.getD (utf16 "null")

@[simp] theorem display_some (s : JString) : display (some s) = s := rfl

/-- The decimal digits of a natural number. -/
def digits (n : Nat) : JString :=
  (Nat.toDigits 10 n).flatMap charUnits

/-- `Integer.toString` and `Long.toString`. -/
def decimal (n : Int) : JString :=
  if n < 0 then utf16 "-" ++ digits n.natAbs else digits n.natAbs

private theorem toNat_of_mem_toDigits {n : Nat} {c : Char} (h : c ∈ Nat.toDigits 10 n) :
    48 ≤ c.toNat ∧ c.toNat ≤ 57 := by
  have hdigit := Nat.isDigit_of_mem_toDigits (by decide) (by decide) h
  simpa [Char.isDigit, UInt32.le_iff_toNat_le] using hdigit

theorem mem_digits {n : Nat} {unit : UInt16} (h : unit ∈ digits n) :
    48 ≤ unit.toNat ∧ unit.toNat ≤ 57 := by
  obtain ⟨c, hc, hunit⟩ := List.mem_flatMap.mp h
  have hrange := toNat_of_mem_toDigits hc
  rw [charUnits, if_pos (by omega), List.mem_singleton] at hunit
  rw [hunit, UInt16.toNat_ofNat_of_lt' (by rw [UInt16.size]; omega)]
  exact hrange

/-- The characters of a numeral can be read back from its units. -/
theorem map_digits (n : Nat) :
    (digits n).map (fun unit => Char.ofNat unit.toNat) = Nat.toDigits 10 n := by
  have hchars : (Nat.toDigits 10 n).map (fun c =>
      (charUnits c).map fun unit => Char.ofNat unit.toNat) =
        (Nat.toDigits 10 n).map fun c => [c] := by
    refine List.map_congr_left fun c hc => ?_
    have hrange := toNat_of_mem_toDigits hc
    rw [charUnits, if_pos (by omega), List.map_singleton,
      UInt16.toNat_ofNat_of_lt' (by rw [UInt16.size]; omega), Char.ofNat_toNat]
  rw [digits, List.map_flatMap, List.flatMap_def, hchars, ← List.flatMap_def,
    List.flatMap_singleton']

/-- Two numbers do not print alike. -/
theorem digits_injective : Function.Injective digits := by
  intro n m h
  rw [← Nat.ofDigitChars_ten_toDigits (n := n), ← map_digits n, h, map_digits m,
    Nat.ofDigitChars_ten_toDigits]

theorem digits_ne_nil (n : Nat) : digits n ≠ [] := by
  intro h
  have hchars := map_digits n
  rw [h] at hchars
  exact Nat.toDigits_ne_nil hchars.symm

/-- A decimal numeral is made of digits, after a minus sign perhaps. -/
theorem not_mem_decimal {n : Int} {unit : UInt16} (h : unit.toNat < 45 ∨ 57 < unit.toNat) :
    unit ∉ decimal n := by
  have hdigits : ∀ m, unit ∉ digits m := by
    intro m hmem
    have := mem_digits hmem
    omega
  rw [decimal]
  split
  · rw [List.mem_append, not_or]
    refine ⟨?_, hdigits _⟩
    intro hminus
    rw [List.mem_singleton.mp hminus] at h
    exact absurd h (by decide)
  · exact hdigits _

/-- The parts of a joined text after the first each follow a separator. -/
theorem intercalate_cons (separator part : JString) (parts : List JString) :
    List.intercalate separator (part :: parts) =
      part ++ parts.flatMap fun part => separator ++ part := by
  induction parts generalizing part with
  | nil => simp
  | cons next parts ih =>
    rw [List.intercalate_cons_cons, ih next, List.flatMap_cons]
    simp

/-- `String.hashCode`: the polynomial in 31 over the code units, in 32-bit
arithmetic. -/
def hashCode (s : JString) : UInt32 :=
  s.foldl (fun result unit => 31 * result + unit.toUInt32) 0

/-- The hash of a reference inside a `hashCode` method: `null` counts as `0`. -/
def hashOf (s : Option JString) : UInt32 :=
  (s.map hashCode).getD 0

/-- The hash of a `long`: `(int) (value ^ (value >>> 32))`. -/
def longHashCode (value : Int64) : UInt32 :=
  (value.toUInt64 ^^^ (value.toUInt64 >>> 32)).toUInt32

/-! ## `Integer.parseInt` -/

/-- The zeros of the decimal digit blocks of the basic plane, as
`Character.digit` knows them. -/
def digitZeros : List Nat :=
  [0x0030, 0x0660, 0x06F0, 0x07C0, 0x0966, 0x09E6, 0x0A66, 0x0AE6, 0x0B66,
    0x0BE6, 0x0C66, 0x0CE6, 0x0D66, 0x0E50, 0x0ED0, 0x0F20, 0x1040, 0x1090,
    0x17E0, 0x1810, 0x1946, 0x19D0, 0x1A80, 0x1A90, 0x1B50, 0x1BB0, 0x1C40,
    0x1C50, 0xA620, 0xA8D0, 0xA900, 0xA9D0, 0xAA50, 0xABF0, 0xFF10]

/-- `Character.digit(ch, 10)`. -/
def digit (unit : UInt16) : Option Nat :=
  (digitZeros.find? fun base => base ≤ unit.toNat && unit.toNat < base + 10).map
    fun base => unit.toNat - base

/-- The value of a nonempty run of decimal digits. -/
def magnitude (s : JString) : Option Nat :=
  if s = [] then none
  else (s.mapM digit).map fun ds => ds.foldl (fun n d => 10 * n + d) 0

/-- The value of a signed numeral, before the range check. -/
def signedNumeral : JString → Option Int
  | [] => none
  | c :: cs =>
    if [c] = utf16 "-" then (magnitude cs).map fun n => -(n : Int)
    else if [c] = utf16 "+" then (magnitude cs).map fun n => (n : Int)
    else (magnitude (c :: cs)).map fun n => (n : Int)

/-- `Integer.parseInt`.  `none` is its `NumberFormatException`: no digits, a
character that is no digit, or a value outside the 32-bit range. -/
def parseInt (s : JString) : Option Int :=
  (signedNumeral s).filter fun n => -2147483648 ≤ n && n ≤ 2147483647

example : parseInt (utf16 "-42") = some (-42) := by decide

example : parseInt (utf16 "2147483648") = none := by decide

end BoundaryEventSdk.Java
