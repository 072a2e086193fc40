import BoundaryEventSdk.Java.Outcome
import BoundaryEventSdk.Java.Text

/-!
# OIDs and variable bindings

The objects that SNMP4J decodes a PDU into: an OID, a value of one of the SMI
syntaxes, and the pair of the two.  A value is modelled by what its class
stores.  `Counter64` stores its 64 bits in a `long`, so a counter beyond the
range of `long` reads as a negative number everywhere in Java.

SNMP4J documents that `toLong` throws `UnsupportedOperationException` for each
syntax without a number, and that the three exception values of SNMPv2 are
special cases of `Null`.
-/

namespace BoundaryEventSdk.Snmp

open BoundaryEventSdk.Java

/-- An object identifier: its sub-identifiers. -/
abbrev Oid := List UInt32

/-- `OID.toDottedString`: the sub-identifiers in decimal, with dots between
them. -/
def toDottedString (oid : Oid) : JString :=
  List.intercalate (utf16 ".") (oid.map fun subidentifier => digits subidentifier.toNat)

/-- A dotted OID is made of digits and dots. -/
theorem mem_toDottedString {oid : Oid} {unit : UInt16} (h : unit ∈ toDottedString oid) :
    46 ≤ unit.toNat ∧ unit.toNat ≤ 57 := by
  cases oid with
  | nil => cases h
  | cons subidentifier oid =>
    rw [toDottedString, List.map_cons, intercalate_cons, List.mem_append] at h
    rcases h with h | h
    · have := mem_digits h
      omega
    · obtain ⟨part, hpart, hunit⟩ := List.mem_flatMap.mp h
      obtain ⟨_, _, rfl⟩ := List.mem_map.mp hpart
      rcases List.mem_append.mp hunit with hdot | hdigit
      · rw [show unit = 46 from List.mem_singleton.mp hdot]
        decide
      · have := mem_digits hdigit
        omega

/-- Splitting at the dots gives back the sub-identifiers. -/
theorem splitOn_toDottedString {oid : Oid} (hne : oid ≠ []) :
    (toDottedString oid).splitOn 46 = oid.map fun subidentifier => digits subidentifier.toNat := by
  refine List.splitOn_intercalate 46 ?_ (by simpa using hne)
  intro part hpart hdot
  obtain ⟨_, _, rfl⟩ := List.mem_map.mp hpart
  exact absurd (mem_digits hdot).1 (by decide)

/-- Two OIDs do not print alike. -/
theorem toDottedString_injective : Function.Injective toDottedString := by
  have hnil : ∀ oid : Oid, toDottedString oid = [] → oid = [] := by
    intro oid h
    cases oid with
    | nil => rfl
    | cons subidentifier oid =>
      rw [toDottedString, List.map_cons, intercalate_cons] at h
      exact absurd (List.append_eq_nil_iff.mp h).1 (digits_ne_nil _)
  have hdigits : Function.Injective fun subidentifier : UInt32 => digits subidentifier.toNat := by
    intro a b h
    exact UInt32.toNat_inj.mp (digits_injective h)
  intro oid other h
  by_cases hoid : oid = []
  · rw [hoid] at h ⊢
    exact (hnil other h.symm).symm
  · by_cases hother : other = []
    · rw [hother] at h ⊢
      exact hnil oid h
    · refine List.map_injective_iff.mpr hdigits ?_
      show oid.map _ = other.map _
      rw [← splitOn_toDottedString hoid, h, splitOn_toDottedString hother]

/-- The value of a variable binding. -/
inductive Variable where
  | integer32 (value : Int32)
  | counter32 (value : UInt32)
  | gauge32 (value : UInt32)
  | timeTicks (value : UInt32)
  | counter64 (value : Int64)
  | octetString (value : List UInt8)
  | oid (value : Oid)
  | ipAddress (value : List UInt8)
  | opaqueValue (value : List UInt8)
  | null
  | noSuchObject
  | noSuchInstance
  | endOfMibView
  deriving DecidableEq, Repr

namespace Variable

/-- The number that the value holds, if its syntax is numeric. -/
def number : Variable → Option Int
  | integer32 value => some value.toInt
  | counter32 value => some value.toNat
  | gauge32 value => some value.toNat
  | timeTicks value => some value.toNat
  | counter64 value => some value.toInt
  | _ => none

/-- `Variable.toLong`. -/
def toLong (v : Variable) : Except Throwable Int :=
  match v.number with
  | some value => .ok value
  | none => .error .unsupportedOperation

/-- `Variable.isException`. -/
def isException : Variable → Bool
  | noSuchObject | noSuchInstance | endOfMibView => true
  | _ => false

/-- An exception value holds no number. -/
theorem isException_of_number {v : Variable} {value : Int} (h : v.number = some value) :
    v.isException = false := by
  cases v <;> first | rfl | cases h

end Variable

/-- A `VariableBinding`: an OID and its variable. -/
structure VariableBinding where
  oid : Oid
  value : Variable
  deriving DecidableEq, Repr

end BoundaryEventSdk.Snmp
