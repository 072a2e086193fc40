import BoundaryEventSdk.Java.LinkedHashMap

/-!
# `equals` and `hashCode`

The methods that a development environment generates compare two objects field
by field, and mix the hashes of the fields with the factor 31.  A field may be
`null`, and `null` is equal to `null` only.

The lists and maps of `java.util` have methods of the same kind: `AbstractList`
mixes the hashes of its elements in that way, and the hash of a map is a sum
over its entries, so that their order does not matter.
-/

namespace BoundaryEventSdk.Java

variable {α κ ν : Type}

/-- The comparison of one field that may be `null`. -/
def fieldEquals (equals : α → α → Bool) : Option α → Option α → Bool
  | none, none => true
  | some a, some b => equals a b
  | _, _ => false

/-- The hash of one field that may be `null`. -/
def fieldHash (hash : α → UInt32) (field : Option α) : UInt32 :=
  (field.map hash).getD 0

/-- `result = 31 * result + hash`, from 1. -/
def combineHashes (hashes : List UInt32) : UInt32 :=
  hashes.foldl (fun result hash => 31 * result + hash) 1

theorem fieldEquals_refl {equals : α → α → Bool} (hequals : ∀ a, equals a a = true)
    (field : Option α) : fieldEquals equals field field = true := by
  cases field with
  | none => rfl
  | some a => exact hequals a

@[simp] theorem fieldEquals_beq_self [BEq α] [ReflBEq α] (field : Option α) :
    fieldEquals (· == ·) field field = true :=
  fieldEquals_refl beq_self_eq_true field

/-- Of two equal fields both are `null` or none is. -/
theorem isSome_eq_of_fieldEquals {equals : α → α → Bool} {field other : Option α}
    (h : fieldEquals equals field other = true) : field.isSome = other.isSome := by
  cases field with
  | none =>
    cases other with
    | none => rfl
    | some b => cases h
  | some a =>
    cases other with
    | none => cases h
    | some b => rfl

namespace LinkedHashMap

/-- `AbstractMap.equals`. -/
def equals [DecidableEq κ] [DecidableEq ν] (m other : LinkedHashMap κ ν) : Bool :=
  other.entries.length == m.entries.length &&
    m.entries.all fun entry => other.get entry.1 == some entry.2

/-- `AbstractMap.hashCode`. -/
def hashCode (keyHash : κ → UInt32) (valueHash : ν → UInt32) (m : LinkedHashMap κ ν) : UInt32 :=
  m.entries.foldl (fun sum entry => sum + (keyHash entry.1 ^^^ valueHash entry.2)) 0

@[simp] theorem equals_refl [DecidableEq κ] [DecidableEq ν] (m : LinkedHashMap κ ν) :
    m.equals m = true := by
  rw [equals, beq_self_eq_true, Bool.true_and, List.all_eq_true]
  intro entry hentry
  rw [beq_iff_eq]
  exact get_eq_some_iff.mpr hentry

end LinkedHashMap

end BoundaryEventSdk.Java
