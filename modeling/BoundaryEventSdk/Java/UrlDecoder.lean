import Mathlib.Tactic.Common
import BoundaryEventSdk.Java.Text

/-!
# `java.net.URLDecoder`

`urlDecode` is `URLDecoder.decode` with UTF-8: a plus sign becomes a blank, a
run of `%xy` becomes the text of its bytes, and any other unit stays.  A
percent sign without two hexadecimal digits throws.

`utf8Decode` is `new String(bytes, "UTF-8")`, with a replacement character for
each malformed sequence.

`urlDecode_eq_self_iff` is the fact that encoders rely on: the decoder leaves
exactly the texts without a percent sign and a plus sign alone.  A percent sign
always costs length, since its three units hold one byte and no text has more
units than bytes.
-/

namespace BoundaryEventSdk.Java

/-! ## UTF-8 -/

/-- `U+FFFD`. -/
def replacement : UInt16 := 0xFFFD

def isContinuation (b : UInt8) : Bool :=
  0x80 ≤ b && b ≤ 0xBF

/-- The second byte of a sequence of three may follow the first. -/
def second3 (b1 b2 : UInt8) : Bool :=
  isContinuation b2 && !(b1 == 0xE0 && b2 < 0xA0)

/-- The second byte of a sequence of four may follow the first. -/
def second4 (b1 b2 : UInt8) : Bool :=
  isContinuation b2 && !(b1 == 0xF0 && b2 < 0x90) && !(b1 == 0xF4 && 0x90 ≤ b2)

/-- The unit of a sequence of two. -/
def unit2 (b1 b2 : UInt8) : UInt16 :=
  ((b1 &&& 0x1F).toUInt16 <<< 6) ||| (b2 &&& 0x3F).toUInt16

/-- The unit of a sequence of three.  The surrogates have no encoding. -/
def unit3 (b1 b2 b3 : UInt8) : UInt16 :=
  let unit := ((b1 &&& 0x0F).toUInt16 <<< 12) ||| ((b2 &&& 0x3F).toUInt16 <<< 6) |||
    (b3 &&& 0x3F).toUInt16
  if 0xD800 ≤ unit ∧ unit ≤ 0xDFFF then replacement else unit

/-- The surrogate pair of a sequence of four. -/
def units4 (b1 b2 b3 b4 : UInt8) : JString :=
  let offset := ((b1 &&& 0x07).toNat * 0x40000 + (b2 &&& 0x3F).toNat * 0x1000 +
    (b3 &&& 0x3F).toNat * 0x40 + (b4 &&& 0x3F).toNat) - 0x10000
  [UInt16.ofNat (0xD800 + offset / 0x400), UInt16.ofNat (0xDC00 + offset % 0x400)]

/-- The first sequence of a nonempty text: its units, and how many bytes after
the first one it takes.  A malformed sequence ends before the first byte that
does not fit. -/
def utf8Sequence (b1 : UInt8) (rest : List UInt8) : JString × Nat :=
  if b1 < 0x80 then ([b1.toUInt16], 0)
  else if 0xC2 ≤ b1 ∧ b1 ≤ 0xDF then
    match rest with
    | b2 :: _ => if isContinuation b2 then ([unit2 b1 b2], 1) else ([replacement], 0)
    | [] => ([replacement], 0)
  else if 0xE0 ≤ b1 ∧ b1 ≤ 0xEF then
    match rest with
    | b2 :: b3 :: _ =>
      if !second3 b1 b2 then ([replacement], 0)
      else if isContinuation b3 then ([unit3 b1 b2 b3], 2)
      else ([replacement], 1)
    | [b2] => ([replacement], if second3 b1 b2 then 1 else 0)
    | [] => ([replacement], 0)
  else if 0xF0 ≤ b1 ∧ b1 ≤ 0xF4 then
    match rest with
    | b2 :: b3 :: b4 :: _ =>
      if !second4 b1 b2 then ([replacement], 0)
      else if !isContinuation b3 then ([replacement], 1)
      else if isContinuation b4 then (units4 b1 b2 b3 b4, 3)
      else ([replacement], 2)
    | [b2, b3] =>
      ([replacement], if !second4 b1 b2 then 0 else if isContinuation b3 then 2 else 1)
    | [b2] => ([replacement], if second4 b1 b2 then 1 else 0)
    | [] => ([replacement], 0)
  else ([replacement], 0)

/-- The text of the bytes after the first `skip`. -/
def utf8DecodeFrom : Nat → List UInt8 → JString
  | _, [] => []
  | skip + 1, _ :: rest => utf8DecodeFrom skip rest
  | 0, b1 :: rest => (utf8Sequence b1 rest).1 ++ utf8DecodeFrom (utf8Sequence b1 rest).2 rest

/-- `new String(bytes, "UTF-8")`. -/
def utf8Decode (bytes : List UInt8) : JString :=
  utf8DecodeFrom 0 bytes

example : utf8Decode [0x61, 0xC3, 0xA9, 0xFF, 0xF0, 0x9F, 0x98, 0x80] =
    utf16 "aé" ++ [replacement] ++ utf16 "😀" := by decide +kernel

/-- A sequence has at most a unit for each of its bytes. -/
theorem length_utf8Sequence (b1 : UInt8) (rest : List UInt8) :
    (utf8Sequence b1 rest).1.length ≤ (utf8Sequence b1 rest).2 + 1 ∧
      (utf8Sequence b1 rest).2 ≤ rest.length := by
  unfold utf8Sequence
  split
  · simp
  split
  · split
    · split <;> simp
    · simp
  split
  · split
    · split
      · simp
      · split <;> simp
    · split <;> simp
    · simp
  split
  · split
    · split
      · simp
      · split
        · simp
        · split <;> simp [units4]
    · split
      · simp
      · split <;> simp
    · split <;> simp
    · simp
  · simp

theorem length_utf8DecodeFrom_le (skip : Nat) (bytes : List UInt8) :
    (utf8DecodeFrom skip bytes).length ≤ bytes.length - skip := by
  induction bytes generalizing skip with
  | nil => simp [utf8DecodeFrom]
  | cons b1 rest ih =>
    cases skip with
    | succ skip =>
      rw [utf8DecodeFrom, List.length_cons, Nat.add_sub_add_right]
      exact ih skip
    | zero =>
      obtain ⟨hunits, htaken⟩ := length_utf8Sequence b1 rest
      have hrest := ih (utf8Sequence b1 rest).2
      rw [utf8DecodeFrom, List.length_append, List.length_cons]
      omega

/-- A text has at most a unit for each byte. -/
theorem length_utf8Decode_le (bytes : List UInt8) : (utf8Decode bytes).length ≤ bytes.length :=
  length_utf8DecodeFrom_le 0 bytes

/-! ## The decoder -/

/-- `Character.digit(ch, 16)`. -/
def hexDigit (unit : UInt16) : Option Nat :=
  match digit unit with
  | some n => some n
  | none =>
    if 0x61 ≤ unit ∧ unit ≤ 0x66 then some (unit.toNat - 0x61 + 10)
    else if 0x41 ≤ unit ∧ unit ≤ 0x46 then some (unit.toNat - 0x41 + 10)
    else if 0xFF41 ≤ unit ∧ unit ≤ 0xFF46 then some (unit.toNat - 0xFF41 + 10)
    else if 0xFF21 ≤ unit ∧ unit ≤ 0xFF26 then some (unit.toNat - 0xFF21 + 10)
    else none

/-- The byte after a percent sign: `Integer.parseInt` in base 16, which takes a
sign, and the check that the value is not negative. -/
def hexByte (high low : UInt16) : Option UInt8 :=
  if high = 43 then (hexDigit low).map UInt8.ofNat
  else if high = 45 then (if hexDigit low = some 0 then some 0 else none)
  else do
    let h ← hexDigit high
    let l ← hexDigit low
    return UInt8.ofNat (16 * h + l)

/-- `URLDecoder.decode` with the bytes of a run of escapes so far.  `none` is
its `IllegalArgumentException`. -/
def urlDecodeFrom (pending : List UInt8) : JString → Option JString
  | [] => some (utf8Decode pending)
  | unit :: rest =>
    if unit = 37 then
      match rest with
      | high :: low :: rest' =>
        (hexByte high low).bind fun b => urlDecodeFrom (pending ++ [b]) rest'
      | _ => none
    else
      (urlDecodeFrom [] rest).map fun text =>
        utf8Decode pending ++ (if unit = 43 then 32 else unit) :: text

/-- `URLDecoder.decode(s, "UTF-8")`. -/
def urlDecode (s : JString) : Option JString :=
  urlDecodeFrom [] s

example : urlDecode (utf16 "a%26b+%C3%A9") = some (utf16 "a&b é") := by decide +kernel

/-- A decoded text is not longer, and it is shorter where there is an escape. -/
theorem length_urlDecodeFrom {pending : List UInt8} {s text : JString}
    (h : urlDecodeFrom pending s = some text) :
    text.length ≤ pending.length + s.length ∧
      (37 ∈ s → text.length < pending.length + s.length) := by
  fun_induction urlDecodeFrom pending s generalizing text with
  | case1 pending =>
    cases h
    exact ⟨length_utf8Decode_le pending, by simp⟩
  | case2 pending high low rest ih =>
    obtain ⟨b, hb, hrest⟩ := Option.bind_eq_some_iff.mp h
    have := (ih b hrest).1
    simp only [List.length_append, List.length_cons, List.length_nil] at this ⊢
    omega
  | case3 => cases h
  | case4 pending unit rest hne ih =>
    obtain ⟨decoded, hdecoded, rfl⟩ := Option.map_eq_some_iff.mp h
    obtain ⟨hle, hlt⟩ := ih hdecoded
    have hpending := length_utf8Decode_le pending
    simp only [List.length_append, List.length_cons, List.length_nil] at hle hlt ⊢
    refine ⟨by omega, fun hmem => ?_⟩
    have := hlt ((List.mem_cons.mp hmem).resolve_left fun h => hne h.symm)
    omega

theorem urlDecodeFrom_cons_of_ne (pending : List UInt8) {unit : UInt16} (h : unit ≠ 37)
    (rest : JString) :
    urlDecodeFrom pending (unit :: rest) =
      (urlDecodeFrom [] rest).map fun text =>
        utf8Decode pending ++ (if unit = 43 then 32 else unit) :: text := by
  rw [urlDecodeFrom.eq_def]
  exact if_neg h

/-- A text without an escape keeps its units, up to the plus signs. -/
theorem urlDecodeFrom_of_no_escape {s : JString} (h : 37 ∉ s) (pending : List UInt8) :
    urlDecodeFrom pending s =
      some (utf8Decode pending ++ s.map fun unit => if unit = 43 then 32 else unit) := by
  induction s generalizing pending with
  | nil => simp [urlDecodeFrom]
  | cons unit rest ih =>
    rw [List.mem_cons, not_or] at h
    rw [urlDecodeFrom_cons_of_ne pending fun he => h.1 he.symm, ih h.2]
    rfl

/-- The decoder leaves exactly the texts without a percent sign and a plus sign
alone. -/
theorem urlDecode_eq_self_iff {s : JString} : urlDecode s = some s ↔ 37 ∉ s ∧ 43 ∉ s := by
  have hunits : 37 ∉ s → (urlDecode s = some s ↔
      ∀ unit ∈ s, (if unit = 43 then 32 else unit) = unit) := by
    intro hescape
    have hmap := @List.map_inj_left _ _ s (fun unit => if unit = 43 then 32 else unit) id
    rw [List.map_id] at hmap
    rw [urlDecode, urlDecodeFrom_of_no_escape hescape, Option.some_inj]
    exact hmap
  constructor
  · intro h
    have hescape : 37 ∉ s := by
      intro hmem
      have hlt := (length_urlDecodeFrom h).2 hmem
      simp at hlt
    exact ⟨hescape, fun hplus => absurd ((hunits hescape).mp h 43 hplus) (by decide)⟩
  · intro h
    refine (hunits h.1).mpr fun unit hunit => if_neg ?_
    intro hplus
    exact h.2 (hplus ▸ hunit)

end BoundaryEventSdk.Java
