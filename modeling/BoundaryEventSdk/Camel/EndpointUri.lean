import BoundaryEventSdk.Java.UrlDecoder

/-!
# Endpoint URIs and their options

An endpoint URI has a scheme, an address and, after the first question mark,
options: parts between ampersands, each a name and a value around its first
equals sign, both URL-encoded.  `EndpointUri.decode` takes a URI apart.

`optionText` writes an option without any encoding.  `decodeOptions_encode`
says when that is right, and `plain_of_carries` that it is right in no other
case: a value that comes back unchanged is `Plain`.
-/

namespace BoundaryEventSdk.Camel

open BoundaryEventSdk.Java

/-- The text before the first separator. -/
def beforeFirst (separator : UInt16) (s : JString) : JString :=
  s.takeWhile (· ≠ separator)

/-- The text after the first separator. -/
def afterFirst (separator : UInt16) (s : JString) : JString :=
  (s.dropWhile (· ≠ separator)).drop 1

private theorem forall_ne_separator {separator : UInt16} {front : JString}
    (h : separator ∉ front) : ∀ unit ∈ front, decide (unit ≠ separator) = true := by
  intro unit hunit
  exact decide_eq_true fun he => h (he ▸ hunit)

theorem beforeFirst_append {separator : UInt16} {front : JString} (h : separator ∉ front)
    (back : JString) : beforeFirst separator (front ++ separator :: back) = front := by
  rw [beforeFirst, List.takeWhile_append_of_pos (forall_ne_separator h),
    List.takeWhile_cons_of_neg (by simp), List.append_nil]

theorem afterFirst_append {separator : UInt16} {front : JString} (h : separator ∉ front)
    (back : JString) : afterFirst separator (front ++ separator :: back) = back := by
  rw [afterFirst, List.dropWhile_append_of_pos (forall_ne_separator h),
    List.dropWhile_cons_of_neg (by simp)]
  rfl

/-- A text behind the first separator stays behind it. -/
theorem afterFirst_append_of_mem {separator : UInt16} {front : JString} (h : separator ∈ front)
    (back : JString) :
    afterFirst separator (front ++ back) = afterFirst separator front ++ back := by
  obtain ⟨head, tail, rfl, hhead⟩ := List.eq_append_cons_of_mem h
  rw [List.append_assoc, List.cons_append, afterFirst_append hhead, afterFirst_append hhead]

/-! ## Decoding -/

/-- An endpoint URI taken apart. -/
structure EndpointUri where
  scheme : JString
  address : JString
  options : List (JString × JString)
  deriving DecidableEq, Repr

/-- One part between two ampersands. -/
def decodeOption (part : JString) : Option (JString × JString) := do
  let name ← urlDecode (beforeFirst 61 part)
  let value ← urlDecode (afterFirst 61 part)
  return (name, value)

/-- The text after the question mark. -/
def decodeOptions (query : JString) : Option (List (JString × JString)) :=
  (query.splitOn 38).mapM decodeOption

def EndpointUri.decode (uri : JString) : Option EndpointUri := do
  let options ← decodeOptions (afterFirst 63 uri)
  return {
    scheme := beforeFirst 58 uri
    address := afterFirst 58 (beforeFirst 63 uri)
    options := options }

/-- Options that are written behind others decode behind them. -/
theorem decodeOptions_append (front back : JString) :
    decodeOptions (front ++ 38 :: back) =
      (decodeOptions front).bind fun options => (decodeOptions back).map (options ++ ·) := by
  rw [decodeOptions, List.splitOn_append_cons_self, List.mapM_append, ← decodeOptions,
    ← decodeOptions]
  cases decodeOptions front <;> cases decodeOptions back <;> rfl

theorem EndpointUri.decode_eq (uri : JString) :
    EndpointUri.decode uri = (decodeOptions (afterFirst 63 uri)).map fun options =>
      ⟨beforeFirst 58 uri, afterFirst 58 (beforeFirst 63 uri), options⟩ := by
  rw [EndpointUri.decode]
  cases decodeOptions (afterFirst 63 uri) <;> rfl

/-- Decoding a URI that was put together from its parts. -/
theorem EndpointUri.decode_append {scheme address : JString} (hcolon : 58 ∉ scheme)
    (hscheme : 63 ∉ scheme) (haddress : 63 ∉ address) (query : JString) :
    EndpointUri.decode (scheme ++ 58 :: address ++ 63 :: query) =
      (decodeOptions query).map fun options => ⟨scheme, address, options⟩ := by
  have hfront : 63 ∉ scheme ++ 58 :: address := by
    rw [List.mem_append, List.mem_cons, not_or, not_or]
    exact ⟨hscheme, by decide, haddress⟩
  have hhead : beforeFirst 58 (scheme ++ 58 :: address ++ 63 :: query) = scheme := by
    rw [List.append_assoc]
    exact beforeFirst_append hcolon _
  rw [EndpointUri.decode_eq, afterFirst_append hfront, beforeFirst_append hfront,
    afterFirst_append hcolon, hhead]

/-- The option occurs once, with the value. -/
def Carries (options : List (JString × JString)) (name value : JString) : Prop :=
  options.filter (fun option => option.1 = name) = [(name, value)]

/-! ## Writing without encoding -/

/-- An option as it is written without encoding. -/
def optionText (option : JString × JString) : JString :=
  option.1 ++ 61 :: option.2

/-- No ampersand, percent sign or plus sign. -/
def Plain (s : JString) : Prop :=
  38 ∉ s ∧ 37 ∉ s ∧ 43 ∉ s

instance (s : JString) : Decidable (Plain s) :=
  inferInstanceAs (Decidable (_ ∧ _ ∧ _))

/-- A plain text without an equals sign. -/
def PlainName (s : JString) : Prop :=
  61 ∉ s ∧ Plain s

instance (s : JString) : Decidable (PlainName s) :=
  inferInstanceAs (Decidable (_ ∧ _))

theorem Plain.urlDecode_eq {s : JString} (h : Plain s) : urlDecode s = some s :=
  urlDecode_eq_self_iff.mpr h.2

theorem decodeOption_optionText {name : JString} (hname : PlainName name) (value : JString) :
    decodeOption (optionText (name, value)) = (urlDecode value).map (Prod.mk name) := by
  rw [decodeOption, optionText, beforeFirst_append hname.1, afterFirst_append hname.1,
    hname.2.urlDecode_eq]
  cases urlDecode value <;> rfl

/-- Options that are written one after the other with ampersands between. -/
def encodeOptions (options : List (JString × JString)) : JString :=
  List.intercalate [38] (options.map optionText)

/-- The parts of options that are written so, whatever they hold. -/
theorem splitOn_encodeOptions (option : JString × JString) (options : List (JString × JString)) :
    (encodeOptions (option :: options)).splitOn 38 =
      (option :: options).flatMap fun o => (optionText o).splitOn 38 := by
  rw [encodeOptions]
  induction options generalizing option with
  | nil => simp
  | cons next options ih =>
    rw [List.map_cons, List.map_cons, List.intercalate_cons_cons, List.append_assoc,
      List.singleton_append, List.splitOn_append_cons_self, ← List.map_cons, ih next,
      List.flatMap_cons]
    rfl

/-- Plain options come back as they were written. -/
theorem decodeOptions_encode {options : List (JString × JString)} (hne : options ≠ [])
    (h : ∀ o ∈ options, PlainName o.1 ∧ Plain o.2) :
    decodeOptions (encodeOptions options) = some options := by
  have hparts : (encodeOptions options).splitOn 38 = options.map optionText := by
    refine List.splitOn_intercalate 38 ?_ (by simpa using hne)
    rw [List.forall_mem_map]
    intro o ho
    rw [optionText, List.mem_append, List.mem_cons, not_or, not_or]
    exact ⟨(h o ho).1.2.1, by decide, (h o ho).2.1⟩
  rw [decodeOptions, hparts]
  clear hparts hne
  induction options with
  | nil => rfl
  | cons option options ih =>
    obtain ⟨hname, hvalue⟩ := h option List.mem_cons_self
    have hoption : decodeOption (optionText option) = some option := by
      refine (decodeOption_optionText hname option.2).trans ?_
      rw [hvalue.urlDecode_eq]
      rfl
    rw [List.map_cons, List.mapM_cons, hoption, ih fun o ho => h o (List.mem_cons_of_mem _ ho)]
    rfl

/-- Each part of a text that decodes is an option. -/
theorem exists_option_of_part {query : JString} {options : List (JString × JString)}
    (h : decodeOptions query = some options) {part : JString} (hpart : part ∈ query.splitOn 38) :
    ∃ option ∈ options, decodeOption part = some option := by
  rw [decodeOptions] at h
  generalize query.splitOn 38 = parts at h hpart
  induction parts generalizing options with
  | nil => cases hpart
  | cons first parts ih =>
    rw [List.mapM_cons] at h
    obtain ⟨option, hoption, h⟩ := Option.bind_eq_some_iff.mp h
    obtain ⟨rest, hrest, h⟩ := Option.bind_eq_some_iff.mp h
    cases h
    rcases List.mem_cons.mp hpart with rfl | hpart
    · exact ⟨option, List.mem_cons_self, hoption⟩
    · obtain ⟨other, hother, hdecode⟩ := ih hrest hpart
      exact ⟨other, List.mem_cons_of_mem _ hother, hdecode⟩

/-- A value that comes back unchanged from a text that it was written into is
plain.  The first part of the value is decoded to the whole value, and decoding
never makes a text longer, so there is only one part, and it is unchanged. -/
theorem plain_of_carries {query name value : JString} {options : List (JString × JString)}
    (hname : PlainName name) (hdecode : decodeOptions query = some options)
    (hparts : ∀ part ∈ (optionText (name, value)).splitOn 38, part ∈ query.splitOn 38)
    (hcarries : Carries options name value) : Plain value := by
  have hread : ∀ text, optionText (name, text) ∈ query.splitOn 38 →
      urlDecode text = some value := by
    intro text htext
    obtain ⟨option, hoption, hpart⟩ := exists_option_of_part hdecode htext
    rw [decodeOption_optionText hname] at hpart
    obtain ⟨decoded, hdecoded, rfl⟩ := Option.map_eq_some_iff.mp hpart
    have hmem : (name, decoded) ∈ options.filter fun option => option.1 = name :=
      List.mem_filter.mpr ⟨hoption, by simp⟩
    rw [hcarries, List.mem_singleton] at hmem
    cases hmem
    exact hdecoded
  have hone : ∀ text : JString, 38 ∉ text → 38 ∉ optionText (name, text) := by
    intro text htext
    rw [optionText, List.mem_append, List.mem_cons, not_or, not_or]
    exact ⟨hname.2.1, by decide, htext⟩
  by_cases hamp : 38 ∈ value
  · obtain ⟨text, back, rfl, htext⟩ := List.eq_append_cons_of_mem hamp
    have hsplit : (optionText (name, text ++ 38 :: back)).splitOn 38 =
        optionText (name, text) :: back.splitOn 38 := by
      rw [← List.splitOn_append_cons_self_of_not_mem (hone text htext), optionText, optionText,
        List.append_assoc]
      rfl
    have hfirst := hread text (hparts _ (by rw [hsplit]; exact List.mem_cons_self))
    have hlength := (length_urlDecodeFrom hfirst).1
    simp only [List.length_append, List.length_cons, List.length_nil] at hlength
    omega
  · have hsplit := List.splitOn_eq_singleton (hone value hamp)
    have hsame := hread value (hparts _ (by rw [hsplit]; exact List.mem_singleton_self _))
    exact ⟨hamp, urlDecode_eq_self_iff.mp hsame⟩

end BoundaryEventSdk.Camel
