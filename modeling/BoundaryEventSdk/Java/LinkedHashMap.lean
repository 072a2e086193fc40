import Mathlib.Data.List.Induction
import Mathlib.Data.List.Nodup
import Mathlib.Data.List.Perm.Subperm

/-!
# `java.util.LinkedHashMap`

A map is the list of its entries in insertion order, with the fact that no key
occurs twice.  The fact is a field, so a map with a repeated key cannot be
built and no lemma below takes it as a hypothesis.  A `HashMap` whose iteration
order nobody observes is the same type.

`get_put_self` and `get_put_of_ne` say what a `put` stores and what it leaves
alone, `mem_put` and `mem_remove` bound the entries after a change, and
`putAll_entries` is the rule for a loop that puts one entry for each entry of
another map.  For a loop over any pairs, `putAll_perm_iff` says when no pair is
lost, `mem_keys_putAll` which keys there are, and `get_putAll_perm` when the
order of the pairs does not matter.
-/

namespace BoundaryEventSdk.Java

variable {κ ν ω : Type} [DecidableEq κ]

/-- A map: its entries in insertion order, each key once. -/
@[ext] structure LinkedHashMap (κ ν : Type) where
  entries : List (κ × ν)
  nodup : (entries.map Prod.fst).Nodup
  deriving DecidableEq

namespace LinkedHashMap

/-- The new map. -/
def empty : LinkedHashMap κ ν := ⟨[], by simp⟩

instance : Inhabited (LinkedHashMap κ ν) := ⟨empty⟩

/-- `Map.get`, with `none` for an absent key. -/
def get (m : LinkedHashMap κ ν) (key : κ) : Option ν :=
  (m.entries.find? fun entry => entry.1 = key).map Prod.snd

/-- The entries after a `put`: the value of a present key is replaced where it
stands, an absent key goes to the end. -/
def putEntries (entries : List (κ × ν)) (key : κ) (value : ν) : List (κ × ν) :=
  if key ∈ entries.map Prod.fst then
    entries.map fun entry => if entry.1 = key then (key, value) else entry
  else entries ++ [(key, value)]

theorem keys_putEntries (entries : List (κ × ν)) (key : κ) (value : ν) :
    (putEntries entries key value).map Prod.fst =
      if key ∈ entries.map Prod.fst then entries.map Prod.fst
      else entries.map Prod.fst ++ [key] := by
  unfold putEntries
  split
  · rw [List.map_map]
    apply List.map_congr_left
    intro entry _
    by_cases h : entry.1 = key <;> simp [h]
  · simp

/-- `Map.put`. -/
def put (m : LinkedHashMap κ ν) (key : κ) (value : ν) : LinkedHashMap κ ν where
  entries := putEntries m.entries key value
  nodup := by
    rw [keys_putEntries]
    split
    · exact m.nodup
    · rename_i hnew
      refine List.nodup_append.mpr ⟨m.nodup, by simp, ?_⟩
      intro a ha b hb hab
      rw [List.mem_singleton.mp hb] at hab
      exact hnew (hab ▸ ha)

/-- `Map.remove`. -/
def remove (m : LinkedHashMap κ ν) (key : κ) : LinkedHashMap κ ν where
  entries := m.entries.filter fun entry => entry.1 ≠ key
  nodup := m.nodup.sublist (List.filter_sublist.map Prod.fst)

/-! ## Lookups -/

omit [DecidableEq κ] in
@[simp] theorem entries_empty : (empty : LinkedHashMap κ ν).entries = [] := rfl

@[simp] theorem get_empty (key : κ) : (empty : LinkedHashMap κ ν).get key = none := rfl

private theorem find?_eq_of_nodup {entries : List (κ × ν)} (hnodup : (entries.map Prod.fst).Nodup)
    {key : κ} {value : ν} (h : (key, value) ∈ entries) :
    entries.find? (fun entry => entry.1 = key) = some (key, value) := by
  induction entries with
  | nil => cases h
  | cons entry entries ih =>
    rw [List.map_cons, List.nodup_cons] at hnodup
    rcases List.mem_cons.mp h with rfl | h
    · simp
    · have hne : entry.1 ≠ key := by
        intro he
        exact hnodup.1 (he ▸ List.mem_map_of_mem h)
      rw [List.find?_cons_of_neg (by simpa using hne)]
      exact ih hnodup.2 h

theorem get_eq_some_iff {m : LinkedHashMap κ ν} {key : κ} {value : ν} :
    m.get key = some value ↔ (key, value) ∈ m.entries := by
  constructor
  · intro h
    obtain ⟨entry, hfind, hvalue⟩ := Option.map_eq_some_iff.mp h
    have hkey : entry.1 = key := by simpa using List.find?_some hfind
    have hmem : entry ∈ m.entries := List.mem_of_find?_eq_some hfind
    rwa [← hkey, ← hvalue]
  · intro h
    rw [get, find?_eq_of_nodup m.nodup h]
    rfl

/-! ## What a change does to the entries -/

theorem mem_put {m : LinkedHashMap κ ν} {key : κ} {value : ν} {entry : κ × ν} :
    entry ∈ (m.put key value).entries ↔
      entry = (key, value) ∨ entry ∈ m.entries ∧ entry.1 ≠ key := by
  simp only [put, putEntries]
  split
  · rename_i hkey
    obtain ⟨old, hold, hk⟩ := List.mem_map.mp hkey
    rw [List.mem_map]
    constructor
    · intro hentry
      obtain ⟨e, he, rfl⟩ := hentry
      by_cases hek : e.1 = key
      · exact Or.inl (by rw [if_pos hek])
      · rw [if_neg hek]
        exact Or.inr ⟨he, hek⟩
    · intro hentry
      rcases hentry with rfl | ⟨he, hne⟩
      · exact ⟨old, hold, by rw [if_pos hk]⟩
      · exact ⟨entry, he, by rw [if_neg hne]⟩
  · rename_i hkey
    rw [List.mem_append, List.mem_singleton]
    constructor
    · intro hentry
      rcases hentry with he | rfl
      · refine Or.inr ⟨he, ?_⟩
        intro hsame
        exact hkey (hsame ▸ List.mem_map_of_mem he)
      · exact Or.inl rfl
    · intro hentry
      rcases hentry with rfl | ⟨he, _⟩
      · exact Or.inr rfl
      · exact Or.inl he

theorem mem_remove {m : LinkedHashMap κ ν} {key : κ} {entry : κ × ν} :
    entry ∈ (m.remove key).entries ↔ entry ∈ m.entries ∧ entry.1 ≠ key := by
  simp [remove]

@[simp] theorem get_put_self (m : LinkedHashMap κ ν) (key : κ) (value : ν) :
    (m.put key value).get key = some value :=
  get_eq_some_iff.mpr (mem_put.mpr (Or.inl rfl))

theorem get_put_of_ne (m : LinkedHashMap κ ν) {key other : κ} (value : ν) (h : other ≠ key) :
    (m.put key value).get other = m.get other := by
  apply Option.ext
  intro v
  rw [get_eq_some_iff, get_eq_some_iff, mem_put]
  constructor
  · intro hentry
    rcases hentry with he | ⟨he, _⟩
    · exact absurd (congrArg Prod.fst he) h
    · exact he
  · intro he
    exact Or.inr ⟨he, h⟩

/-- The two cases of a lookup after a `put`. -/
theorem get_put (m : LinkedHashMap κ ν) (key other : κ) (value : ν) :
    (m.put key value).get other = if other = key then some value else m.get other := by
  split
  · rename_i h
    rw [h, get_put_self]
  · rename_i h
    exact get_put_of_ne m value h

/-! ## Loops of `put` -/

private theorem foldl_put_entries (f : κ → ν → ω) (entries : List (κ × ν)) :
    ∀ m : LinkedHashMap κ ω, (entries.map Prod.fst).Nodup →
      (∀ entry ∈ entries, entry.1 ∉ m.entries.map Prod.fst) →
      (entries.foldl (fun m entry => m.put entry.1 (f entry.1 entry.2)) m).entries =
        m.entries ++ entries.map fun entry => (entry.1, f entry.1 entry.2) := by
  induction entries with
  | nil =>
    intro m _ _
    simp
  | cons entry entries ih =>
    intro m hnodup hfresh
    rw [List.map_cons, List.nodup_cons] at hnodup
    have hput : (m.put entry.1 (f entry.1 entry.2)).entries =
        m.entries ++ [(entry.1, f entry.1 entry.2)] := by
      exact if_neg (hfresh entry List.mem_cons_self)
    rw [List.foldl_cons, ih _ hnodup.2, hput]
    · simp
    · intro other hother hmem
      rw [hput, List.map_append, List.mem_append] at hmem
      rcases hmem with hmem | hmem
      · exact hfresh other (List.mem_cons_of_mem _ hother) hmem
      · rw [List.map_singleton, List.mem_singleton] at hmem
        exact hnodup.1 (hmem ▸ List.mem_map_of_mem hother)

/-- A loop over the entries of a map that puts one entry under the same key
builds the entries of the map with their values changed. -/
theorem putAll_entries (m : LinkedHashMap κ ν) (f : κ → ν → ω) :
    (m.entries.foldl (fun acc entry => acc.put entry.1 (f entry.1 entry.2)) empty).entries =
      m.entries.map fun entry => (entry.1, f entry.1 entry.2) := by
  simpa using foldl_put_entries f m.entries empty m.nodup (by simp)

/-- What a loop of `put` leaves came from the map before it or from one of the
entries. -/
theorem mem_putAll {α : Type} {as : List α} {key : α → κ} {value : α → ν}
    {m : LinkedHashMap κ ν} {entry : κ × ν}
    (h : entry ∈ (as.foldl (fun acc a => acc.put (key a) (value a)) m).entries) :
    entry ∈ m.entries ∨ ∃ a ∈ as, entry = (key a, value a) := by
  induction as generalizing m with
  | nil => exact Or.inl h
  | cons a as ih =>
    rcases ih h with h | ⟨b, hb, he⟩
    · rcases mem_put.mp h with rfl | ⟨h, _⟩
      · exact Or.inr ⟨a, List.mem_cons_self, rfl⟩
      · exact Or.inl h
    · exact Or.inr ⟨b, List.mem_cons_of_mem a hb, he⟩

/-- A key whose occurrences in a loop of `put` all bring one value has that
value after it. -/
theorem get_putAll_of_unique {α : Type} {as : List α} (key : α → κ) (value : α → ν) {a : α}
    (ha : a ∈ as) (h : ∀ b ∈ as, key b = key a → value b = value a) (m : LinkedHashMap κ ν) :
    (as.foldl (fun acc a => acc.put (key a) (value a)) m).get (key a) = some (value a) := by
  induction as using List.reverseRecOn with
  | nil => cases ha
  | append_singleton as b ih =>
    rw [List.foldl_append, List.foldl_cons, List.foldl_nil, get_put]
    split
    · rename_i hkey
      rw [h b (by simp) hkey.symm]
    · rename_i hkey
      have hmem : a ∈ as := by
        rcases List.mem_append.mp ha with ha | ha
        · exact ha
        · exact absurd (congrArg key (List.mem_singleton.mp ha)) hkey
      exact ih hmem fun c hc => h c (List.mem_append_left _ hc)

/-- A loop of `put` leaves a key alone that it does not bring. -/
theorem get_putAll_of_forall_ne {α : Type} {as : List α} (key : α → κ) (value : α → ν) {other : κ}
    (h : ∀ a ∈ as, key a ≠ other) (m : LinkedHashMap κ ν) :
    (as.foldl (fun acc a => acc.put (key a) (value a)) m).get other = m.get other := by
  induction as generalizing m with
  | nil => rfl
  | cons a as ih =>
    rw [List.foldl_cons, ih fun b hb => h b (List.mem_cons_of_mem a hb),
      get_put_of_ne m (value a) (h a List.mem_cons_self).symm]

/-- The order of a loop of `put` does not matter to lookups when no key comes
with two values. -/
theorem get_putAll_perm {α : Type} {as bs : List α} (hperm : as.Perm bs) (key : α → κ)
    (value : α → ν) (h : ∀ a ∈ as, ∀ b ∈ as, key a = key b → value a = value b)
    (m : LinkedHashMap κ ν) (other : κ) :
    (as.foldl (fun acc a => acc.put (key a) (value a)) m).get other =
      (bs.foldl (fun acc a => acc.put (key a) (value a)) m).get other := by
  by_cases hkey : ∃ a ∈ as, key a = other
  · obtain ⟨a, ha, rfl⟩ := hkey
    rw [get_putAll_of_unique key value ha fun b hb => h b hb a ha,
      get_putAll_of_unique key value (hperm.mem_iff.mp ha) fun b hb =>
        h b (hperm.mem_iff.mpr hb) a ha]
  · have hne : ∀ a ∈ as, key a ≠ other := fun a ha ha' => hkey ⟨a, ha, ha'⟩
    rw [get_putAll_of_forall_ne key value hne,
      get_putAll_of_forall_ne key value fun b hb => hne b (hperm.mem_iff.mpr hb)]

/-- A loop of `put` keeps every pair exactly when no key comes twice. -/
theorem putAll_perm_iff {pairs : List (κ × ν)} :
    (pairs.foldl (fun acc pair => acc.put pair.1 pair.2) empty).entries.Perm pairs ↔
      (pairs.map Prod.fst).Nodup := by
  constructor
  · intro hperm
    exact (hperm.map Prod.fst).nodup_iff.mp (LinkedHashMap.nodup _)
  · intro hnodup
    have hentries := foldl_put_entries (fun _ value => value) pairs empty hnodup (by simp)
    simp only [entries_empty, List.nil_append, List.map_id'] at hentries
    rw [hentries]

/-- The number of entries tells whether a pair was lost. -/
theorem putAll_length_iff {pairs : List (κ × ν)} :
    (pairs.foldl (fun acc pair => acc.put pair.1 pair.2) empty).entries.length = pairs.length ↔
      (pairs.map Prod.fst).Nodup := by
  rw [← putAll_perm_iff]
  constructor
  · intro hlength
    have hnodup := List.Nodup.of_map Prod.fst
      (LinkedHashMap.nodup (pairs.foldl (fun acc pair => acc.put pair.1 pair.2) empty))
    refine (hnodup.subperm fun entry hentry => ?_).perm_of_length_le (Nat.le_of_eq hlength.symm)
    rcases mem_putAll hentry with hold | hpair
    · cases hold
    · obtain ⟨pair, hpair, rfl⟩ := hpair
      exact hpair
  · exact List.Perm.length_eq

theorem mem_keys_put {m : LinkedHashMap κ ν} {key other : κ} {value : ν} :
    other ∈ (m.put key value).entries.map Prod.fst ↔
      other ∈ m.entries.map Prod.fst ∨ other = key := by
  rw [put, keys_putEntries]
  split
  · rename_i hkey
    refine ⟨Or.inl, fun h => ?_⟩
    rcases h with h | rfl
    · exact h
    · exact hkey
  · rw [List.mem_append, List.mem_singleton]

/-- The keys after a loop of `put`. -/
theorem mem_keys_putAll {pairs : List (κ × ν)} {m : LinkedHashMap κ ν} {key : κ} :
    key ∈ (pairs.foldl (fun acc pair => acc.put pair.1 pair.2) m).entries.map Prod.fst ↔
      key ∈ m.entries.map Prod.fst ∨ key ∈ pairs.map Prod.fst := by
  induction pairs generalizing m with
  | nil => simp
  | cons pair pairs ih =>
    rw [List.foldl_cons, ih, mem_keys_put, List.map_cons, List.mem_cons, or_assoc]

end LinkedHashMap

end BoundaryEventSdk.Java
