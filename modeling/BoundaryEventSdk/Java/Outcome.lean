import Mathlib.Data.List.Basic
import Mathlib.Data.List.Induction

/-!
# Exceptions and runs of calls

A Java method either returns or throws, and the fields it wrote before it
threw keep their new values.  There are two shapes of model for that.

* `Except Throwable α` is for a computation whose intermediate state nobody
  sees after a throw.
* `Outcome σ` is for a method of an object: the state the object is left in,
  and what was thrown, if anything.

A loop whose body may throw is a `foldlM` in `Except`.  `foldlM_invariant`
carries an invariant to the end of a loop that returned, `foldlM_total` shows
besides that the loop returns, and `foldlM_ok_iff` says when it does.
`foldlM_nested` makes one loop of a loop with an inner loop over a list that
may be missing.

A client of an object makes one call after another and may catch what a call
throws, so a run is a fold of the states and goes on after a throw.  `run` is
that fold, and `history` is what an observer writes down along it.
`run_invariant` and `run_related` are the two induction rules of a run: the
first carries an invariant, under a condition on the calls, and the second a
relation between the state and the history.  `run_invariant_iff` says when an
invariant holds all along a run.  `run_lastWriter` is for a part of the state
that some calls overwrite and the others leave alone.
-/

namespace BoundaryEventSdk.Java

/-- The exceptions that the modelled code throws. -/
inductive Throwable where
  | nullPointer
  | numberFormat
  | illegalArgument
  | unsupportedOperation
  | arrayIndexOutOfBounds
  | stringIndexOutOfBounds
  | patternSyntax
  | typeError
  deriving DecidableEq, Repr

/-- What a method call leaves behind: the state, and what it threw. -/
structure Outcome (σ : Type) where
  state : σ
  thrown : Option Throwable := none
  deriving DecidableEq, Repr

/-- The state is the same if the call threw. -/
def Outcome.Atomic {σ : Type} (before : σ) (after : Outcome σ) : Prop :=
  after.thrown ≠ none → after.state = before

theorem Outcome.atomic_of_returned {σ : Type} {before : σ} {after : Outcome σ}
    (h : after.thrown = none) : Outcome.Atomic before after :=
  fun hthrown => absurd h hthrown

theorem Outcome.atomic_threw_iff {σ : Type} {before after : σ} {e : Throwable} :
    Outcome.Atomic before { state := after, thrown := some e } ↔ after = before := by
  constructor
  · intro h
    exact h (Option.some_ne_none e)
  · intro h _
    exact h

/-- A field that is overwritten leaves the object as it was exactly when it had
the new value. -/
theorem update_eq_self_iff {σ υ : Type} (read : σ → υ) (update : σ → υ → σ)
    (hread : ∀ s value, read (update s value) = value) (hself : ∀ s, update s (read s) = s)
    (s : σ) (value : υ) : update s value = s ↔ read s = value := by
  constructor
  · intro h
    rw [← h, hread]
  · intro h
    rw [← h, hself]

/-- Dereference of a reference that may be `null`. -/
def deref {α : Type} (ref : Option α) : Except Throwable α :=
  match ref with
  | some a => .ok a
  | none => .error .nullPointer

@[simp] theorem deref_some {α : Type} (a : α) : deref (some a) = .ok a := rfl

@[simp] theorem deref_none {α : Type} :
    deref (none : Option α) = .error .nullPointer := rfl

/-! ## Loops that may throw -/

section Loops

variable {ε α β σ : Type}

@[simp] theorem ok_bind (a : α) (f : α → Except ε β) : (Except.ok a >>= f) = f a := rfl

@[simp] theorem error_bind (e : ε) (f : α → Except ε β) : (Except.error e >>= f) = .error e := rfl

/-- The steps of a computation that returned. -/
theorem bind_eq_ok {x : Except ε α} {f : α → Except ε β} {b : β} :
    x >>= f = .ok b ↔ ∃ a, x = .ok a ∧ f a = .ok b := by
  cases x with
  | error e => simp [bind, Except.bind]
  | ok a => simp [bind, Except.bind]

/-- A computation returns when each of its steps does. -/
theorem exists_bind_eq_ok {x : Except ε α} {f : α → Except ε β} :
    (∃ b, x >>= f = .ok b) ↔ ∃ a, x = .ok a ∧ ∃ b, f a = .ok b := by
  simp only [bind_eq_ok]
  exact ⟨fun ⟨b, a, ha, hb⟩ => ⟨a, ha, b, hb⟩, fun ⟨a, ha, b, hb⟩ => ⟨b, a, ha, hb⟩⟩

/-- What each iteration keeps holds after a loop that returned.  The invariant
speaks of the elements done so far. -/
theorem foldlM_invariant {step : σ → α → Except ε σ} (Inv : List α → σ → Prop) {s s' : σ}
    (hinit : Inv [] s)
    (hstep : ∀ front a s s', Inv front s → step s a = .ok s' → Inv (front ++ [a]) s')
    {as : List α} (h : as.foldlM step s = .ok s') : Inv as s' := by
  suffices hgen : ∀ front s, Inv front s → as.foldlM step s = .ok s' → Inv (front ++ as) s' from
    hgen [] s hinit h
  clear h hinit
  induction as with
  | nil =>
    intro front s hs h
    cases h
    simpa using hs
  | cons a as ih =>
    intro front s hs h
    rw [List.foldlM_cons, bind_eq_ok] at h
    obtain ⟨next, hnext, hrest⟩ := h
    simpa using ih (front ++ [a]) next (hstep front a s next hs hnext) hrest

/-- A loop whose iterations return, and keep an invariant of the elements done
so far, returns in a state with the invariant. -/
theorem foldlM_total {step : σ → α → Except ε σ} (Inv : List α → σ → Prop) {s : σ}
    (hinit : Inv [] s) {as : List α}
    (hstep : ∀ front a s, a ∈ as → Inv front s → ∃ s', step s a = .ok s' ∧ Inv (front ++ [a]) s') :
    ∃ s', as.foldlM step s = .ok s' ∧ Inv as s' := by
  suffices hgen : ∀ rest, (∀ a ∈ rest, a ∈ as) → ∀ front s, Inv front s →
      ∃ s', rest.foldlM step s = .ok s' ∧ Inv (front ++ rest) s' from
    hgen as (fun _ ha => ha) [] s hinit
  intro rest
  induction rest with
  | nil =>
    intro _ front s hs
    exact ⟨s, rfl, by simpa using hs⟩
  | cons a rest ih =>
    intro hmem front s hs
    obtain ⟨next, hnext, hinv⟩ := hstep front a s (hmem a List.mem_cons_self) hs
    obtain ⟨s', hs', hdone⟩ :=
      ih (fun b hb => hmem b (List.mem_cons_of_mem a hb)) (front ++ [a]) next hinv
    refine ⟨s', ?_, by simpa using hdone⟩
    rw [List.foldlM_cons, hnext]
    exact hs'

/-- A loop returns exactly when each element allows it, if whether an iteration
returns depends on the element alone. -/
theorem foldlM_ok_iff {step : σ → α → Except ε σ} {Allows : α → Prop}
    (hstep : ∀ s a, (∃ s', step s a = .ok s') ↔ Allows a) {as : List α} {s : σ} :
    (∃ s', as.foldlM step s = .ok s') ↔ ∀ a ∈ as, Allows a := by
  induction as generalizing s with
  | nil => exact ⟨fun _ _ ha => absurd ha List.not_mem_nil, fun _ => ⟨s, rfl⟩⟩
  | cons a as ih =>
    rw [List.foldlM_cons, exists_bind_eq_ok, List.forall_mem_cons, ← hstep s a]
    constructor
    · intro hreturns
      obtain ⟨next, hnext, hrest⟩ := hreturns
      exact ⟨⟨next, hnext⟩, ih.mp hrest⟩
    · intro hreturns
      obtain ⟨⟨next, hnext⟩, hrest⟩ := hreturns
      exact ⟨next, hnext, ih.mpr hrest⟩

/-- A loop that returned has one result for each element. -/
theorem mapM_ok {f : α → Except ε β} {as : List α} {bs : List β} (h : as.mapM f = .ok bs) :
    bs.length = as.length ∧ ∀ b ∈ bs, ∃ a ∈ as, f a = .ok b := by
  induction as generalizing bs with
  | nil =>
    cases h
    simp
  | cons a as ih =>
    rw [List.mapM_cons, bind_eq_ok] at h
    obtain ⟨b, hb, h⟩ := h
    rw [bind_eq_ok] at h
    obtain ⟨rest, hrest, h⟩ := h
    cases h
    obtain ⟨hlength, hresults⟩ := ih hrest
    refine ⟨congrArg (· + 1) hlength, fun c hc => ?_⟩
    rcases List.mem_cons.mp hc with rfl | hc
    · exact ⟨a, List.mem_cons_self, hb⟩
    · obtain ⟨d, hd, hdc⟩ := hresults c hc
      exact ⟨d, List.mem_cons_of_mem a hd, hdc⟩

/-- The pairs that a nested loop visits: the chosen elements, each with the
members of its list. -/
def visits (choose : α → Bool) (field : α → Option (List β)) (as : List α) : List (α × β) :=
  (as.filter choose).flatMap fun a => ((field a).getD []).map (Prod.mk a)

theorem mem_visits {choose : α → Bool} {field : α → Option (List β)} {as : List α} {a : α} {b : β} :
    (a, b) ∈ visits choose field as ↔
      a ∈ as ∧ choose a = true ∧ ∃ bs, field a = some bs ∧ b ∈ bs := by
  simp only [visits, List.mem_flatMap, List.mem_filter, List.mem_map, Prod.mk.injEq]
  constructor
  · intro hvisit
    obtain ⟨a, ⟨ha, hchoose⟩, b, hb, rfl, rfl⟩ := hvisit
    cases hfield : field a with
    | none => simp [hfield] at hb
    | some bs => exact ⟨ha, hchoose, bs, rfl, by simpa [hfield] using hb⟩
  · intro hvisit
    obtain ⟨ha, hchoose, bs, hfield, hb⟩ := hvisit
    exact ⟨a, ⟨ha, hchoose⟩, b, by simpa [hfield] using hb, rfl, rfl⟩

theorem visits_filter (choose keep : α → Bool) (field : α → Option (List β)) (as : List α) :
    visits choose field (as.filter keep) =
      (visits choose field as).filter fun visit => keep visit.1 := by
  have hkeep : ∀ a, ((((field a).getD []).map (Prod.mk a)).filter fun visit => keep visit.1) =
      if keep a then ((field a).getD []).map (Prod.mk a) else [] := by
    intro a
    rw [List.filter_map]
    by_cases ha : keep a = true
    · simp [Function.comp_def, ha]
    · simp [Function.comp_def, ha]
  rw [visits, visits, List.filter_flatMap, List.filter_filter]
  simp only [hkeep]
  induction as with
  | nil => rfl
  | cons a as ih =>
    by_cases hchoose : choose a = true <;> by_cases ha : keep a = true <;>
      simp [hchoose, ha, ih]

/-- No chosen element lacks its list. -/
def Present (choose : α → Bool) (field : α → Option (List β)) (as : List α) : Prop :=
  ∀ a ∈ as, choose a = true → (field a).isSome = true

instance (choose : α → Bool) (field : α → Option (List β)) (as : List α) :
    Decidable (Present choose field as) :=
  inferInstanceAs (Decidable (∀ a ∈ as, _))

/-- A loop over the chosen elements with an inner loop over a list of each is
one loop over the visited pairs.  It throws when a chosen element has no
list. -/
theorem foldlM_nested (choose : α → Bool) (field : α → Option (List β)) (body : α → σ → β → σ)
    (as : List α) (s : σ) :
    as.foldlM (fun s a =>
        if choose a then (deref (field a)).map (fun bs => bs.foldl (body a) s) else .ok s) s =
      if Present choose field as then
        .ok ((visits choose field as).foldl (fun s visit => body visit.1 s visit.2) s)
      else .error .nullPointer := by
  induction as generalizing s with
  | nil => rfl
  | cons a as ih =>
    have hpresent : Present choose field (a :: as) ↔
        (choose a = true → (field a).isSome = true) ∧ Present choose field as :=
      List.forall_mem_cons
    rw [List.foldlM_cons]
    by_cases ha : choose a = true
    · rw [if_pos ha]
      cases hfield : field a with
      | none =>
        rw [if_neg fun h => absurd ((hpresent.mp h).1 ha) (by simp [hfield])]
        rfl
      | some bs =>
        have hvisits : visits choose field (a :: as) =
            bs.map (Prod.mk a) ++ visits choose field as := by
          simp [visits, List.filter_cons_of_pos ha, hfield]
        rw [deref_some, hvisits, List.foldl_append, List.foldl_map]
        refine (ih (bs.foldl (body a) s)).trans ?_
        by_cases has : Present choose field as
        · rw [if_pos has, if_pos (hpresent.mpr ⟨fun _ => by simp [hfield], has⟩)]
        · rw [if_neg has, if_neg fun h => has (hpresent.mp h).2]
    · have hvisits : visits choose field (a :: as) = visits choose field as := by
        simp [visits, List.filter_cons_of_neg ha]
      rw [if_neg ha, hvisits]
      refine (ih s).trans ?_
      by_cases has : Present choose field as
      · rw [if_pos has, if_pos (hpresent.mpr ⟨fun h => absurd h ha, has⟩)]
      · rw [if_neg has, if_neg fun h => has (hpresent.mp h).2]

end Loops

/-! ## Runs -/

section Runs

variable {σ τ κ : Type}

/-- The state after a list of calls. -/
def run (step : σ → κ → σ) (s : σ) (calls : List κ) : σ :=
  calls.foldl step s

@[simp] theorem run_nil (step : σ → κ → σ) (s : σ) : run step s [] = s := rfl

@[simp] theorem run_cons (step : σ → κ → σ) (s : σ) (c : κ) (calls : List κ) :
    run step s (c :: calls) = run step (step s c) calls := rfl

/-- An invariant that every allowed call keeps holds after every run of
allowed calls. -/
theorem run_invariant {step : σ → κ → σ} (Inv : σ → Prop) (Allowed : κ → Prop)
    (hstep : ∀ s c, Inv s → Allowed c → Inv (step s c)) {s : σ} (hs : Inv s)
    {calls : List κ} (hcalls : ∀ c ∈ calls, Allowed c) :
    Inv (run step s calls) := by
  induction calls generalizing s with
  | nil => exact hs
  | cons c calls ih =>
    exact ih (hstep s c hs (hcalls c List.mem_cons_self))
      (fun d hd => hcalls d (List.mem_cons_of_mem c hd))

@[simp] theorem run_concat (step : σ → κ → σ) (s : σ) (calls : List κ) (c : κ) :
    run step s (calls ++ [c]) = step (run step s calls) c := by
  rw [run, List.foldl_append, List.foldl_cons, List.foldl_nil, ← run]

/-- An invariant holds all along a run exactly when it holds at the start and
every call of the run keeps it, if it can be said of a call whether it does. -/
theorem run_invariant_iff {step : σ → κ → σ} (Inv : σ → Prop) (Keeps : σ → κ → Prop)
    (hstep : ∀ s c, Inv s → (Inv (step s c) ↔ Keeps s c)) {s : σ} {calls : List κ} :
    (∀ front, front <+: calls → Inv (run step s front)) ↔
      Inv s ∧ ∀ front c, front ++ [c] <+: calls → Keeps (run step s front) c := by
  constructor
  · intro hrun
    refine ⟨hrun [] List.nil_prefix, fun front c hfront => ?_⟩
    have hbefore : Inv (run step s front) :=
      hrun front ((List.prefix_append front [c]).trans hfront)
    have hafter : Inv (step (run step s front) c) := by
      rw [← run_concat step s front c]
      exact hrun (front ++ [c]) hfront
    exact (hstep (run step s front) c hbefore).mp hafter
  · intro hkeeps front
    obtain ⟨hstart, hcalls⟩ := hkeeps
    induction front using List.reverseRecOn with
    | nil =>
      intro _
      exact hstart
    | append_singleton front c ih =>
      intro hfront
      have hbefore := ih ((List.prefix_append front [c]).trans hfront)
      rw [run_concat]
      exact (hstep (run step s front) c hbefore).mpr (hcalls front c hfront)

/-- What the writing calls agree on is there after the run, if one of them is a
writing call. -/
theorem run_lastWriter {υ : Type} {step : σ → κ → σ} (read : σ → υ) {writes : κ → Bool}
    {value : κ → υ} (hstep : ∀ s c, read (step s c) = if writes c then value c else read s)
    {calls : List κ} {written : υ} (hwriters : ∀ c ∈ calls, writes c = true → value c = written)
    (hsome : ∃ c ∈ calls, writes c = true) (s : σ) : read (run step s calls) = written := by
  suffices hgen : ∀ s, (read s = written ∨ ∃ c ∈ calls, writes c = true) →
      read (run step s calls) = written from hgen s (Or.inr hsome)
  clear hsome
  induction calls with
  | nil =>
    intro s h
    rcases h with h | ⟨c, hc, _⟩
    · exact h
    · cases hc
  | cons c calls ih =>
    intro s h
    refine ih (fun d hd => hwriters d (List.mem_cons_of_mem c hd)) (step s c) ?_
    rw [hstep]
    by_cases hc : writes c = true
    · exact Or.inl (by rw [if_pos hc, hwriters c List.mem_cons_self hc])
    · rw [if_neg hc]
      rcases h with h | ⟨d, hd, hwrites⟩
      · exact Or.inl h
      · rcases List.mem_cons.mp hd with rfl | hd
        · exact absurd hwrites hc
        · exact Or.inr ⟨d, hd, hwrites⟩

/-- A history that is kept beside a run: `trace` updates it from the state and
the call. -/
def history (step : σ → κ → σ) (trace : σ → τ → κ → τ) : σ → τ → List κ → τ
  | _, t, [] => t
  | s, t, c :: calls => history step trace (step s c) (trace s t c) calls

/-- A state and a history that stay related over each call are related after
each run. -/
theorem run_related {step : σ → κ → σ} {trace : σ → τ → κ → τ} (R : σ → τ → Prop)
    (hstep : ∀ s t c, R s t → R (step s c) (trace s t c)) {s : σ} {t : τ} (h : R s t)
    (calls : List κ) : R (run step s calls) (history step trace s t calls) := by
  induction calls generalizing s t with
  | nil => exact h
  | cons c calls ih => exact ih (hstep s t c h)

end Runs

end BoundaryEventSdk.Java
