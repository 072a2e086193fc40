import Mathlib.Data.List.Basic

/-!
# The words of a text

`words p s` are the maximal stretches of `s` without a separator, in their
order.  Separators are given by `p`.  The text before a separator and the text
after it have their words apart (`words_append_separator`), and a text function
that treats the text from the left is followed over a front part that it has
already passed.
-/

namespace BoundaryEventSdk.Java

section Words

variable {α : Type} {p : α → Bool}

/-- The maximal stretches without a separator. -/
def words (p : α → Bool) (s : List α) : List (List α) :=
  (s.splitOnP p).filter fun word => !word.isEmpty

@[simp] theorem words_nil : words p [] = [] := rfl

/-- No word reaches over a separator. -/
theorem words_append_separator {a : α} (ha : p a = true) (front rest : List α) :
    words p (front ++ a :: rest) = words p front ++ words p rest := by
  rw [words, List.splitOnP_append_cons front rest ha, List.filter_append]
  rfl

/-- A separator in front adds no word. -/
theorem words_cons_separator {a : α} (ha : p a = true) (rest : List α) :
    words p (a :: rest) = words p rest := by
  have hsplit := words_append_separator ha [] rest
  rwa [List.nil_append, words_nil, List.nil_append] at hsplit

/-- A separator may be exchanged for another one. -/
theorem words_append_map {f : α → α} (hseparator : ∀ a, p (f a) = p a)
    (hletter : ∀ a, p a = false → f a = a) (front s : List α) :
    words p (front ++ s.map f) = words p (front ++ s) := by
  induction s generalizing front with
  | nil => rfl
  | cons a s ih =>
    rw [List.map_cons]
    cases ha : p a with
    | true =>
      have hrest := ih []
      rw [List.nil_append, List.nil_append] at hrest
      rw [words_append_separator ((hseparator a).trans ha), words_append_separator ha, hrest]
    | false =>
      have hrest := ih (front ++ [a])
      rw [List.append_assoc, List.append_assoc, List.singleton_append,
        List.singleton_append] at hrest
      rw [hletter a ha, hrest]

end Words

end BoundaryEventSdk.Java
