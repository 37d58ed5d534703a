/-!
# Runs of characters

A reader that takes characters of one class takes a run of them, and stops where the run stops.

Results:

* `takeWhile_append_of_stops`, `dropWhile_append_of_stops`: what is taken, and what is left.
-/

namespace ConsentGate.Text

variable {α : Type} {p : α → Bool} {run rest : List α}

theorem takeWhile_of_stops (h : ∀ a, rest.head? = some a → p a = false) :
    rest.takeWhile p = [] := by
  cases rest with
  | nil => rfl
  | cons a rest => simp [h a rfl]

theorem dropWhile_of_stops (h : ∀ a, rest.head? = some a → p a = false) :
    rest.dropWhile p = rest := by
  cases rest with
  | nil => rfl
  | cons a rest => simp [h a rfl]

theorem takeWhile_append_of_stops (hrun : ∀ a ∈ run, p a = true)
    (hrest : ∀ a, rest.head? = some a → p a = false) : (run ++ rest).takeWhile p = run := by
  rw [List.takeWhile_append_of_pos hrun, takeWhile_of_stops hrest, List.append_nil]

theorem dropWhile_append_of_stops (hrun : ∀ a ∈ run, p a = true)
    (hrest : ∀ a, rest.head? = some a → p a = false) : (run ++ rest).dropWhile p = rest := by
  rw [List.dropWhile_append_of_pos hrun, dropWhile_of_stops hrest]

end ConsentGate.Text
