/-! Lists kept in order. -/
namespace GateScript

/-- Puts an element before the first one that it precedes. -/
def insertOrdered {α : Type} (precedes : α → α → Bool) (a : α) : List α → List α
  | [] => [a]
  | x :: xs => if precedes a x then a :: x :: xs else x :: insertOrdered precedes a xs

theorem mem_insertOrdered {α : Type} {precedes : α → α → Bool} {a x : α} {xs : List α} :
    x ∈ insertOrdered precedes a xs ↔ x = a ∨ x ∈ xs := by
  induction xs with
  | nil => simp [insertOrdered]
  | cons y ys ih =>
    simp only [insertOrdered]
    split
    · simp
    · simp only [List.mem_cons, ih]
      constructor
      · rintro (h | h | h) <;> simp [h]
      · rintro (h | h | h) <;> simp [h]

theorem length_insertOrdered {α : Type} (precedes : α → α → Bool) (a : α) (xs : List α) :
    (insertOrdered precedes a xs).length = xs.length + 1 := by
  induction xs with
  | nil => rfl
  | cons x xs ih =>
    rw [insertOrdered]
    split
    · rfl
    · simp [ih]

end GateScript
