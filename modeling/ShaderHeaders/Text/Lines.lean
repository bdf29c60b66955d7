/-!
# Lines of a text

A text is cut into lines at every newline byte; the newline belongs to neither side. A text
with `n` newlines has `n + 1` lines, so the empty text is one empty line and a text that ends
with a newline ends with an empty line (`length_lines`).
-/

namespace ShaderHeaders.Lines

/-- The lines of a byte string, cut at each newline. -/
def split : List UInt8 → List (List UInt8)
  | [] => [[]]
  | b :: bs =>
    match split bs with
    | l :: ls => if b = 10 then [] :: l :: ls else (b :: l) :: ls
    | [] => [[b]]

theorem split_ne_nil (bs : List UInt8) : split bs ≠ [] := by
  cases bs with
  | nil => simp [split]
  | cons b bs =>
    simp only [split]
    split
    · split <;> simp
    · simp

theorem length_lines (bs : List UInt8) : (split bs).length = bs.count 10 + 1 := by
  induction bs with
  | nil => rfl
  | cons b bs ih =>
    simp only [split]
    split
    · rename_i l ls h
      rw [h] at ih
      by_cases hb : b = 10
      · simp [hb] at ih ⊢; omega
      · simp only [hb, if_false, List.length_cons, List.count_cons, beq_iff_eq]
        simp only [List.length_cons] at ih
        simp; omega
    · rename_i h
      exact absurd h (split_ne_nil bs)

end ShaderHeaders.Lines
