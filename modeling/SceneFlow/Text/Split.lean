/-!
# Texts in parts

The parts of a text between the occurrences of one character.
-/

namespace SceneFlow.Text

/-- The parts of a text between its separators. There is one more of them than of the
separators. -/
def split (separator : Char) : List Char → List (List Char)
  | [] => [[]]
  | c :: rest =>
    match split separator rest with
    | [] => [[c]]
    | part :: parts => if c = separator then [] :: part :: parts else (c :: part) :: parts

theorem split_ne_nil (separator : Char) (cs : List Char) : split separator cs ≠ [] := by
  cases cs with
  | nil => simp [split]
  | cons c rest =>
    unfold split
    split
    · simp
    · split <;> simp

theorem split_length (separator : Char) (cs : List Char) :
    (split separator cs).length = cs.count separator + 1 := by
  induction cs with
  | nil => rfl
  | cons c rest ih =>
    unfold split
    split
    · rename_i h
      exact absurd h (split_ne_nil separator rest)
    · rename_i part parts h
      rw [h] at ih
      by_cases hc : c = separator
      · subst hc
        simpa using ih
      · simpa [hc] using ih

end SceneFlow.Text
