import Mathlib
import SceneFlow.Text.Blank

/-!
# Texts between white space

White space is removed at both ends of a text, and nothing else is.

## Main results

* `Text.exists_trim`: what is removed is white space at the ends.
* `Text.trim_append`: a text without white space is what is left of it between white space.
-/

namespace SceneFlow.Text

/-- What is removed is white space at the ends. -/
theorem exists_trim (cs : List Char) : ∃ before behind, cs = before ++ trim cs ++ behind ∧
    ∀ c ∈ before ++ behind, isBlank c = true := by
  let rest := cs.dropWhile isBlank
  refine ⟨cs.takeWhile isBlank, rest.rtakeWhile isBlank, ?_, fun c hc => ?_⟩
  · rw [List.append_assoc]
    change cs = cs.takeWhile isBlank ++ (rest.rdropWhile isBlank ++ rest.rtakeWhile isBlank)
    rw [List.rdropWhile_append_rtakeWhile, List.takeWhile_append_dropWhile]
  · rcases List.mem_append.mp hc with hc | hc
    · exact List.mem_takeWhile_imp hc
    · exact List.mem_rtakeWhile_imp hc

/-- A text without white space is what is left of it between white space. -/
theorem trim_append {before body behind : List Char}
    (hblank : ∀ c ∈ before ++ behind, isBlank c = true) (hbody : ∀ c ∈ body, isBlank c = false) :
    trim (before ++ body ++ behind) = body := by
  rw [List.forall_mem_append] at hblank
  have hkeep : ∀ {cs : List Char}, (∀ c ∈ cs, isBlank c = false) → cs.dropWhile isBlank = cs := by
    intro cs hcs
    cases cs with
    | nil => rfl
    | cons c cs => rw [List.dropWhile_cons_of_neg (by simp [hcs c List.mem_cons_self])]
  rw [trim, List.append_assoc, List.dropWhile_append_of_pos hblank.1]
  cases body with
  | nil =>
    rw [List.nil_append, List.dropWhile_eq_nil_iff.mpr hblank.2]
    rfl
  | cons c body =>
    rw [List.cons_append,
      List.dropWhile_cons_of_neg (by simp [hbody c List.mem_cons_self]), ← List.cons_append,
      List.reverse_append,
      List.dropWhile_append_of_pos fun d hd => hblank.2 d (List.mem_reverse.mp hd),
      hkeep fun d hd => hbody d (List.mem_reverse.mp hd), List.reverse_reverse]

/-- Where nothing is white space, nothing is removed. -/
theorem trim_eq_self {cs : List Char} (h : ∀ c ∈ cs, isBlank c = false) : trim cs = cs := by
  have hnone : ∀ c ∈ ([] ++ [] : List Char), isBlank c = true := by simp
  simpa using trim_append hnone h

end SceneFlow.Text
