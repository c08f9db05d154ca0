import Mathlib.Data.List.Basic

/-!
Cutting a text at every occurrence of a character. The pieces are those texts without the character
that joined with it between them give the text back, and there is one more of them than there are
occurrences.
-/

namespace RouteCompiler

/-- No piece has the mark that the text was cut at. -/
theorem notMem_of_mem_splitOn {d : Char} {cs piece : List Char} (h : piece ∈ cs.splitOn d) :
    d ∉ piece := by
  induction cs generalizing piece with
  | nil =>
    rw [List.mem_singleton.1 h]
    exact List.not_mem_nil
  | cons c cs ih =>
    rw [List.splitOn_cons_eq_if_modifyHead] at h
    by_cases hc : c = d
    · rw [if_pos (beq_iff_eq.2 hc)] at h
      obtain rfl | h := List.mem_cons.1 h
      · exact List.not_mem_nil
      · exact ih h
    · rw [if_neg fun hb => hc (beq_iff_eq.1 hb)] at h
      obtain ⟨first, rest, hsplit⟩ := List.exists_cons_of_ne_nil (List.splitOn_ne_nil d cs)
      rw [hsplit] at h ih
      obtain rfl | h := List.mem_cons.1 h
      · rw [List.mem_cons, not_or]
        exact ⟨Ne.symm hc, ih List.mem_cons_self⟩
      · exact ih (List.mem_cons_of_mem _ h)

theorem splitOn_eq_iff {d : Char} {cs : List Char} {pieces : List (List Char)} :
    cs.splitOn d = pieces ↔
      pieces ≠ [] ∧ (∀ piece ∈ pieces, d ∉ piece) ∧ cs = [d].intercalate pieces := by
  constructor
  · rintro rfl
    exact ⟨List.splitOn_ne_nil d cs, fun _ h => notMem_of_mem_splitOn h,
      (List.intercalate_splitOn d).symm⟩
  · rintro ⟨hne, hpieces, rfl⟩
    exact List.splitOn_intercalate d hpieces hne

theorem length_splitOn (d : Char) (cs : List Char) :
    (cs.splitOn d).length = cs.count d + 1 := by
  induction cs with
  | nil => rfl
  | cons c cs ih =>
    rw [List.splitOn_cons_eq_if_modifyHead, List.count_cons]
    split
    · rw [List.length_cons, ih]
    · rw [List.length_modifyHead, ih]

end RouteCompiler
