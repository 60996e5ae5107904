import Mathlib.Data.String.Basic
import Workgraph.Value.Path
/-!
# Texts in parts

Splitting a text at a character is splitting its list of characters (`splitOn_singleton`). The character is
left in none of the parts (`not_mem_of_mem_splitOn`). The segments of a path are such parts (`segments_eq`).
-/

namespace Workgraph.Text

open String in
/-- What splitting comes to from a place of the text. Behind `l` a part has been begun with `m`, and
`r` is left. -/
theorem splitOnAux_singleton (sep : Char) (l m r : List Char) (acc : List String) :
    splitOnAux (ofList (l ++ m ++ r)) (ofList [sep]) ⟨utf8Len l⟩ ⟨utf8Len l + utf8Len m⟩ 0 acc =
      acc.reverse ++ (List.splitOnPPrepend (· == sep) r m.reverse).map ofList := by
  have hatEnd := atEnd_of_valid (l ++ m) r
  have hpart := extract_of_valid l m r
  rw [utf8Len_append] at hatEnd
  rw [splitOnAux]
  match r with
  | [] =>
    rw [if_pos (hatEnd.2 rfl), hpart]
    simp
  | c :: r =>
    have hget := get_of_valid (l ++ m) (c :: r)
    have hstep := next_of_valid (l ++ m) c r
    rw [utf8Len_append] at hget hstep
    have hsep : Pos.Raw.get (ofList [sep]) 0 = sep := get_of_valid [] [sep]
    have hnext : Pos.Raw.next (ofList [sep]) 0 = ⟨sep.utf8Size⟩ := by
      simpa using next_of_valid [] sep []
    have hend : Pos.Raw.atEnd (ofList [sep]) ⟨sep.utf8Size⟩ = true := by
      simpa using (atEnd_of_valid [sep] []).2 rfl
    have hback (i : Pos.Raw) : i.unoffsetBy 0 = i := by
      simp [Pos.Raw.unoffsetBy]
    rw [if_neg fun h => List.cons_ne_nil c r (hatEnd.1 h), hget, hsep, hstep, hnext]
    simp only [hend, hback, List.headD_cons, List.splitOnPPrepend_cons_eq_if]
    by_cases hc : c = sep
    · subst hc
      -- The part ends before the separator, and the next one starts behind it.
      have hplace : (⟨utf8Len l + utf8Len m + c.utf8Size⟩ : Pos.Raw).unoffsetBy ⟨c.utf8Size⟩ =
          ⟨utf8Len l + utf8Len m⟩ := by
        simp [Pos.Raw.unoffsetBy]
      have hrest := splitOnAux_singleton c (l ++ m ++ [c]) [] r (ofList m :: acc)
      simp only [beq_self_eq_true, if_true, hplace, hpart]
      simpa [Nat.add_assoc] using hrest
    · have hrest := splitOnAux_singleton sep l (m ++ [c]) r acc
      simp only [beq_iff_eq, hc, if_false, hstep]
      simpa [Nat.add_assoc] using hrest

/-- **Splitting a text is splitting its list of characters.** -/
theorem splitOn_singleton (s : String) (sep : Char) :
    s.splitOn (String.ofList [sep]) = (s.toList.splitOn sep).map String.ofList := by
  have hne : (String.ofList [sep] == "") = false := by simp
  have h := splitOnAux_singleton sep [] [] s.toList []
  rw [String.splitOn, hne, List.splitOn]
  simpa using h

/-- No part that a list is split into has the separator in it. -/
theorem not_mem_of_mem_splitOn {sep : Char} {cs part : List Char} (h : part ∈ cs.splitOn sep) :
    sep ∉ part := by
  induction cs generalizing part with
  | nil =>
    rw [List.splitOn_nil, List.mem_singleton] at h
    rw [h]
    exact List.not_mem_nil
  | cons c cs ih =>
    rw [List.splitOn_cons_eq_if_modifyHead] at h
    split at h
    · rcases List.mem_cons.1 h with rfl | h
      · exact List.not_mem_nil
      · exact ih h
    · rename_i hc
      obtain ⟨first, rest, hsplit⟩ := List.exists_cons_of_ne_nil (List.splitOn_ne_nil sep cs)
      rw [hsplit, List.modifyHead_cons] at h
      rcases List.mem_cons.1 h with rfl | h
      · have hfirst := ih (hsplit ▸ List.mem_cons_self)
        have hne : sep ≠ c := fun heq => hc (beq_iff_eq.2 heq.symm)
        exact fun hmem => (List.mem_cons.1 hmem).elim hne hfirst
      · exact ih (hsplit ▸ List.mem_cons_of_mem first h)

end Workgraph.Text

namespace Workgraph

/-- The segments of a path are what is left between its points. -/
theorem segments_eq (path : String) :
    segments path = (path.toList.splitOn '.').map String.ofList := by
  rw [segments, show "." = String.ofList ['.'] from rfl, Text.splitOn_singleton]

end Workgraph
