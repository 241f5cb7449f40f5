import Mathlib
import ActivityCatalogue.Text.Pieces

/-!
# Pieces and the text that they make

Cutting a text at a separator and putting pieces together with it undo each other: the
pieces of a text make it again (`join_pieces`), and pieces without the separator are found
again in the text that they make (`pieces_join`).
-/

namespace ActivityCatalogue

namespace Text

variable {separator c : Char} {text : List Char}

theorem cut_append (hmem : separator ∉ text) (rest : List Char) :
    cut separator (text ++ separator :: rest) =
      (text, (cut separator rest).1 :: (cut separator rest).2) := by
  induction text with
  | nil => exact if_pos rfl
  | cons c text ih =>
      rw [List.mem_cons, not_or] at hmem
      rw [List.cons_append, cut_cons, if_neg (Ne.symm hmem.1), ih hmem.2]

theorem cut_of_not_mem (hmem : separator ∉ text) : cut separator text = (text, []) := by
  induction text with
  | nil => rfl
  | cons c text ih =>
      rw [List.mem_cons, not_or] at hmem
      rw [cut_cons, if_neg (Ne.symm hmem.1), ih hmem.2]

/-- A text begins with the separator if its first piece is empty and there are more. -/
theorem head?_eq_separator_iff :
    text.head? = some separator ↔ (cut separator text).1 = [] ∧ (cut separator text).2 ≠ [] := by
  cases text with
  | nil => simp [cut_nil]
  | cons c text =>
      by_cases heq : c = separator
      · simp [cut_cons, heq]
      · simp [cut_cons, heq]

/-- A piece holds characters of the text other than the separator. -/
theorem of_mem_cut {piece : List Char}
    (hpiece : piece ∈ (cut separator text).1 :: (cut separator text).2) (hc : c ∈ piece) :
    c ≠ separator ∧ c ∈ text := by
  induction text generalizing piece with
  | nil =>
      obtain rfl : piece = [] := List.mem_singleton.mp hpiece
      exact nomatch hc
  | cons first text ih =>
      rw [cut_cons] at hpiece
      by_cases heq : first = separator
      · rw [if_pos heq] at hpiece
        rcases List.mem_cons.mp hpiece with rfl | hmore
        · exact nomatch hc
        · obtain ⟨hne, hmem⟩ := ih hmore hc
          exact ⟨hne, List.mem_cons_of_mem _ hmem⟩
      · rw [if_neg heq] at hpiece
        rcases List.mem_cons.mp hpiece with rfl | hmore
        · rcases List.mem_cons.mp hc with rfl | hc
          · exact ⟨heq, List.mem_cons_self⟩
          · obtain ⟨hne, hmem⟩ := ih List.mem_cons_self hc
            exact ⟨hne, List.mem_cons_of_mem _ hmem⟩
        · obtain ⟨hne, hmem⟩ := ih (List.mem_cons_of_mem _ hmore) hc
          exact ⟨hne, List.mem_cons_of_mem _ hmem⟩

theorem cut_intercalate {first : List Char} {more : List (List Char)}
    (hparts : ∀ part ∈ first :: more, separator ∉ part) :
    cut separator ([separator].intercalate (first :: more)) = (first, more) := by
  induction more generalizing first with
  | nil =>
      rw [List.intercalate_singleton]
      exact cut_of_not_mem (hparts first List.mem_cons_self)
  | cons next more ih =>
      have hnext : ∀ part ∈ next :: more, separator ∉ part := fun part hpart =>
        hparts part (List.mem_cons_of_mem _ hpart)
      rw [List.intercalate_cons_cons, List.append_assoc, List.singleton_append,
        cut_append (hparts first List.mem_cons_self), ih hnext]

/-- Pieces without the separator are found again in the text that they make. -/
theorem pieces_join {parts : List String} (hne : parts ≠ [])
    (hparts : ∀ part ∈ parts, separator ∉ part.toList) :
    pieces separator (join separator parts) = parts := by
  obtain ⟨first, more, rfl⟩ := List.exists_cons_of_ne_nil hne
  have hlists : ∀ part ∈ first.toList :: more.map String.toList, separator ∉ part := by
    rw [← List.map_cons]
    intro part hpart
    obtain ⟨text, htext, rfl⟩ := List.mem_map.mp hpart
    exact hparts text htext
  simp only [pieces, join, String.toList_ofList, List.map_cons, cut_intercalate hlists,
    String.ofList_toList, List.map_map]
  exact congrArg _ (List.map_id'' (fun _ => String.ofList_toList) more)

theorem join_pieces (separator : Char) (text : String) :
    join separator (pieces separator text) = text := by
  rw [pieces, join, List.map_map, Function.comp_def]
  simp only [String.toList_ofList, List.map_id']
  rw [intercalate_cut, String.ofList_toList]

theorem of_mem_pieces {piece text : String} (hpiece : piece ∈ pieces separator text)
    (hc : c ∈ piece.toList) : c ≠ separator ∧ c ∈ text.toList := by
  obtain ⟨list, hlist, rfl⟩ := List.mem_map.mp hpiece
  rw [String.toList_ofList] at hc
  exact of_mem_cut hlist hc

/-- What pieces make holds their characters and the separator. -/
theorem of_mem_join {parts : List String} (hc : c ∈ (join separator parts).toList) :
    c = separator ∨ ∃ part ∈ parts, c ∈ part.toList := by
  rw [join, String.toList_ofList] at hc
  induction parts with
  | nil => exact nomatch hc
  | cons first more ih =>
      cases more with
      | nil => exact Or.inr ⟨first, List.mem_cons_self, by simpa using hc⟩
      | cons next more =>
          rw [List.map_cons, List.map_cons, List.intercalate_cons_cons, ← List.map_cons,
            List.mem_append, List.mem_append, List.mem_singleton] at hc
          rcases hc with (hfirst | hseparator) | hmore
          · exact Or.inr ⟨first, List.mem_cons_self, hfirst⟩
          · exact Or.inl hseparator
          · refine (ih hmore).imp_right fun ⟨part, hpart, hmem⟩ => ?_
            exact ⟨part, List.mem_cons_of_mem _ hpart, hmem⟩

/-- What pieces make ends with the last of them. -/
theorem suffix_join (separator : Char) (before : List String) (last : String) :
    last.toList <:+ (join separator (before ++ [last])).toList := by
  rw [join, String.toList_ofList]
  induction before with
  | nil => simp
  | cons first before ih =>
      refine ih.trans ?_
      obtain ⟨next, more, hmore⟩ := List.exists_cons_of_ne_nil
        (List.append_ne_nil_of_right_ne_nil before (List.cons_ne_nil last []))
      rw [List.cons_append, List.map_cons, hmore, List.map_cons, List.intercalate_cons_cons]
      exact List.suffix_append _ _

end Text

end ActivityCatalogue
