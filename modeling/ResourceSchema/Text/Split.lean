/-
# Splitting a text at a separator

`pieces` cuts a string at every separator and keeps empty pieces, so a text with
`n` separators has `n + 1` pieces.  What holds of lists of characters by
`List.splitOn` is said here of strings: a text is known by its pieces
(`pieces_injective`), and cutting at a separator in the middle cuts both sides
(`pieces_eq_append`).
-/

namespace ResourceSchema

/-- The pieces of a string. -/
def pieces (separator : Char) (text : String) : List String :=
  (text.toList.splitOn separator).map String.ofList

/-- The characters of the pieces are the pieces of the characters. -/
theorem map_toList_pieces (separator : Char) (text : String) :
    (pieces separator text).map String.toList = text.toList.splitOn separator := by
  rw [pieces, List.map_map]
  exact List.map_id'' (fun _ => String.toList_ofList) _

/-- There is a first piece, also of the empty text. -/
theorem pieces_ne_nil (separator : Char) (text : String) : pieces separator text ≠ [] :=
  mt List.map_eq_nil_iff.1 (List.splitOn_ne_nil separator text.toList)

/-- **Cutting at a separator in the middle cuts both sides.** -/
theorem pieces_eq_append {separator : Char} {text : String} (left right : String)
    (h : text.toList = left.toList ++ separator :: right.toList) :
    pieces separator text = pieces separator left ++ pieces separator right := by
  rw [pieces, h, List.splitOn_append_cons_self, List.map_append, pieces, pieces]

/-- A text without separators is its only piece. -/
theorem pieces_of_not_mem {separator : Char} {text : String} (h : separator ∉ text.toList) :
    pieces separator text = [text] := by
  rw [pieces, List.splitOn_eq_singleton h, List.map_singleton, String.ofList_toList]

/-- No piece of a list holds a separator. -/
theorem not_mem_of_mem_splitOn {separator : Char} {text piece : List Char}
    (h : piece ∈ text.splitOn separator) : separator ∉ piece := by
  induction text generalizing piece with
  | nil =>
    obtain rfl := List.mem_singleton.1 (List.splitOn_nil separator ▸ h)
    exact List.not_mem_nil
  | cons c rest ih =>
    rw [List.splitOn_cons_eq_if_modifyHead] at h
    obtain ⟨first, others, hs⟩ := List.exists_cons_of_ne_nil (List.splitOn_ne_nil separator rest)
    rw [hs] at h ih
    by_cases hc : c = separator
    · rw [if_pos (beq_iff_eq.2 hc)] at h
      rcases List.mem_cons.1 h with rfl | h
      · exact List.not_mem_nil
      · exact ih h
    · rw [if_neg (mt beq_iff_eq.1 hc), List.modifyHead_cons] at h
      rcases List.mem_cons.1 h with rfl | h
      · intro hmem
        rcases List.mem_cons.1 hmem with heq | hmem
        · exact hc heq.symm
        · exact ih List.mem_cons_self hmem
      · exact ih (List.mem_cons_of_mem _ h)

/-- No piece holds a separator. -/
theorem not_mem_of_mem_pieces {separator : Char} {text piece : String}
    (h : piece ∈ pieces separator text) : separator ∉ piece.toList := by
  obtain ⟨chars, hchars, rfl⟩ := List.mem_map.1 h
  rw [String.toList_ofList]
  exact not_mem_of_mem_splitOn hchars

/-- **A text is known by its pieces:** with the separator between them they are the
text again. -/
theorem pieces_injective {separator : Char} {a b : String}
    (h : pieces separator a = pieces separator b) : a = b := by
  have hjoined (text : String) :
      [separator].intercalate (text.toList.splitOn separator) = text.toList :=
    List.intercalate_splitOn separator
  have hsplit := congrArg (List.map String.toList) h
  rw [map_toList_pieces, map_toList_pieces] at hsplit
  rw [← String.toList_inj, ← hjoined a, hsplit, hjoined]

end ResourceSchema
