import SourceChunks.Text.Lines
import Mathlib.Data.List.Basic

/-!
# Cutting and joining

`splitAt` works with accumulators; it computes `List.splitOn` (`splitAt_eq_splitOn`), so all laws of
the latter apply.  The pieces are one more than the separators (`length_splitAt`), hold none of them
(`not_mem_of_mem_splitAt`), and give back the whole when joined (`joinLines_linesOf`).

The pieces that a part of a list lies in are found by counting separators before the part and in it
(`exists_pieces_around`).
-/

namespace SourceChunks

theorem exists_last_of_mem {α : Type} {sep : α} {as : List α} (h : sep ∈ as) :
    ∃ front back, as = front ++ sep :: back ∧ sep ∉ back := by
  -- the last separator is the first one from behind
  obtain ⟨back, front, hreverse, hback⟩ := List.eq_append_cons_of_mem (List.mem_reverse.mpr h)
  refine ⟨front.reverse, back.reverse, ?_, fun hmem => hback (List.mem_reverse.mp hmem)⟩
  rw [← List.reverse_reverse as, hreverse]
  simp

section Pieces

variable {α : Type} [BEq α]

/-- Finished pieces stay in front, and the present one is put before the first new piece. -/
theorem splitOnto_eq (sep : α) (done : List (List α)) (line as : List α) :
    splitOnto sep done line as
      = done.reverse ++ (as.splitOn sep).modifyHead (line.reverse ++ ·) := by
  induction as generalizing done line with
  | nil => simp [splitOnto]
  | cons a rest ih =>
    rw [splitOnto, List.splitOn_cons_eq_if_modifyHead]
    split_ifs
    · rw [ih, List.reverse_nil, List.reverse_cons, List.append_assoc]
      simp only [List.nil_append, List.modifyHead_cons, List.append_nil, List.cons_append]
      rw [show (fun line : List α => line) = id from rfl, List.modifyHead_id, id]
    · rw [ih, List.modifyHead_modifyHead, List.reverse_cons]
      simp only [Function.comp_def, List.append_assoc, List.cons_append, List.nil_append]

theorem splitAt_eq_splitOn (sep : α) (as : List α) : splitAt sep as = as.splitOn sep := by
  rw [splitAt, splitOnto_eq]
  simp only [List.reverse_nil, List.nil_append]
  rw [show (fun line : List α => line) = id from rfl, List.modifyHead_id, id]

theorem splitAt_ne_nil (sep : α) (as : List α) : splitAt sep as ≠ [] := by
  rw [splitAt_eq_splitOn]
  exact List.splitOn_ne_nil sep as

theorem length_splitAt (sep : α) (as : List α) :
    (splitAt sep as).length = as.count sep + 1 := by
  rw [splitAt_eq_splitOn]
  induction as with
  | nil => rfl
  | cons a rest ih =>
    rw [List.splitOn_cons_eq_if_modifyHead, List.count_cons]
    split_ifs
    · rw [List.length_cons, ih]
    · rw [List.length_modifyHead, ih, Nat.add_zero]

variable [LawfulBEq α]

/-- A cut at a separator cuts both sides on their own. -/
theorem splitAt_append_cons (sep : α) (as bs : List α) :
    splitAt sep (as ++ sep :: bs) = splitAt sep as ++ splitAt sep bs := by
  simp only [splitAt_eq_splitOn]
  exact List.splitOn_append_cons_self as bs

/-- Without separators there is one piece. -/
theorem splitAt_eq_singleton {sep : α} {as : List α} (h : sep ∉ as) : splitAt sep as = [as] := by
  rw [splitAt_eq_splitOn]
  exact List.splitOn_eq_singleton h

/-- No piece holds a separator. -/
theorem not_mem_of_mem_splitAt {sep : α} {as piece : List α} (h : piece ∈ splitAt sep as) :
    sep ∉ piece := by
  rw [splitAt_eq_splitOn] at h
  induction as generalizing piece with
  | nil =>
    rw [List.splitOn_nil, List.mem_singleton] at h
    rw [h]
    exact List.not_mem_nil
  | cons a rest ih =>
    rw [List.splitOn_cons_eq_if_modifyHead] at h
    split_ifs at h with ha
    · rcases List.mem_cons.mp h with rfl | h
      · exact List.not_mem_nil
      · exact ih h
    · obtain ⟨first, others, hsplit⟩ := List.exists_cons_of_ne_nil (List.splitOn_ne_nil sep rest)
      rw [hsplit, List.modifyHead_cons] at h
      rcases List.mem_cons.mp h with rfl | h
      · rw [List.mem_cons, not_or]
        refine ⟨fun heq => ha (by rw [heq]; exact beq_self_eq_true a), ih ?_⟩
        rw [hsplit]
        exact List.mem_cons_self
      · apply ih
        rw [hsplit]
        exact List.mem_cons_of_mem _ h

/-- The pieces give back the whole, with a separator before each of them. -/
theorem flatMap_splitAt (sep : α) (as : List α) :
    (splitAt sep as).flatMap (sep :: ·) = sep :: as := by
  rw [splitAt_eq_splitOn]
  induction as with
  | nil => rfl
  | cons a rest ih =>
    rw [List.splitOn_cons_eq_if_modifyHead]
    split_ifs with ha
    · rw [List.flatMap_cons, ih, eq_of_beq ha]
      rfl
    · obtain ⟨first, others, hsplit⟩ := List.exists_cons_of_ne_nil (List.splitOn_ne_nil sep rest)
      rw [hsplit, List.flatMap_cons, List.cons_append] at ih
      rw [hsplit, List.modifyHead_cons, List.flatMap_cons, List.cons_append, List.cons_append,
        (List.cons.inj ih).2]

/-- Behind as many pieces as `as` has separators, the rest of the last piece of `as` comes first. -/
theorem exists_drop_splitAt (sep : α) (as bs : List α) :
    ∃ rest, sep ∉ rest ∧
      (splitAt sep (as ++ bs)).drop (as.count sep) = splitAt sep (rest ++ bs) := by
  by_cases hmem : sep ∈ as
  · obtain ⟨front, rest, rfl, hrest⟩ := exists_last_of_mem hmem
    have hcount : (front ++ sep :: rest).count sep = (splitAt sep front).length := by
      rw [length_splitAt, List.count_append, List.count_cons_self, List.count_eq_zero.mpr hrest]
    refine ⟨rest, hrest, ?_⟩
    rw [hcount, List.append_assoc, List.cons_append, splitAt_append_cons, List.drop_left]
  · refine ⟨as, hmem, ?_⟩
    rw [List.count_eq_zero.mpr hmem, List.drop_zero]

/-- The first pieces, one more than `as` has separators, reach to the first separator
behind `as`. -/
theorem exists_take_splitAt (sep : α) (as bs : List α) :
    ∃ rest, sep ∉ rest ∧
      (splitAt sep (as ++ bs)).take (as.count sep + 1) = splitAt sep (as ++ rest) := by
  by_cases hmem : sep ∈ bs
  · obtain ⟨rest, back, rfl, hrest⟩ := List.eq_append_cons_of_mem hmem
    have hcount : as.count sep + 1 = (splitAt sep (as ++ rest)).length := by
      rw [length_splitAt, List.count_append, List.count_eq_zero.mpr hrest, Nat.add_zero]
    refine ⟨rest, hrest, ?_⟩
    rw [hcount, ← List.append_assoc, splitAt_append_cons, List.take_left]
  · have hlength : (splitAt sep (as ++ bs)).length = as.count sep + 1 := by
      rw [length_splitAt, List.count_append, List.count_eq_zero.mpr hmem, Nat.add_zero]
    exact ⟨bs, hmem, List.take_of_length_le (by omega)⟩

/-- **The pieces that `bs` lies in** hold nothing but `bs` and the rests of its first and its last
piece. -/
theorem exists_pieces_around (sep : α) (as bs cs : List α) :
    ∃ before after, sep ∉ before ∧ sep ∉ after ∧
      ((splitAt sep (as ++ (bs ++ cs))).drop (as.count sep)).take (bs.count sep + 1)
        = splitAt sep (before ++ bs ++ after) := by
  obtain ⟨before, hbefore, hdrop⟩ := exists_drop_splitAt sep as (bs ++ cs)
  obtain ⟨after, hafter, htake⟩ := exists_take_splitAt sep (before ++ bs) cs
  -- what comes before `bs` in its first piece holds no separator
  have hcount : (before ++ bs).count sep = bs.count sep := by
    rw [List.count_append, List.count_eq_zero.mpr hbefore, Nat.zero_add]
  refine ⟨before, after, hbefore, hafter, ?_⟩
  rw [hdrop, ← List.append_assoc, ← hcount, htake]

/-- Pieces determine the whole. -/
theorem splitAt_injective (sep : α) : Function.Injective (splitAt sep) := by
  intro as bs h
  have hall := congrArg (List.flatMap (sep :: ·)) h
  rw [flatMap_splitAt, flatMap_splitAt] at hall
  exact (List.cons.inj hall).2

end Pieces

/-! ### Lines -/

theorem joinLines_cons {l : String} {ls : List String} (h : ls ≠ []) :
    joinLines (l :: ls) = l ++ "\n" ++ joinLines ls :=
  String.intercalate_cons_of_ne_nil h

theorem joinLines_append {ls ms : List String} (hls : ls ≠ []) (hms : ms ≠ []) :
    joinLines (ls ++ ms) = joinLines ls ++ "\n" ++ joinLines ms :=
  String.intercalate_append_of_ne_nil hls hms

/-- **The lines of a text give it back when they are joined.** -/
theorem joinLines_linesOf (s : String) : joinLines (linesOf s) = s := by
  apply String.toList_injective
  rw [joinLines, String.toList_intercalate, linesOf, List.map_map, splitAt_eq_splitOn]
  have hid : String.toList ∘ String.ofList = id := by
    funext cs
    exact String.toList_ofList
  rw [hid, List.map_id]
  exact List.intercalate_splitOn '\n'

end SourceChunks
