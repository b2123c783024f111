import Mathlib.Data.List.Infix
import HdmiLos.Separated.Fields

/-!
# Cutting what was joined

Joining or terminating pieces that hold no separator loses nothing: `fields` and `records` give the
pieces back. A piece between two separators of a joined sequence is one of the pieces.
-/

namespace Separated

open List

variable {α : Type}

section Pieces

variable {isSep : α → Bool}

/-- A piece without separators, decided by a search for one. -/
theorem unbroken_of_any {l : List α} (h : l.any isSep = false) : ∀ x ∈ l, isSep x = false := by
  simpa using h

/-- No piece of a split has a separator. -/
theorem isSep_of_mem_splitOnP {l piece : List α} (h : piece ∈ l.splitOnP isSep) {x : α}
    (hx : x ∈ piece) : isSep x = false := by
  induction l generalizing piece with
  | nil =>
    rw [splitOnP_nil, mem_singleton] at h
    subst h
    simp at hx
  | cons y l ih =>
    rw [splitOnP_cons_eq_if_modifyHead] at h
    split at h
    · rcases mem_cons.mp h with rfl | h
      · simp at hx
      · exact ih h hx
    case isFalse hy =>
      obtain ⟨first, rest, hsplit⟩ := exists_cons_of_ne_nil (splitOnP_ne_nil isSep l)
      rw [hsplit, modifyHead_cons] at h
      rcases mem_cons.mp h with rfl | h
      · rcases mem_cons.mp hx with rfl | hx
        · simpa using hy
        · exact ih (hsplit ▸ mem_cons_self) hx
      · exact ih (hsplit ▸ mem_cons_of_mem _ h) hx

theorem mem_fields {l piece : List α} (h : piece ∈ fields isSep l) :
    piece ≠ [] ∧ ∀ x ∈ piece, isSep x = false := by
  rw [fields, mem_filter] at h
  exact ⟨by simpa using h.2, fun _ hx => isSep_of_mem_splitOnP h.1 hx⟩

end Pieces

section Joined

variable {isSep : α → Bool} {sep : α} {pieces : List (List α)}

@[simp] theorem joined_nil (sep : α) : joined sep [] = [] := intercalate_nil

@[simp] theorem joined_singleton (sep : α) (piece : List α) : joined sep [piece] = piece :=
  intercalate_singleton

theorem joined_cons (sep : α) (piece : List α) (h : pieces ≠ []) :
    joined sep (piece :: pieces) = piece ++ sep :: joined sep pieces := by
  simp [joined, intercalate_cons_of_ne_nil h]

theorem mem_joined {x : α} (h : x ∈ joined sep pieces) : x = sep ∨ ∃ piece ∈ pieces, x ∈ piece := by
  induction pieces with
  | nil => simp at h
  | cons piece pieces ih =>
    by_cases hne : pieces = []
    · subst hne
      exact .inr ⟨piece, by simp, by simpa using h⟩
    · rw [joined_cons sep piece hne, mem_append, mem_cons] at h
      rcases h with h | h | h
      · exact .inr ⟨piece, by simp, h⟩
      · exact .inl h
      · rcases ih h with h | ⟨p, hp, hx⟩
        · exact .inl h
        · exact .inr ⟨p, mem_cons_of_mem _ hp, hx⟩

theorem joined_ne_nil (h : pieces ≠ []) (hall : ∀ piece ∈ pieces, piece ≠ []) :
    joined sep pieces ≠ [] := by
  obtain ⟨piece, rest, rfl⟩ := exists_cons_of_ne_nil h
  have hpiece : piece ≠ [] := hall piece (by simp)
  by_cases hne : rest = []
  · subst hne
    simpa using hpiece
  · rw [joined_cons sep piece hne]
    simp

/-- Splitting at the separators gives the joined pieces back. -/
theorem splitOnP_joined (hsep : isSep sep = true) (h : pieces ≠ [])
    (hall : ∀ piece ∈ pieces, ∀ x ∈ piece, isSep x = false) :
    (joined sep pieces).splitOnP isSep = pieces := by
  induction pieces with
  | nil => exact absurd rfl h
  | cons piece pieces ih =>
    have hpiece : ∀ x ∈ piece, isSep x = false := hall piece (by simp)
    by_cases hne : pieces = []
    · subst hne
      rw [joined_singleton]
      exact splitOnP_eq_singleton hpiece
    · rw [joined_cons sep piece hne, splitOnP_append_cons_of_forall_mem hpiece sep hsep,
        ih hne fun p hp => hall p (mem_cons_of_mem _ hp)]

/-- Pieces without separators are found again. -/
theorem fields_joined (hsep : isSep sep = true) (hne : ∀ piece ∈ pieces, piece ≠ [])
    (hall : ∀ piece ∈ pieces, ∀ x ∈ piece, isSep x = false) :
    fields isSep (joined sep pieces) = pieces := by
  by_cases h : pieces = []
  · subst h
    simp [fields]
  · rw [fields, splitOnP_joined hsep h hall]
    exact filter_eq_self.mpr fun piece hp => by simpa using hne piece hp

end Joined

section Bracketed

variable [BEq α] [LawfulBEq α] {sep : α} {pieces : List (List α)} {word : List α}

/-- What stands between two separators of a sequence is made of whole pieces: a word without
separators is one piece of the split. -/
theorem mem_splitOn_of_bracketed {l : List α} (hword : sep ∉ word)
    (h : sep :: word ++ [sep] <:+: l) : word ∈ l.splitOn sep := by
  obtain ⟨before, after, rfl⟩ := h
  have hl : before ++ (sep :: word ++ [sep]) ++ after = before ++ sep :: (word ++ sep :: after) := by
    simp
  rw [hl, splitOn_append_cons_self, splitOn_append_cons_self_of_not_mem hword]
  simp

/-- A nonempty word stands between two separators of the joined and bracketed pieces exactly when
it is one of them. -/
theorem bracketed_infix_iff (hword : sep ∉ word) (hne : word ≠ []) (hp : pieces ≠ [])
    (hall : ∀ piece ∈ pieces, sep ∉ piece) :
    sep :: word ++ [sep] <:+: sep :: joined sep pieces ++ [sep] ↔ word ∈ pieces := by
  constructor
  · intro h
    have hmem := mem_splitOn_of_bracketed hword h
    have hsplit : (sep :: joined sep pieces ++ [sep]).splitOn sep = [] :: (pieces ++ [[]]) := by
      have hl : sep :: joined sep pieces ++ [sep] = [] ++ sep :: (joined sep pieces ++ sep :: []) := by
        simp
      rw [hl, splitOn_append_cons_self, splitOn_append_cons_self, joined,
        splitOn_intercalate sep hall hp]
      simp
    rw [hsplit] at hmem
    simpa [hne] using hmem
  · intro h
    clear hp hall
    induction pieces with
    | nil => simp at h
    | cons piece pieces ih =>
      by_cases hrest : pieces = []
      · subst hrest
        rw [mem_singleton] at h
        subst h
        rw [joined_singleton]
      · rw [joined_cons sep piece hrest]
        rcases mem_cons.mp h with rfl | h
        · exact ⟨[], joined sep pieces ++ [sep], by simp⟩
        · refine (ih h).trans ⟨sep :: piece, [], by simp⟩

end Bracketed

section Terminated

theorem terminated_cons (sep : α) (piece : List α) (pieces : List (List α)) :
    terminated sep (piece :: pieces) = piece ++ sep :: terminated sep pieces := by
  simp [terminated]

variable [BEq α] [LawfulBEq α] {sep : α} {pieces : List (List α)}

theorem splitOn_terminated (hall : ∀ piece ∈ pieces, sep ∉ piece) :
    (terminated sep pieces).splitOn sep = pieces ++ [[]] := by
  induction pieces with
  | nil => simp [terminated]
  | cons piece pieces ih =>
    rw [terminated_cons, splitOn_append_cons_self_of_not_mem (hall piece (by simp)),
      ih fun p hp => hall p (mem_cons_of_mem _ hp), cons_append]

theorem records_terminated (hall : ∀ piece ∈ pieces, sep ∉ piece) :
    records sep (terminated sep pieces) = pieces := by
  rw [records, splitOn_terminated hall]
  simp

end Terminated

end Separated
