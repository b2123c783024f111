/-!
# Separated sequences

Sequences that are cut at separators: the fields between runs of separators, and the records that
each end with one.
-/

namespace Separated

variable {α : Type}

/-- The nonempty pieces between separators: a run of separators counts as one, and those at either
end do not count. -/
def fields (isSep : α → Bool) (l : List α) : List (List α) :=
  (l.splitOnP isSep).filter fun piece => !piece.isEmpty

/-- The pieces that end with a separator, and what follows the last separator unless it is empty. -/
def records [BEq α] (sep : α) (l : List α) : List (List α) :=
  let pieces := l.splitOn sep
  if (pieces.getLast?.getD []).isEmpty then pieces.dropLast else pieces

/-- The pieces joined by one separator each. -/
def joined (sep : α) (pieces : List (List α)) : List α := [sep].intercalate pieces

/-- Every piece followed by a separator. -/
def terminated (sep : α) (pieces : List (List α)) : List α :=
  pieces.flatMap fun piece => piece ++ [sep]

end Separated
