import HdmiLos.Broker.Run
import HdmiLos.Separated.Fields

/-!
# Who may control the broker

Besides root, only the package of the tile may send requests. Its uid is looked up in
`packages.list`, a file of lines that each begin with the name of a package and its uid. The lookup
reads the file in pieces of at most 1023 bytes and scans each of them as a line.
-/

namespace HdmiLos

open Separated

/-- A line of `packages.list` without its end: a name, a uid and further text. -/
structure PackageLine where
  name : Text
  uid : UInt32
  rest : Text
  nameNonempty : name ≠ []
  nameUnbroken : ∀ c ∈ name, isSpace c = false
  uidValid : uid ≠ noUid
  /-- The uid ends before the further text. -/
  uidEnds : rest.head?.any Char.isDigit = false
  restUnbroken : '\n' ∉ rest

/-- The line as it is written. -/
def PackageLine.text (l : PackageLine) : Text := l.name ++ ' ' :: (decimal l.uid.toNat ++ l.rest)

/-- The pieces of at most 1023 bytes that a line is cut into. -/
def pieces (line : Text) : List Text :=
  if 1023 < line.length then line.take 1023 :: pieces (line.drop 1023) else [line]
termination_by line.length
decreasing_by
  rw [List.length_drop]
  omega

/-- The pieces of a line, with its end, behind the first. -/
def PackageLine.inside (l : PackageLine) : List Text := (pieces (l.text ++ ['\n'])).tail

end HdmiLos
