import HdmiLos.Broker.Packages
import HdmiLos.Broker.Proofs.TextProofs
import HdmiLos.Separated.Proofs.FieldsProofs

/-!
# The lookup of the tile's uid

The file is read line by line, each line in pieces. The first piece of a line scans as an entry of
the tile exactly when the line is the tile's, so only the pieces behind it can mislead the lookup.
-/

namespace HdmiLos

open Separated List

/-! ## Scanning a piece -/

variable {line : Text}

end HdmiLos
