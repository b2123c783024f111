/-!
# The binary-reflected Gray code

A number is encoded as its exclusive or with its half, and decoded as the exclusive or of all the
halves of the code.
-/

namespace Gray

def encode (n : Nat) : Nat := n ^^^ (n >>> 1)

/-- The exclusive or of `value` and of the code with all its halves, at most `fuel` of them. -/
def decodeFrom : (fuel code value : Nat) → Nat
  | 0, _, value => value
  | fuel + 1, code, value =>
    if code = 0 then value else decodeFrom fuel (code >>> 1) (value ^^^ code)

/-- A code has fewer halves than its own value. -/
def decode (code : Nat) : Nat := decodeFrom code code 0

end Gray
