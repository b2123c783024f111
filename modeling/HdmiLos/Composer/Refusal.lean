import HdmiLos.Composer.Watchdog

/-!
# Refused requests

A request is refused by the server or by the session: with `ERR_PROTOCOL`, `ERR_BUSY` or
`ERR_STATE`. The other errors say that a takeover was tried and has failed.
-/

namespace HdmiLos.Composer

variable {ω : Type} {env : Env ω}

/-- A response with this status refuses its request. -/
def refuses (status : Int) : Bool :=
  status == errProtocol || status == errBusy || status == errState

/-- No other thread uses the session. -/
structure Host.Alone (host : Host env) : Prop where
  outside : ∀ c w a w', c.controller = none → host.answer c w = some (a, w') →
    host.session w' = host.session w
  inside : ∀ c p w a w', c.controller = some p → host.answer c w = some (a, w') →
    p.run (sysHandler env) (host.session w) = (some a, host.session w')

/-- Only the detail text of the session is another. -/
def Host.Untouched (host : Host env) (s t : host.Sys) : Prop :=
  t.vars = s.vars ∧ ∃ detail, host.sessionOf t = { host.sessionOf s with detail := detail }

end HdmiLos.Composer
