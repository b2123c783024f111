import HdmiLos.Tracer.Interpose

/-!
# The page flip in place of a modeset

Xorg repeats a modeset to show another framebuffer in the mode that is already set, which some
kernels reject on a lease. What the calls of the interposer must look like for it to replace such a
request by a page flip, and what it may answer then.
-/

namespace HdmiLos.Tracer

open Interaction

/-! ## Kinds of calls -/

/-- The request of the caller is passed to the kernel. -/
def Event.passes : Event → Bool
  | ⟨.ioctl _ _ _, _⟩ => true
  | _ => false

def Event.gets : Event → Bool
  | ⟨.getCrtc _ _, _⟩ => true
  | _ => false

def Event.flips : Event → Bool
  | ⟨.pageFlip _ _ _, _⟩ => true
  | _ => false

/-- The calls hold no page flip. -/
def NoFlip (calls : List Event) : Prop := ∀ e ∈ calls, Event.flips e = false

/-- The calls pass no request of the caller to the kernel. -/
def NoPass (calls : List Event) : Prop := ∀ e ∈ calls, Event.passes e = false

/-! ## When the flip is right -/

/-- The request at `argument`, as it was read by the calls, asks for the framebuffer of `r` on the
    expected CRTC and on nothing but the expected connector. -/
structure Requested (cfg : Config) (argument : UInt64) (calls : List Event) (r : DrmCrtc) :
    Prop where
  copied : ∃ errno, ⟨.copyCrtc argument, (some r, errno)⟩ ∈ calls
  crtc : r.crtcId = cfg.expectedCrtc
  single : r.countConnectors = 1
  connector : ∃ connectors errno, ⟨.copyU32 r.setConnectors 1, (some connectors, errno)⟩ ∈ calls ∧
    connectors 0 = cfg.expectedConnector
  framebuffer : r.fbId ≠ 0
  mode : r.modeValid = true

/-- Only the framebuffer is to change. The equality of the modes is that of the twelve fields of
    their timing. -/
structure OnlyFramebuffer (r current : DrmCrtc) : Prop where
  mode : current.modeValid = true
  framebuffer : current.fbId ≠ 0
  x : current.x = r.x
  y : current.y = r.y
  timing : current.mode = r.mode

/-- The calls hold one page flip, to the framebuffer of `r`, which was right where it was made. -/
def FlippedOnce (cfg : Config) (fd : Int) (argument : UInt64) (calls : List Event)
    (r : DrmCrtc) (answer : Except Int Unit) (after : List Event) : Prop :=
  ∃ before current, calls = before ++ ⟨.getCrtc fd r.crtcId, .ok current⟩ ::
    ⟨.pageFlip fd r.crtcId r.fbId, answer⟩ :: after ∧ NoFlip before ∧ NoFlip after ∧
    Requested cfg argument before r ∧ OnlyFramebuffer r current

/-! ## What it leads to -/

/-- The CRTC shows the framebuffer of the request in its mode. -/
structure Shows (r verified : DrmCrtc) : Prop where
  framebuffer : verified.fbId = r.fbId
  mode : verified.modeValid = true
  timing : verified.mode = r.mode

/-- One of the first `attempts` answers about the CRTC shows the request. -/
def Verified (fd : Int) (r : DrmCrtc) (attempts : Nat) (calls : List Event) : Prop :=
  ∃ i < attempts, ∃ v, (calls.filter Event.gets)[i]? = some ⟨.getCrtc fd r.crtcId, .ok v⟩ ∧ Shows r v

/-- There were `attempts` answers about the CRTC, and none shows the request. -/
structure Unverified (fd : Int) (r : DrmCrtc) (attempts : Nat) (calls : List Event) : Prop where
  attempts : (calls.filter Event.gets).length = attempts
  unseen : ∀ v, ⟨.getCrtc fd r.crtcId, .ok v⟩ ∈ calls → ¬Shows r v

/-- The result and the `errno` of a modeset that the kernel rejected with `rejected`, after the
    given calls. -/
inductive Substituted (cfg : Config) (fd : Int) (argument : UInt64) (rejected : Int)
    (calls : List Event) : Int → Int → Prop where
  | unflipped : NoFlip calls → Substituted cfg fd argument rejected calls (-1) rejected
  | refused {r : DrmCrtc} {error : Int} {after : List Event} : rejected = einval →
    FlippedOnce cfg fd argument calls r (.error error) after →
    Substituted cfg fd argument rejected calls (-1) rejected
  | verified {r : DrmCrtc} {after : List Event} : rejected = einval →
    FlippedOnce cfg fd argument calls r (.ok ()) after → Verified fd r 20 after →
    Substituted cfg fd argument rejected calls 0 0
  | unverified {r : DrmCrtc} {after : List Event} : rejected = einval →
    FlippedOnce cfg fd argument calls r (.ok ()) after → Unverified fd r 20 after →
    Substituted cfg fd argument rejected calls (-1) eio

/-- The modeset went to the kernel once, and the result is the kernel's or that of the
    substitution. -/
def SetCrtcAnswered (cfg : Config) (fd : Int) (argument : UInt64) (calls : List Event)
    (result errno : Int) : Prop :=
  ∃ before answer after, calls = before ++ ⟨.ioctl fd drmModeSetCrtc argument, answer⟩ :: after ∧
    NoPass before ∧ NoPass after ∧ NoFlip before ∧ match answer with
      | .ok accepted => result = accepted ∧ NoFlip after
      | .error rejected => Substituted cfg fd argument rejected after result errno

/-- There is no page flip in the calls, or there is one, after the kernel rejected the modeset with
    `EINVAL`, and it was right. -/
def FlipJustified (cfg : Config) (fd : Int) (argument : UInt64) (calls : List Event) : Prop :=
  NoFlip calls ∨ ∃ before after r answer rest,
    calls = before ++ ⟨.ioctl fd drmModeSetCrtc argument, .error einval⟩ :: after ∧
      NoFlip before ∧ FlippedOnce cfg fd argument after r answer rest

/-! ## The end of the process -/

/-- The last exchange of the calls failed: the record could not be sent, there was no answer in
    time, or it is no acknowledgement of the record. -/
inductive ExchangeFailed : List Event → Prop where
  | unsent {before : List Event} {record : TraceRecord} {errno : Int} :
    ExchangeFailed (before ++ [⟨.send record, (false, errno)⟩])
  | late {before : List Event} {record : TraceRecord} {errno errno' : Int} :
    ExchangeFailed (before ++ [⟨.send record, (true, errno)⟩, ⟨.waitReadable, (false, errno')⟩])
  | wrong {before : List Event} {record : TraceRecord} {errno errno' errno'' : Int}
    {ack : Option TraceRecord} : (∀ a, ack = some a → acknowledges record a = false) →
    ExchangeFailed (before ++ [⟨.send record, (true, errno)⟩, ⟨.waitReadable, (true, errno')⟩,
      ⟨.recv, (ack, errno'')⟩])

/-- The environment has no answer to a call other than `_exit`. -/
def Unanswered {ω : Type} (env : Env ω) (w : ω) : Prop :=
  ∃ c : Io, (∀ code, c ≠ .exit code) ∧ env c w = none

end HdmiLos.Tracer
