import HdmiLos.Composer.Takeover

/-!
# The plane that is kept out of Android's allocator

When the composer reads the planes of the hardware it reserves the fixed primary plane of the second
CRTC: neither this plane nor a virtual pipe that shares it gets into the list of pipes from which
Android allocates. The lease functions refuse every other plane.
-/

namespace HdmiLos.Composer

open Interaction

variable {ω : Type}

/-- An entry of `DRMPlanesInfo`, with the ids that are read. A virtual pipe names the plane it
    belongs to. -/
structure Pipe where
  id : UInt32
  masterPlaneId : UInt32 := 0
  deriving DecidableEq, Repr

/-- What `GetHWPlanesInfo` works on: whether the DRM master gives a descriptor, the planes, and
    which of them the unpatched part of the loop passes over, given those that it came to before. -/
structure HWPlanes where
  hasHandle : Bool := true
  planes : List Pipe
  skips : List Pipe → Pipe → Bool := fun _ _ => false

/-- The plane kept for leases, or 0. -/
def reservePrimary (hw : HWPlanes) : SessionProg UInt32 := do
  if hw.hasHandle then
    match ← call .getResources with
    | some (_ :: crtc :: _) => do
      let (error, fixed) ← getFixedPrimaryPlane crtc
      if error ≠ .noError ∨ fixed.crtcIndex ≠ 1 ∨ ∀ pipe ∈ hw.planes, pipe.id ≠ fixed.planeId then
        pure 0
      else pure fixed.planeId
    | _ => pure 0
  else pure 0

/-- A pipe that is kept out of the list. -/
def Pipe.reservedBy (reserved : UInt32) (pipe : Pipe) : Bool :=
  reserved != 0 && (pipe.id == reserved || pipe.masterPlaneId == reserved)

/-- The loop over the planes. `seen` are those that the unpatched part came to before. -/
def pushPipes (reserved : UInt32) (skips : List Pipe → Pipe → Bool) :
    List Pipe → List Pipe → List Pipe → List Pipe
  | [], _, pushed => pushed
  | pipe :: rest, seen, pushed =>
    if pipe.reservedBy reserved then pushPipes reserved skips rest seen pushed
    else if skips seen pipe then pushPipes reserved skips rest (seen ++ [pipe]) pushed
    else pushPipes reserved skips rest (seen ++ [pipe]) (pushed ++ [pipe])

/-- `HWInfoDRM::GetHWPlanesInfo`. The value is what it pushes to `hw_pipes`. -/
def getHWPlanesInfo (hw : HWPlanes) : SessionProg (List Pipe) := do
  let reserved ← reservePrimary hw
  let pipes := pushPipes reserved hw.skips hw.planes [] []
  update fun s => { s with reservedPlane := reserved }
  pure pipes

/-- A run in which the planes of the hardware are read at any time. `pipes` are those of the latest
    reading. -/
inductive PlaneRun (env : Env ω) : List Pipe → Sys ω → Prop where
  | start {s : Sys ω} (hs : s.vars.reservedPlane = 0) : PlaneRun env [] s
  | event {pipes : List Pipe} {s t : Sys ω} {e : Event} {r : Int} (h : PlaneRun env pipes s)
    (run : e.prog.run (sysHandler env) s = (some r, t)) : PlaneRun env pipes t
  | read {pipes pipes' : List Pipe} {s t : Sys ω} {hw : HWPlanes} (h : PlaneRun env pipes s)
    (run : (getHWPlanesInfo hw).run (sysHandler env) s = (some pipes', t)) : PlaneRun env pipes' t

/-- When the plane was last resolved, and whenever it was looked at since, it was on no CRTC but
    `crtc`. -/
def ResolvedOn (plane crtc : UInt32) (log : List (Answered Io.Ans)) : Prop :=
  ∃ early id found late, log = early ++ ⟨.getPlane id, some found⟩ :: late ∧
    found.planeId = plane ∧ (found.crtcId = 0 ∨ found.crtcId = crtc) ∧
    ∀ id' found', (⟨.getPlane id', some found'⟩ : Answered Io.Ans) ∈ late →
      found'.planeId = plane → found'.crtcId = 0 ∨ found'.crtcId = crtc

end HdmiLos.Composer
