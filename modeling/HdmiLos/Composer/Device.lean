import HdmiLos.Composer.Basic

/-!
# The lease functions of `HWDeviceDRM`

Selecting the plane that is leased, clearing the planes of the external CRTC, and the life of a
lease: it is prepared, created, revoked, and reset or aborted. `external_display_lease_lock` is held
by each function while it uses the map.
-/

namespace HdmiLos.Composer

open Interaction

/-! ## Planes -/

/-- The loop of `GetDrmProperty` over the properties of an object. -/
def findProperty (name : String) : List (UInt32 × UInt64) → SessionProg (Option (UInt32 × UInt64))
  | [] => pure none
  | (id, value) :: rest => do
    match ← call (.getProperty id) with
    | some property =>
      if property.name = name then pure (some (property.id, value)) else findProperty name rest
    | none => findProperty name rest

/-- `GetDrmProperty`: the id and the value of the property with this name. -/
def getDrmProperty (object : UInt32) (name : String) :
    SessionProg (Option (UInt32 × UInt64)) := do
  match ← call (.objectProperties object) with
  | some properties => findProperty name properties
  | none => pure none

/-- The three results of `GetFixedPrimaryPlane`. -/
structure FixedPrimary where
  crtcIndex : UInt32 := 0xffffffff
  planeId : UInt32 := 0
  planeCrtcId : UInt32 := 0
  deriving DecidableEq, Repr

def planeTypePrimary : UInt64 := 1

def isPrimaryPlane (plane : Plane) : SessionProg Bool := do
  match ← getDrmProperty plane.planeId "type" with
  | some (_, type) => pure (type == planeTypePrimary)
  | none => pure false

/-- The loop of `GetFixedPrimaryPlane` over the plane ids. -/
def scanPrimaryPlanes : List UInt32 → UInt32 → FixedPrimary → SessionProg FixedPrimary
  | [], _, out => pure out
  | id :: rest, primaryIndex, out => do
    match ← call (.getPlane id) with
    | none => scanPrimaryPlanes rest primaryIndex out
    | some plane =>
      if ← isPrimaryPlane plane then
        if primaryIndex = out.crtcIndex ∧ plane.possibleCrtcs &&& (1 <<< out.crtcIndex) ≠ 0 then
          -- a plane with the id 0 does not end the loop
          if plane.planeId ≠ 0 then
            pure { out with planeId := plane.planeId, planeCrtcId := plane.crtcId }
          else
            scanPrimaryPlanes rest (primaryIndex + 1)
              { out with planeId := plane.planeId, planeCrtcId := plane.crtcId }
        else scanPrimaryPlanes rest (primaryIndex + 1) out
      else scanPrimaryPlanes rest primaryIndex out

/-- The index of a CRTC in the DRM resources, or `UINT32_MAX`. -/
def crtcIndexOf (crtcs : List UInt32) (crtc : UInt32) : UInt32 :=
  match crtcs.findIdx? (· == crtc) with
  | some i => UInt32.ofNat i
  | none => 0xffffffff

/-- The primary plane of a CRTC alone. -/
def getFixedPrimaryPlane (crtc : UInt32) : SessionProg (DisplayError × FixedPrimary) := do
  match ← call .getResources with
  | none => pure (.hardware, {})
  | some crtcs =>
    let out : FixedPrimary := { crtcIndex := crtcIndexOf crtcs crtc }
    if out.crtcIndex ≥ 32 then pure (.resources, out)
    else
      match ← call .getPlaneResources with
      | none => pure (.hardware, out)
      | some planes => do
        let out ← scanPrimaryPlanes planes 0 out
        if out.planeId = 0 then pure (.resources, out) else pure (.noError, out)

/-! ## Clearing the planes of the external CRTC -/

/-- `struct PlanePropertyReset`. The value is always 0. -/
structure PlanePropertyReset where
  name : String
  required : Bool
  id : UInt32 := 0
  deriving DecidableEq, Repr

/-- The properties that are reset. -/
def planePropertyResets : List PlanePropertyReset :=
  [{ name := "CRTC_ID", required := true }, { name := "FB_ID", required := true },
   { name := "CRTC_X", required := true }, { name := "CRTC_Y", required := true },
   { name := "CRTC_W", required := true }, { name := "CRTC_H", required := true },
   { name := "SRC_X", required := true }, { name := "SRC_Y", required := true },
   { name := "SRC_W", required := true }, { name := "SRC_H", required := true },
   { name := "scaler_v2", required := false }, { name := "scaler_v1", required := false },
   { name := "excl_rect_v1", required := false }]

/-- The planes to clear: those of the external CRTC and the leased one. The flag says whether the
    leased plane was found. -/
def collectPlanes (leased crtc : UInt32) :
    List UInt32 → Bool → List UInt32 → SessionProg (Except DisplayError (Bool × List UInt32))
  | [], found, planes => pure (.ok (found, planes))
  | id :: rest, found, planes => do
    match ← call (.getPlane id) with
    | none => pure (.error .hardware)
    | some plane =>
      if plane.planeId = leased ∧ plane.crtcId ≠ 0 ∧ plane.crtcId ≠ crtc then
        pure (.error .resources)
      else if plane.planeId = leased ∨ plane.crtcId = crtc then
        collectPlanes leased crtc rest (found || plane.planeId == leased)
          (planes ++ [plane.planeId])
      else collectPlanes leased crtc rest found planes

/-- Add the resets of one plane to the request. The result has the ids of the properties. -/
def addResets (plane : UInt32) : List PlanePropertyReset → List PlanePropertyReset →
    SessionProg (Except DisplayError (List PlanePropertyReset))
  | [], done => pure (.ok done)
  | reset :: rest, done => do
    match ← getDrmProperty plane reset.name with
    | none =>
      if reset.required then pure (.error .resources) else addResets plane rest (done ++ [reset])
    | some (id, _) =>
      if ← call (.atomicAdd plane id 0) then
        addResets plane rest (done ++ [{ reset with id := id }])
      else pure (.error .hardware)

/-- The resets of the planes. -/
def addPlanes : List UInt32 → List (UInt32 × List PlanePropertyReset) →
    SessionProg (Except DisplayError (List (UInt32 × List PlanePropertyReset)))
  | [], done => pure (.ok done)
  | plane :: rest, done => do
    match ← addResets plane planePropertyResets [] with
    | .error e => pure (.error e)
    | .ok resets => addPlanes rest (done ++ [(plane, resets)])

/-- Every property that was written reads as 0. -/
def verifyResets (plane : UInt32) : List PlanePropertyReset → SessionProg Bool
  | [] => pure true
  | reset :: rest => do
    if reset.id = 0 then verifyResets plane rest
    else
      match ← getDrmProperty plane reset.name with
      | none => pure false
      | some (_, value) => if value = 0 then verifyResets plane rest else pure false

/-- Checks the planes' resets. -/
def verifyPlanes : List (UInt32 × List PlanePropertyReset) → SessionProg Bool
  | [] => pure true
  | (plane, resets) :: rest => do
    if ← verifyResets plane resets then verifyPlanes rest else pure false

/-- The request that is built, committed and verified. -/
def sanitizePlanes (planes : List UInt32) : SessionProg DisplayError := do
  if ← call .atomicAlloc then
    match ← addPlanes planes [] with
    | .error e => pure e
    | .ok written =>
      if ← call (.atomicCommit true) then
        if ← call (.atomicCommit false) then
          if ← verifyPlanes written then pure .noError else pure .resources
        else pure .hardware
      else pure .hardware
  else pure .resources

/-- Resets the CRTC's other planes. -/
def sanitizeExternalPlanesForLease (leased crtc : UInt32) : SessionProg DisplayError := do
  match ← call .getPlaneResources with
  | none => pure .hardware
  | some ids =>
    match ← collectPlanes leased crtc ids false [] with
    | .error e => pure e
    | .ok (found, planes) => if found then sanitizePlanes planes else pure .resources

/-! ## The life of a lease -/

/-- `HWDeviceDRM::IsExternalDisplayLeaseConnected`. -/
def isExternalDisplayLeaseConnected (d : Device) : SessionProg (DisplayError × Bool) := do
  if !d.opened || d.connId == 0 then pure (.parameters, false)
  else
    match ← call (.getConnector d.connId) with
    | none => pure (.deviceRemoved, false)
    | some connected => pure (.noError, connected)

/-- The part of `HWDeviceDRM::PrepareExternalDisplayLease` after its checks. -/
def prepareFixedPrimary (d : Device) (lease : LeaseInfo) :
    SessionProg (Except DisplayError LeaseInfo) := do
  let (error, fixed) ← getFixedPrimaryPlane d.crtcId
  if error ≠ .noError then pure (.error error)
  else do
    let s ← getSession
    if fixed.planeId ≠ s.reservedPlane then pure (.error .resources)
    else do
      let e := (s.leases d.id).getD {}
      update fun s => s.setLease d.id (some { e with planeId := fixed.planeId, prepared := true })
      pure (.ok { lease with
        connectorId := d.connId, crtcId := d.crtcId, planeId := fixed.planeId })

/-- A lease of the device is prepared or active. -/
def LeaseState.busy (e : LeaseState) : Bool :=
  e.prepared || e.active

/-- `HWDeviceDRM::PrepareExternalDisplayLease`. -/
def prepareDeviceLease (d : Device) (lease : LeaseInfo) :
    SessionProg (Except DisplayError LeaseInfo) := do
  if !d.tv || !d.opened then pure (.error .notSupported)
  else if ← call .isMaster then
    if ((← getSession).leases d.id).any LeaseState.busy then pure (.error .notSupported)
    else prepareFixedPrimary d lease
  else pure (.error .notSupported)

/-- `drmModeCreateLease` on the resolved plane, and the record of it. -/
def createResolvedLease (d : Device) (e : LeaseState) (lease : LeaseInfo) :
    SessionProg (Except DisplayError LeaseInfo) := do
  match ← call (.createLease d.id [d.connId, d.crtcId, e.planeId]) with
  | none => pure (.error .hardware)
  | some (fd, lessee) =>
    update fun s => s.setLease d.id (some { e with active := true, lesseeId := lessee })
    pure (.ok { lease with
      leaseFd := some fd, connectorId := d.connId, crtcId := d.crtcId, planeId := e.planeId,
      lesseeId := lessee })

/-- The final handoff: the fixed plane is resolved again and the planes are cleared. -/
def createConnectedLease (d : Device) (e : LeaseState) (lease : LeaseInfo) :
    SessionProg (Except DisplayError LeaseInfo) := do
  let (error, fixed) ← getFixedPrimaryPlane d.crtcId
  if error ≠ .noError then pure (.error error)
  else if fixed.planeId ≠ (← getSession).reservedPlane then pure (.error .resources)
  else do
    let e := { e with planeId := fixed.planeId }
    update fun s => s.setLease d.id (some e)
    if fixed.planeCrtcId ≠ 0 ∧ fixed.planeCrtcId ≠ d.crtcId then pure (.error .resources)
    else do
      let error ← sanitizeExternalPlanesForLease e.planeId d.crtcId
      if error ≠ .noError then pure (.error error) else createResolvedLease d e lease

/-- `HWDeviceDRM::CreateExternalDisplayLease`. -/
def createDeviceLease (d : Device) (lease : LeaseInfo) :
    SessionProg (Except DisplayError LeaseInfo) := do
  match (← getSession).leases d.id with
  | none => pure (.error .parameters)
  | some e =>
    if !e.prepared || e.active || e.planeId == 0 then pure (.error .parameters)
    else do
      let (error, connected) ← isExternalDisplayLeaseConnected d
      if error ≠ .noError ∨ connected = false then pure (.error .deviceRemoved)
      else createConnectedLease d e lease

/-- `HWDeviceDRM::RevokeExternalDisplayLease`. -/
def revokeDeviceLease (d : Device) : SessionProg DisplayError := do
  match (← getSession).leases d.id with
  | none => pure .noError
  | some e =>
    if e.active then
      match ← call (.revokeLease d.id e.lesseeId) with
      | .failed => pure .hardware
      | _ => do
        update fun s => s.setLease d.id (some { e with active := false })
        pure .noError
    else pure .noError

/-- `HWDeviceDRM::AbortExternalDisplayLeasePreparation`. -/
def abortDevicePreparation (d : Device) : SessionProg DisplayError := do
  match (← getSession).leases d.id with
  | none => pure .noError
  | some e =>
    if e.active || e.lesseeId != 0 then pure .permission
    else do
      update fun s => s.setLease d.id none
      pure .noError

/-- The request that detaches the leased plane. -/
def detachPlane (plane crtcProperty fbProperty : UInt32) : SessionProg Bool := do
  if ← call .atomicAlloc then
    if ← call (.atomicAdd plane crtcProperty 0) then
      if ← call (.atomicAdd plane fbProperty 0) then
        if ← call (.atomicCommit true) then call (.atomicCommit false) else pure false
      else pure false
    else pure false
  else pure false

/-- The first part of a reset: the plane of a lease that was created is detached. -/
def detachLeasedPlane (e : LeaseState) (result : DisplayError) : SessionProg DisplayError := do
  if e.lesseeId ≠ 0 ∧ e.planeId ≠ 0 then
    match ← getDrmProperty e.planeId "CRTC_ID" with
    | none => pure .hardware
    | some (crtcProperty, _) =>
      match ← getDrmProperty e.planeId "FB_ID" with
      | none => pure .hardware
      | some (fbProperty, _) =>
        if ← detachPlane e.planeId crtcProperty fbProperty then pure result else pure .hardware
  else pure result

/-- The second part: a connected display is switched off by a synchronous commit. -/
def resetConnectedDisplay (d : Device) (result : DisplayError) : SessionProg DisplayError := do
  call (.perform (.planesResetCache d.crtcId))
  call (.perform (.crtcResetCache d.crtcId))
  call (.perform (.connectorSetCrtc d.connId d.crtcId))
  call (.perform (.crtcSetMode d.crtcId))
  call (.perform (.crtcSetInactive d.crtcId))
  call (.perform (.connectorPowerOff d.connId))
  if ← call .nullCommit then pure result else pure .hardware

/-- Gives the pipeline back to Android. -/
def resetPipeline (d : Device) (e : LeaseState) (result : DisplayError) :
    SessionProg DisplayError := do
  let result ← detachLeasedPlane e result
  let (_, connected) ← isExternalDisplayLeaseConnected d
  if connected && d.atomic then resetConnectedDisplay d result else pure result

/-- `HWDeviceDRM::ResetExternalDisplayLease`. The entry goes even if the lease was not revoked. -/
def resetDeviceLease (d : Device) : SessionProg DisplayError := do
  let result ← revokeDeviceLease d
  match (← getSession).leases d.id with
  | none => pure result
  | some e => do
    let result ← resetPipeline d e result
    update fun s => s.setLease d.id none
    pure result

/-- The lease part of `HWDeviceDRM::Deinit`. -/
def deinitDevice (d : Device) : SessionProg DisplayError := do
  if d.tv then
    let result ← revokeDeviceLease d
    update fun s => s.setLease d.id none
    if result ≠ .noError then pure .hardware else pure .noError
  else pure .noError

end HdmiLos.Composer
