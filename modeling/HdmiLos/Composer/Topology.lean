import HdmiLos.Composer.Device
import Mathlib.Algebra.Ring.Nat

/-!
# The planes and the CRTCs of a device

What `GetFixedPrimaryPlane` is to find: the planes of the primary type are the fixed planes of the
CRTCs, in the order of the lists that the kernel gives. A query is answered by the device, or fails.
-/

namespace HdmiLos.Composer

open Interaction

/-- The answers of a device that does not change. The counts of the lists are an `int` and a
    `uint32_t`. -/
structure PlaneTopology where
  crtcs : List UInt32
  planes : List UInt32
  plane : UInt32 → Plane
  properties : UInt32 → List (UInt32 × UInt64)
  property : UInt32 → Property
  named : ∀ id, (plane id).planeId = id
  crtcBound : crtcs.length < 2 ^ 31
  planeBound : planes.length < 2 ^ 32

namespace PlaneTopology

/-- The value of the property `type` of a plane. -/
def typeOf (T : PlaneTopology) (id : UInt32) : Option UInt64 :=
  ((T.properties id).find? fun p => (T.property p.1).name = "type").map (·.2)

def isPrimary (T : PlaneTopology) (id : UInt32) : Bool := T.typeOf id == some planeTypePrimary

/-- The planes of the primary type; the place of a plane in this list is its rank. -/
def primaries (T : PlaneTopology) : List UInt32 := T.planes.filter T.isPrimary

/-- A query is answered by the device, or fails. -/
def Reports (T : PlaneTopology) : (c : Io) → c.Ans → Prop
  | .getResources, a => a = none ∨ a = some T.crtcs
  | .getPlaneResources, a => a = none ∨ a = some T.planes
  | .getPlane id, a => a = none ∨ a = some (T.plane id)
  | .objectProperties id, a => a = none ∨ a = some (T.properties id)
  | .getProperty id, a => a = none ∨ a = some (T.property id)
  | _, _ => True

/-- The result of `GetFixedPrimaryPlane`, if it is right: the first index of the CRTC and the plane
    of that rank, which has the bit of the CRTC; or an error, and no plane. -/
def Fixes (T : PlaneTopology) (crtc : UInt32) (error : DisplayError) (out : FixedPrimary) : Prop :=
  if error = .noError then
    T.crtcs.findIdx? (· == crtc) = some out.crtcIndex.toNat ∧ out.crtcIndex < 32 ∧
      T.primaries[out.crtcIndex.toNat]? = some out.planeId ∧
      (T.plane out.planeId).possibleCrtcs &&& (1 <<< out.crtcIndex) ≠ 0
  else out.planeId = 0

/-- The device, where the given queries fail. -/
def env (T : PlaneTopology) (fails : Io → Bool) : Env Unit
  | .getResources, _ => some (if fails .getResources then none else some T.crtcs, ())
  | .getPlaneResources, _ => some (if fails .getPlaneResources then none else some T.planes, ())
  | .getPlane id, _ => some (if fails (.getPlane id) then none else some (T.plane id), ())
  | .objectProperties id, _ =>
    some (if fails (.objectProperties id) then none else some (T.properties id), ())
  | .getProperty id, _ => some (if fails (.getProperty id) then none else some (T.property id), ())
  | _, _ => none

/-- The planes are distinct, and each of them has one property `type` at most. -/
structure Orderly (T : PlaneTopology) : Prop where
  distinct : T.planes.Nodup
  single : ∀ id, ∀ p ∈ T.properties id, ∀ q ∈ T.properties id,
    (T.property p.1).name = "type" → (T.property q.1).name = "type" → p = q

end PlaneTopology

/-- What is read off the calls of `GetFixedPrimaryPlane`: the plane that is looked at, those of its
    properties that have not been asked about, and the planes whose type was found to be primary. -/
structure Survey where
  plane : UInt32 := 0
  properties : List (UInt32 × UInt64) := []
  primaries : List UInt32 := []

/-- What a call tells of the planes. -/
def Survey.step (x : Survey) : (c : Io) → c.Ans → Survey
  | .getPlane id, some _ => { x with plane := id }
  | .objectProperties _, some properties => { x with properties := properties }
  | .getProperty _, answer =>
    { x with
      properties := x.properties.tail
      primaries :=
        if answer.any (·.name = "type") && x.properties.head?.any (·.2 == planeTypePrimary) then
          x.primaries ++ [x.plane]
        else x.primaries }
  | _, _ => x

/-- The planes that the calls have recognised as primary. -/
def recognised (calls : List (Answered Io.Ans)) : List UInt32 :=
  (calls.foldl (fun x e => x.step e.1 e.2) ({} : Survey)).primaries

end HdmiLos.Composer
