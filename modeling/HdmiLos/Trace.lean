import HdmiLos.Protocol

/-!
# Trace records and DRM structures

The record in which the interposed Xorg process describes an ioctl to the agent, and the parts of
the kernel's DRM interface that more than one program looks at.
-/

namespace HdmiLos

/-! ## Trace records -/

def traceMagic : UInt32 := 0x54524345
def traceVersion : UInt16 := 2

/-- The flag of an acknowledgement that ends the routine tracing. -/
def traceAckSteady : UInt32 := 1

def traceLoaded : UInt16 := 1
def traceBefore : UInt16 := 2
def traceDetail : UInt16 := 3
def traceAfter : UInt16 := 4
def traceAck : UInt16 := 5

/-- `struct hdmi_los_trace_record`, without the process ids and the descriptor, which nobody
    reads. -/
structure TraceRecord where
  magic : UInt32 := 0
  version : UInt16 := 0
  phase : UInt16 := 0
  sequence : UInt32 := 0
  error : Int := 0
  flags : UInt32 := 0
  request : UInt64 := 0
  result : Int := 0
  argument0 : UInt64 := 0
  argument1 : UInt64 := 0
  argument2 : UInt64 := 0
  argument3 : UInt64 := 0
  name : String := ""
  detail : String := ""
  deriving DecidableEq, Repr, Inhabited

/-- The record is a detail of a request, with this name and these arguments. -/
structure TraceRecord.IsDetail (record : TraceRecord) (sequence : UInt32) (request : UInt64)
    (name : String) (arguments : UInt64 × UInt64 × UInt64 × UInt64) : Prop where
  phase : record.phase = traceDetail
  sequence : record.sequence = sequence
  request : record.request = request
  name : record.name = name
  arguments : (record.argument0, record.argument1, record.argument2, record.argument3) = arguments

/-! ## Requests -/

/-- `DRM_IOWR(nr, type)` for a type of `size` bytes. -/
def drmIowr (nr size : UInt64) : UInt64 :=
  (0xc0006400 : UInt64) ||| (size <<< 16) ||| nr

def drmModeGetCrtc : UInt64 := drmIowr 0xa1 104
def drmModeSetCrtc : UInt64 := drmIowr 0xa2 104
def drmModeGetProperty : UInt64 := drmIowr 0xaa 64
def drmModeSetProperty : UInt64 := drmIowr 0xab 16
def drmModePageFlip : UInt64 := drmIowr 0xb0 24
def drmModeObjGetProperties : UInt64 := drmIowr 0xb9 32
def drmModeAtomic : UInt64 := drmIowr 0xbc 56

/-! ## Modes -/

/-- `struct drm_mode_modeinfo`, with the fields of its timing. -/
structure ModeInfo where
  clock : UInt32 := 0
  hdisplay : UInt16 := 0
  hsyncStart : UInt16 := 0
  hsyncEnd : UInt16 := 0
  htotal : UInt16 := 0
  hskew : UInt16 := 0
  vdisplay : UInt16 := 0
  vsyncStart : UInt16 := 0
  vsyncEnd : UInt16 := 0
  vtotal : UInt16 := 0
  vscan : UInt16 := 0
  flags : UInt32 := 0
  deriving DecidableEq, Repr, Inhabited

/-- The timings agree. -/
def sameModeTiming (left right : ModeInfo) : Bool :=
  left.clock == right.clock && left.hdisplay == right.hdisplay &&
    left.hsyncStart == right.hsyncStart && left.hsyncEnd == right.hsyncEnd &&
    left.htotal == right.htotal && left.hskew == right.hskew &&
    left.vdisplay == right.vdisplay && left.vsyncStart == right.vsyncStart &&
    left.vsyncEnd == right.vsyncEnd && left.vtotal == right.vtotal &&
    left.vscan == right.vscan && left.flags == right.flags

/-- `struct drm_mode_crtc`, with the fields that are compared. -/
structure DrmCrtc where
  crtcId : UInt32 := 0
  fbId : UInt32 := 0
  x : UInt32 := 0
  y : UInt32 := 0
  countConnectors : UInt32 := 0
  setConnectors : UInt64 := 0
  modeValid : Bool := false
  mode : ModeInfo := {}
  deriving DecidableEq, Repr, Inhabited

end HdmiLos
