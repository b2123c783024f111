import HdmiLos.Tracer.Basic

/-!
# The interposed ioctl

Before a traced request goes to the kernel, a record of it goes to the agent and the thread waits
for the acknowledgement; a record that is not acknowledged ends Xorg with status 125. The interposer
also answers some requests itself: a connector property that is set to the value it has, and a
modeset that the kernel rejects although only the framebuffer changes.
-/

namespace HdmiLos.Tracer

open Interaction

/-! ## Records -/

/-- The text that fits the 64 bytes of `detail`, with its terminator. -/
def detailField (text : String) : String :=
  String.ofList (text.toList.take 63)

/-- The acknowledgement is that of the record. -/
def acknowledges (record ack : TraceRecord) : Bool :=
  ack.magic == traceMagic && ack.version == traceVersion && ack.phase == traceAck &&
    ack.sequence == record.sequence

/-- The end of `exchange_record`. -/
def receiveAck (record : TraceRecord) : TracerProg Bool := do
  match ← library (call .recv) with
  | none => pure false
  | some ack =>
    if acknowledges record ack then do
      onlyIf (hasFlag ack.flags traceAckSteady) (shared .storeSteady)
      pure true
    else pure false

/-- Sends a record and awaits the answer. -/
def exchangeRecord (record : TraceRecord) : TracerProg Bool := do
  if ← library (call (.send record)) then
    if ← library (call .waitReadable) then receiveAck record else pure false
  else pure false

/-- `if (!exchange_record(&record)) _exit(125)`. -/
def exchangeOrExit (record : TraceRecord) : TracerProg Unit := do
  if ← exchangeRecord record then pure () else exit

/-- In steady state only mode sets are traced. -/
def shouldTraceRequest (request : UInt64) : TracerProg Bool := do
  let steady ← shared .loadSteady
  pure (!steady || request == drmModeSetCrtc)

/-- A record without arguments. -/
def initializeRecord (phase : UInt16) (sequence : UInt32) (request : UInt64) (name : String) :
    TraceRecord :=
  { magic := traceMagic, version := traceVersion, phase := phase, sequence := sequence,
    request := request, name := String.ofList (name.toList.take 31) }

/-- The table of `request_name`, without the requests that have a definition of their own. -/
def otherRequestNames : List (UInt64 × String) :=
  [(drmIowr 0x00 64, "VERSION"), (drmIowr 0x01 16, "GET_UNIQUE"), (0x80046402, "GET_MAGIC"),
    (0x40086409, "GEM_CLOSE"), (drmIowr 0x2d 12, "PRIME_HANDLE_TO_FD"),
    (drmIowr 0x2e 12, "PRIME_FD_TO_HANDLE"), (0x641e, "SET_MASTER"), (0x641f, "DROP_MASTER"),
    (drmIowr 0x0c 16, "GET_CAP"), (0x4010640d, "SET_CLIENT_CAP"),
    (drmIowr 0xa0 64, "MODE_GETRESOURCES"), (drmIowr 0xa3 28, "MODE_CURSOR"),
    (drmIowr 0xa7 80, "MODE_GETCONNECTOR"), (drmIowr 0xa6 20, "MODE_GETENCODER"),
    (drmIowr 0xac 16, "MODE_GETPROPBLOB"), (drmIowr 0xa4 32, "MODE_GETGAMMA"),
    (drmIowr 0xa5 32, "MODE_SETGAMMA"), (drmIowr 0xae 28, "MODE_ADDFB"),
    (drmIowr 0xad 28, "MODE_GETFB"), (drmIowr 0xaf 4, "MODE_RMFB"),
    (drmIowr 0xb1 24, "MODE_DIRTYFB"), (drmIowr 0xb2 32, "MODE_CREATE_DUMB"),
    (drmIowr 0xb3 16, "MODE_MAP_DUMB"), (drmIowr 0xb4 4, "MODE_DESTROY_DUMB"),
    (drmIowr 0xb5 16, "MODE_GETPLANERESOURCES"), (drmIowr 0xb6 32, "MODE_GETPLANE"),
    (drmIowr 0xb8 104, "MODE_ADDFB2"), (drmIowr 0xbb 36, "MODE_CURSOR2"),
    (drmIowr 0xbd 16, "MODE_CREATEPROPBLOB"), (drmIowr 0xbe 4, "MODE_DESTROYPROPBLOB"),
    (drmIowr 0x3a 24, "WAIT_VBLANK"), (drmIowr 0x3b 24, "CRTC_GET_SEQUENCE"),
    (drmIowr 0x3c 24, "CRTC_QUEUE_SEQUENCE")]

/-- The request's name. -/
def requestName (request : UInt64) : String :=
  if request == drmModeGetCrtc then "MODE_GETCRTC"
  else if request == drmModeSetCrtc then "MODE_SETCRTC"
  else if request == drmModeGetProperty then "MODE_GETPROPERTY"
  else if request == drmModeSetProperty then "MODE_SETPROPERTY"
  else if request == drmModePageFlip then "MODE_PAGE_FLIP"
  else if request == drmModeObjGetProperties then "MODE_OBJ_GETPROPERTIES"
  else if request == drmModeAtomic then "MODE_ATOMIC"
  else (otherRequestNames.lookup request).getD "DRM_IOCTL"

/-- The fields of a mode set. -/
def decodeCrtc (value : DrmCrtc) : Decoded :=
  { argument0 := value.crtcId.toUInt64, argument1 := value.fbId.toUInt64
    argument2 := value.countConnectors.toUInt64, argument3 := if value.modeValid then 1 else 0
    detail := detailField ("crtc=" ++ toString value.crtcId ++ " fb=" ++ toString value.fbId ++
      " xy=" ++ toString value.x ++ "," ++ toString value.y ++ " conns=" ++
      toString value.countConnectors ++ " mode=" ++ if value.modeValid then "1" else "0") }

/-- The fields of a property set. -/
def decodeSetProperty (value : SetProperty) : Decoded :=
  { argument0 := value.connectorId.toUInt64, argument1 := value.propId.toUInt64
    argument2 := value.value
    detail := detailField ("connector=" ++ toString value.connectorId ++ " prop=" ++
      toString value.propId ++ " value=" ++ toString value.value) }

/-- The fields of a property read. -/
def decodeObjProperties (value : ObjProperties) : Decoded :=
  { argument0 := value.objId.toUInt64, argument1 := value.objType.toUInt64
    argument2 := value.countProps.toUInt64
    detail := detailField ("obj=" ++ toString value.objId ++ " type=0x" ++
      String.ofList (Nat.toDigits 16 value.objType.toNat) ++ " props=" ++
      toString value.countProps) }

/-- The fields of a page flip. -/
def decodePageFlip (value : PageFlip) : Decoded :=
  { argument0 := value.crtcId.toUInt64, argument1 := value.fbId.toUInt64
    argument2 := value.flags.toUInt64
    detail := detailField ("crtc=" ++ toString value.crtcId ++ " fb=" ++ toString value.fbId ++
      " flags=0x" ++ String.ofList (Nat.toDigits 16 value.flags.toNat)) }

/-- The fields of an atomic commit. -/
def decodeAtomic (value : AtomicRequest) : Decoded :=
  { argument0 := value.flags.toUInt64, argument1 := value.countObjs.toUInt64
    detail := detailField ("flags=0x" ++ String.ofList (Nat.toDigits 16 value.flags.toNat) ++
      " objs=" ++ toString value.countObjs ++ " userdata=" ++ toString value.userData) }

/-- A structure that was copied is decoded, and one that could not be leaves the record empty. -/
def decodeCopy {α : Type} (source : UInt64) (p : TracerProg (Option α × Int))
    (decode : α → Decoded) : TracerProg Decoded := do
  match ← safeCopy source p with
  | some value => pure (decode value)
  | none => pure {}

/-- The choice of `decode_record`. -/
def decodeRequest (request argument : UInt64) : TracerProg Decoded :=
  if argument == 0 then pure { detail := "arg=null" }
  else if request == drmModeGetCrtc || request == drmModeSetCrtc then
    decodeCopy argument (call (.copyCrtc argument)) decodeCrtc
  else if request == drmModeObjGetProperties then
    decodeCopy argument (call (.copyObjProperties argument)) decodeObjProperties
  else if request == drmModeSetProperty then
    decodeCopy argument (call (.copySetProperty argument)) decodeSetProperty
  else if request == drmModePageFlip then
    decodeCopy argument (call (.copyPageFlip argument)) decodePageFlip
  else if request == drmModeAtomic then
    decodeCopy argument (call (.copyAtomic argument)) decodeAtomic
  else library (call (.describe request argument))

/-- Fills in the arguments. -/
def decodeRecord (record : TraceRecord) (argument : UInt64) : TracerProg TraceRecord := do
  let d ← decodeRequest record.request argument
  pure { record with argument0 := d.argument0, argument1 := d.argument1, argument2 := d.argument2,
                     argument3 := d.argument3, detail := d.detail }

/-! ## Details -/

/-- The record of a detail. -/
def detailRecord (sequence : UInt32) (request : UInt64) (name : String)
    (a0 a1 a2 a3 : UInt64) (detail : String) : TraceRecord :=
  { initializeRecord traceDetail sequence request name with
    argument0 := a0, argument1 := a1, argument2 := a2, argument3 := a3,
    detail := detailField detail }

/-- Sends a detail record. -/
def emitDetail (sequence : UInt32) (request : UInt64) (name : String) (a0 a1 a2 a3 : UInt64)
    (detail : String) : TracerProg Unit :=
  exchangeOrExit (detailRecord sequence request name a0 a1 a2 a3 detail)

/-- The details of a list, one after the other. -/
def emitDetails {α : Type} (emit : α → TracerProg Unit) : List α → TracerProg Unit
  | [] => pure ()
  | x :: xs => do
    emit x
    emitDetails emit xs

/-- The record of a connector. -/
def connectorRecord (sequence : UInt32) (request : UInt64) (value : DrmCrtc) (index : Nat)
    (connector : UInt32) : TraceRecord :=
  detailRecord sequence request "SETCRTC_CONNECTOR" value.crtcId.toUInt64 index.toUInt64
    connector.toUInt64 0 ("index=" ++ toString index ++ " connector=" ++ toString connector)

/-- The connectors of a mode set. -/
def emitSetcrtcDetails (sequence : UInt32) (request argument : UInt64) : TracerProg Unit := do
  match ← safeCopy argument (call (.copyCrtc argument)) with
  | none => pure ()
  | some value =>
    if value.countConnectors == 0 || value.countConnectors > kMaxCrtcConnectors then pure ()
    else do
      match ← safeCopy value.setConnectors
          (call (.copyU32 value.setConnectors value.countConnectors.toNat)) with
      | none => pure ()
      | some connectors =>
        emitDetails (fun i : Fin value.countConnectors.toNat =>
          exchangeOrExit (connectorRecord sequence request value i (connectors i)))
          (List.finRange _)

/-- The properties of an atomic request up to the bound: their number, or the object at which the
    bound is exceeded with the number up to it. -/
def atomicTotal (counts : List UInt32) : Except (Nat × UInt32) UInt32 :=
  go 0 0 counts
where
  go (index : Nat) (total : UInt32) : List UInt32 → Except (Nat × UInt32) UInt32
    | [] => .ok total
    | count :: counts =>
      if count > kMaxAtomicProperties - total then .error (index, total)
      else go (index + 1) (total + count) counts

/-- One property of an atomic request, with its index in its object. -/
structure AtomicDetail where
  object : UInt32
  property : UInt32
  value : UInt64
  localIndex : UInt32
  deriving DecidableEq, Repr

/-- The inner loop over the properties of an object: the details of the last `remaining` rounds and
    the property index after them. Nothing if an index is beyond what was read into an array. -/
def walkProperties (objects properties : List UInt32) (values : List UInt64)
    (objectIndex : UInt32) :
    (remaining : Nat) → (localIndex propertyIndex : UInt32) →
      Option (List AtomicDetail × UInt32)
  | 0, _, propertyIndex => some ([], propertyIndex)
  | remaining + 1, localIndex, propertyIndex => do
    let object ← objects[objectIndex.toNat]?
    let property ← properties[propertyIndex.toNat]?
    let value ← values[propertyIndex.toNat]?
    let (details, after) ← walkProperties objects properties values objectIndex remaining
      (localIndex + 1) (propertyIndex + 1)
    pure (⟨object, property, value, localIndex⟩ :: details, after)

/-- The outer loop over the objects: the details of the last `remaining` rounds. -/
def walkObjects (objects counts properties : List UInt32) (values : List UInt64) :
    (remaining : Nat) → (objectIndex propertyIndex : UInt32) → Option (List AtomicDetail)
  | 0, _, _ => some []
  | remaining + 1, objectIndex, propertyIndex => do
    let count ← counts[objectIndex.toNat]?
    let (details, after) ← walkProperties objects properties values objectIndex count.toNat 0
      propertyIndex
    let rest ← walkObjects objects counts properties values remaining (objectIndex + 1) after
    pure (details ++ rest)

/-- The record of a property. -/
def atomicRecord (sequence : UInt32) (request : UInt64) (d : AtomicDetail) : TraceRecord :=
  detailRecord sequence request "ATOMIC_PROPERTY" d.object.toUInt64 d.property.toUInt64 d.value
    d.localIndex.toUInt64 ("obj=" ++ toString d.object ++ " prop=" ++ toString d.property ++
      " value=" ++ toString d.value)

/-- The loops of `emit_atomic_details`. An access beyond an array has no meaning; here it ends
    the function. -/
def emitAtomicWalk (sequence : UInt32) (request : UInt64) (objects counts properties : List UInt32)
    (values : List UInt64) : TracerProg Unit :=
  match walkObjects objects counts properties values objects.length 0 0 with
  | none => pure ()
  | some details => emitDetails (fun d => exchangeOrExit (atomicRecord sequence request d)) details

/-- The end of `emit_atomic_details`: the properties. -/
def emitAtomicProperties (sequence : UInt32) (request : UInt64) (value : AtomicRequest)
    (objects counts : List UInt32) (total : UInt32) : TracerProg Unit := do
  if total == 0 then emitAtomicWalk sequence request objects counts [] []
  else do
    match ← safeCopy value.props (call (.copyU32 value.props total.toNat)) with
    | none => pure ()
    | some properties => do
      match ← safeCopy value.propValues (call (.copyU64 value.propValues total.toNat)) with
      | none => pure ()
      | some values =>
        emitAtomicWalk sequence request objects counts (List.ofFn properties) (List.ofFn values)

/-- The properties of a commit. -/
def emitAtomicDetails (sequence : UInt32) (request argument : UInt64) : TracerProg Unit := do
  match ← safeCopy argument (call (.copyAtomic argument)) with
  | none => pure ()
  | some value =>
    if value.countObjs == 0 then pure ()
    else if value.countObjs > kMaxAtomicObjects then
      emitDetail sequence request "ATOMIC_TRUNCATED" value.countObjs.toUInt64 0 0 0
        "object count exceeds trace bound"
    else do
      match ← safeCopy value.objs (call (.copyU32 value.objs value.countObjs.toNat)) with
      | none => pure ()
      | some objects => do
        match ← safeCopy value.countProps
            (call (.copyU32 value.countProps value.countObjs.toNat)) with
        | none => pure ()
        | some counts =>
          match atomicTotal (List.ofFn counts) with
          | .error (index, total) =>
            emitDetail sequence request "ATOMIC_TRUNCATED" value.countObjs.toUInt64 total.toUInt64
              ((List.ofFn counts).getD index 0).toUInt64 index.toUInt64
              "property count exceeds trace bound"
          | .ok total =>
            emitAtomicProperties sequence request value (List.ofFn objects) (List.ofFn counts) total

/-- The part of `emit_object_property_details` under the lock. -/
def cacheProperty (value : ObjProperties) (property : UInt32) (propertyValue : UInt64) :
    TracerProg Unit := do
  let _ ← shared (.cacheStore value.objId property propertyValue)

/-- One property of `emit_object_property_details`: it is cached if it is a connector's, and
    logged. -/
def emitObjectProperty (sequence : UInt32) (request : UInt64) (value : ObjProperties) (index : Nat)
    (property : UInt32) (propertyValue : UInt64) : TracerProg Unit := do
  onlyIf (value.objType == drmModeObjectConnector) (cacheProperty value property propertyValue)
  emitDetail sequence request "OBJECT_PROPERTY" value.objId.toUInt64 property.toUInt64
    propertyValue index.toUInt64 ("obj=" ++ toString value.objId ++ " prop=" ++
      toString property ++ " value=" ++ toString propertyValue ++ " index=" ++ toString index)

/-- The properties of an object. -/
def emitObjectPropertyDetails (sequence : UInt32) (request argument : UInt64) :
    TracerProg Unit := do
  match ← safeCopy argument (call (.copyObjProperties argument)) with
  | none => pure ()
  | some value =>
    if value.countProps == 0 then pure ()
    else if value.countProps > kMaxObjectProperties then
      emitDetail sequence request "OBJECT_PROPERTIES_TRUNCATED" value.objId.toUInt64
        value.objType.toUInt64 value.countProps.toUInt64 0 "property count exceeds trace bound"
    else do
      match ← safeCopy value.props (call (.copyU32 value.props value.countProps.toNat)) with
      | none => pure ()
      | some properties => do
        match ← safeCopy value.propValues
            (call (.copyU64 value.propValues value.countProps.toNat)) with
        | none => pure ()
        | some values =>
          emitDetails (fun i : Fin value.countProps.toNat =>
            emitObjectProperty sequence request value i (properties i) (values i))
            (List.finRange _)

/-! ## Requests that are answered locally -/

/-- `should_suppress_connector_property_noop`: the property, if it is to be suppressed. -/
def shouldSuppressConnectorPropertyNoop (cfg : Config) (argument : UInt64) :
    TracerProg (Option SetProperty) := do
  if cfg.suppressConnectorPropertyNoops then do
    match ← safeCopy argument (call (.copySetProperty argument)) with
    | none => pure none
    | some value => do
      if ← shared (.cacheIsNoop value.connectorId value.propId value.value) then pure (some value)
      else pure none
  else pure none

/-- `emit_detail` of a fallback that is given up. -/
def emitReject (sequence : UInt32) (a0 a1 a2 a3 : UInt64) (detail : String) : TracerProg Unit :=
  emitDetail sequence drmModeSetCrtc "SETCRTC_FALLBACK_REJECT" a0 a1 a2 a3 detail

/-- A flag as the number that is logged. -/
def flagWord (b : Bool) : UInt64 := if b then 1 else 0

/-- The horizontal and the vertical timing of two modes, and their flags. -/
def horizontalText (current requested : ModeInfo) : String :=
  "clk=" ++ toString current.clock ++ "/" ++ toString requested.clock ++ " h=" ++
    ",".intercalate ([current.hdisplay, current.hsyncStart, current.hsyncEnd,
      current.htotal].map toString) ++ "/" ++
    ",".intercalate ([requested.hdisplay, requested.hsyncStart, requested.hsyncEnd,
      requested.htotal].map toString)

def verticalText (current requested : ModeInfo) : String :=
  "v=" ++ ",".intercalate ([current.vdisplay, current.vsyncStart, current.vsyncEnd,
      current.vtotal].map toString) ++ "/" ++
    ",".intercalate ([requested.vdisplay, requested.vsyncStart, requested.vsyncEnd,
      requested.vtotal].map toString) ++ " flags=" ++
    String.ofList (Nat.toDigits 16 current.flags.toNat) ++ "/" ++
    String.ofList (Nat.toDigits 16 requested.flags.toNat)

/-- `GETCRTC` shows the framebuffer and the mode that were requested. -/
def showsRequested (requested verified : DrmCrtc) : Bool :=
  verified.fbId == requested.fbId && verified.modeValid &&
    sameModeTiming verified.mode requested.mode

/-- The attempts to see the new framebuffer. -/
def awaitFlip (fd : Int) (requested : DrmCrtc) : Nat → TracerProg Bool
  | 0 => pure false
  | attempts + 1 => do
    match ← call (.getCrtc fd requested.crtcId) with
    | .ok verified =>
      if showsRequested requested verified then pure true
      else do
        library (call (.usleep 25000))
        awaitFlip fd requested attempts
    | .error errno => do
      setErrno errno
      library (call (.usleep 25000))
      awaitFlip fd requested attempts

/-- The end of `try_same_mode_pageflip`: the page flip. -/
def flipSameMode (cfg : Config) (fd : Int) (sequence : UInt32) (requested current : DrmCrtc) :
    TracerProg Int := do
  match ← call (.pageFlip fd requested.crtcId requested.fbId) with
  | .error errno => do
    setErrno errno
    emitReject sequence requested.crtcId.toUInt64 requested.fbId.toUInt64 errno.toNat.toUInt64 0
      ("PAGE_FLIP fb=" ++ toString requested.fbId ++ " failed errno=" ++ toString errno)
    pure 0
  | .ok () => do
    if ← awaitFlip fd requested 20 then do
      emitDetail sequence drmModeSetCrtc "SETCRTC_PAGEFLIP_FALLBACK" requested.crtcId.toUInt64
        current.fbId.toUInt64 requested.fbId.toUInt64 cfg.expectedConnector.toUInt64
        ("crtc=" ++ toString requested.crtcId ++ " old_fb=" ++ toString current.fbId ++
          " new_fb=" ++ toString requested.fbId)
      pure 1
    else do
      emitReject sequence requested.crtcId.toUInt64 current.fbId.toUInt64 requested.fbId.toUInt64 0
        "PAGE_FLIP did not become current"
      setErrno eio
      pure (-1)

/-- The part of `try_same_mode_pageflip` that compares the request with the current mode. -/
def flipCurrent (cfg : Config) (fd : Int) (sequence : UInt32) (requested : DrmCrtc) :
    TracerProg Int := do
  match ← call (.getCrtc fd requested.crtcId) with
  | .error errno => do
    setErrno errno
    emitReject sequence requested.crtcId.toUInt64 errno.toNat.toUInt64 0 0
      ("GETCRTC failed errno=" ++ toString errno)
    pure 0
  | .ok current =>
    if !current.modeValid || current.fbId == 0 || current.x != requested.x ||
        current.y != requested.y then do
      emitReject sequence current.fbId.toUInt64 current.x.toUInt64 current.y.toUInt64
        (flagWord current.modeValid)
        ("current fb=" ++ toString current.fbId ++ " xy=" ++ toString current.x ++ "," ++
          toString current.y ++ " mode=" ++ toString (flagWord current.modeValid))
      pure 0
    else if !sameModeTiming current.mode requested.mode then do
      emitDetail sequence drmModeSetCrtc "SETCRTC_FALLBACK_MODE_H" current.mode.clock.toUInt64
        requested.mode.clock.toUInt64 current.mode.htotal.toUInt64 requested.mode.htotal.toUInt64
        (horizontalText current.mode requested.mode)
      emitDetail sequence drmModeSetCrtc "SETCRTC_FALLBACK_MODE_V" current.mode.vtotal.toUInt64
        requested.mode.vtotal.toUInt64 current.mode.flags.toUInt64 requested.mode.flags.toUInt64
        (verticalText current.mode requested.mode)
      pure 0
    else flipSameMode cfg fd sequence requested current

/-- The connector that was read, and zero if none was. -/
def firstConnector : Option (Fin 1 → UInt32) → UInt32
  | some connectors => connectors 0
  | none => 0

/-- The part of `try_same_mode_pageflip` that looks at the connector of the request. -/
def flipConnector (cfg : Config) (fd : Int) (sequence : UInt32) (requested : DrmCrtc) :
    TracerProg Int := do
  let copied ← safeCopy requested.setConnectors (call (.copyU32 requested.setConnectors 1))
  let connector := firstConnector copied
  if copied.isNone || connector != cfg.expectedConnector then do
    emitReject sequence connector.toUInt64 cfg.expectedConnector.toUInt64 0 0
      ("connector=" ++ toString connector ++ " expected=" ++ toString cfg.expectedConnector)
    pure 0
  else flipCurrent cfg fd sequence requested

/-- Replaces a mode set by a page flip. -/
def trySameModePageflip (cfg : Config) (fd : Int) (argument : UInt64) (sequence : UInt32) :
    TracerProg Int := do
  if !cfg.sameModePageflipFallback || cfg.expectedCrtc == 0 || cfg.expectedConnector == 0 then
    pure 0
  else do
    match ← safeCopy argument (call (.copyCrtc argument)) with
    | none => do
      emitReject sequence 0 0 0 0 "cannot read requested CRTC"
      pure 0
    | some requested =>
      if requested.crtcId != cfg.expectedCrtc || requested.fbId == 0 ||
          requested.countConnectors != 1 || !requested.modeValid then do
        emitReject sequence requested.crtcId.toUInt64 requested.fbId.toUInt64
          requested.countConnectors.toUInt64 (flagWord requested.modeValid)
          ("request crtc=" ++ toString requested.crtcId ++ " fb=" ++ toString requested.fbId ++
            " conns=" ++ toString requested.countConnectors ++ " mode=" ++
            toString (flagWord requested.modeValid))
        pure 0
      else flipConnector cfg fd sequence requested

/-! ## The entry points -/

/-- `_IOC_TYPE(request) == DRM_IOCTL_BASE`. -/
def isDrmRequest (request : UInt64) : Bool :=
  (request >>> 8) &&& 0xff == 0x64

/-- The exchange of a record with the decoded request. -/
def exchangeDecoded (record : TraceRecord) (argument : UInt64) : TracerProg Unit := do
  let record ← decodeRecord record argument
  exchangeOrExit record

/-- The details of a request that come before it. -/
def emitRequestDetails (sequence : UInt32) (request argument : UInt64) : TracerProg Unit :=
  if request == drmModeSetCrtc then emitSetcrtcDetails sequence request argument
  else if request == drmModeAtomic then emitAtomicDetails sequence request argument
  else pure ()

/-- The part of `ioctl` before the kernel call: the sequence number of the request, which is zero if
    it is not traced. -/
def traceBeforeCall (traced : Bool) (request argument : UInt64) : TracerProg UInt32 := do
  if traced then do
    let sequence ← shared .fetchAddSequence
    exchangeDecoded (initializeRecord traceBefore sequence request (requestName request)) argument
    emitRequestDetails sequence request argument
    pure sequence
  else pure 0

/-- The part of `ioctl` after the kernel call. -/
def traceAfterCall (traced : Bool) (sequence : UInt32) (request argument : UInt64) (result : Int)
    (errno : Int) : TracerProg Unit := do
  if traced then do
    exchangeDecoded { initializeRecord traceAfter sequence request (requestName request) with
      result := result, error := if result < 0 then errno else 0 } argument
    onlyIf (result ≥ 0 && request == drmModeObjGetProperties)
      (emitObjectPropertyDetails sequence request argument)
  else pure ()

/-- The records of a request that is suppressed. -/
def traceSuppressed (sequence : UInt32) (request argument : UInt64) (suppressed : SetProperty) :
    TracerProg Unit := do
  emitDetail sequence request "SUPPRESSED_CONNECTOR_NOOP" suppressed.connectorId.toUInt64
    suppressed.propId.toUInt64 suppressed.value 0
    ("connector=" ++ toString suppressed.connectorId ++ " prop=" ++ toString suppressed.propId ++
      " value=" ++ toString suppressed.value)
  exchangeDecoded (initializeRecord traceAfter sequence request (requestName request)) argument

/-- The answer to a request that is suppressed. -/
def answerSuppressed (traced : Bool) (sequence : UInt32) (request argument : UInt64)
    (suppressed : SetProperty) : TracerProg Int := do
  onlyIf traced (traceSuppressed sequence request argument suppressed)
  assign fun v => { v with inTrace := false, errno := 0 }
  pure 0

/-- The system call with its result, and the `errno` after it. -/
def kernelCall (fd : Int) (request argument : UInt64) : TracerProg (Int × Int) := do
  setErrno 0
  match ← call (.ioctl fd request argument) with
  | .ok result => pure (result, 0)
  | .error errno => do
    setErrno errno
    pure (-1, errno)

/-- A modeset that was rejected is tried as a page flip: the result of the request and its
    `errno`. -/
def fallBack (cfg : Config) (fd : Int) (request argument : UInt64) (sequence : UInt32)
    (result savedErrno : Int) : TracerProg (Int × Int) := do
  if result < 0 && savedErrno == einval && request == drmModeSetCrtc then do
    let fallback ← trySameModePageflip cfg fd argument sequence
    if fallback > 0 then pure (0, 0)
    else if fallback < 0 then do
      let v ← getThread
      pure (result, v.errno)
    else pure (result, savedErrno)
  else pure (result, savedErrno)

/-- The part of `ioctl` that passes the request to the kernel. -/
def passRequest (cfg : Config) (traced : Bool) (sequence : UInt32) (fd : Int)
    (request argument : UInt64) : TracerProg Int := do
  let (result, savedErrno) ← kernelCall fd request argument
  let (result, savedErrno) ← fallBack cfg fd request argument sequence result savedErrno
  traceAfterCall traced sequence request argument result savedErrno
  assign fun v => { v with inTrace := false, errno := savedErrno }
  pure result

/-- The property that `ioctl` suppresses. -/
def suppressedBy (cfg : Config) (request argument : UInt64) : TracerProg (Option SetProperty) :=
  if request == drmModeSetProperty then shouldSuppressConnectorPropertyNoop cfg argument
  else pure none

/-- A system call that is not traced. -/
def plainCall (fd : Int) (request argument : UInt64) : TracerProg Int := do
  match ← call (.ioctl fd request argument) with
  | .ok result => pure result
  | .error errno => do
    setErrno errno
    pure (-1)

/-- The interposed `ioctl`. -/
def ioctl (cfg : Config) (fd : Int) (request argument : UInt64) : TracerProg Int := do
  let v ← getThread
  if !cfg.traced || v.inTrace || !isDrmRequest request then plainCall fd request argument
  else do
    assign fun v => { v with inTrace := true }
    let traced ← shouldTraceRequest request
    let sequence ← traceBeforeCall traced request argument
    match ← suppressedBy cfg request argument with
    | some suppressed => answerSuppressed traced sequence request argument suppressed
    | none => passRequest cfg traced sequence fd request argument

/-- Why `drmModeGetProperty` hides a property from Xorg. -/
def ignoredReason (cfg : Config) (property : Property) : Option String :=
  if cfg.ignoreXorgBitmaskProperties && hasFlag property.flags drmModePropBitmask then
    some "IGNORED_XORG_BITMASK"
  else if cfg.ignoreXorgPointerProperties && property.name == "RETIRE_FENCE" then
    some "IGNORED_XORG_POINTER"
  else none

/-- The record of a hidden property. -/
def traceIgnored (cfg : Config) (property : Property) (reason : String) : TracerProg Unit := do
  let v ← getThread
  if cfg.traced && !v.inTrace then do
    if ← shouldTraceRequest drmModeGetProperty then do
      assign fun v => { v with inTrace := true }
      let sequence ← shared .fetchAddSequence
      emitDetail sequence drmModeGetProperty reason property.propId.toUInt64
        property.flags.toUInt64 0 0 ("prop=" ++ toString property.propId ++ " flags=0x" ++
          String.ofList (Nat.toDigits 16 property.flags.toNat) ++ " name=" ++
          String.ofList (property.name.toList.take 28))
      assign fun v => { v with inTrace := false }
    else pure ()
  else pure ()

/-- The interposed `drmModeGetProperty`. -/
def drmModeGetPropertyHook (cfg : Config) (fd : Int) (id : UInt32) :
    TracerProg (Option Property) := do
  match ← library (call (.realGetProperty fd id)) with
  | none => pure none
  | some property =>
    match ignoredReason cfg property with
    | none => pure (some property)
    | some reason => do
      traceIgnored cfg property reason
      library (call (.freeProperty property))
      pure none

/-- The end of `hdmi_los_trace_initialize`: the first record. -/
def traceInitialize (cfg : Config) : TracerProg Unit :=
  if cfg.traced then
    exchangeOrExit { initializeRecord traceLoaded 0 0 "DRMTRACE_LOADED" with
      detail := detailField ("protocol=" ++ toString traceVersion) }
  else pure ()

end HdmiLos.Tracer
