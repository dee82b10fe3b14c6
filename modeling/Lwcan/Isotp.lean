import Lwcan.Buffer

/-!
# ISO-TP flows and frames (`src/isotp.c`, `include/lwcan/isotp.h`, `isotp_private.h`)

The per-connection structures, and the functions that read and build frames. A frame is filled into
memory whose previous contents are arbitrary (a local variable of the caller), so the fill functions
take the frame they fill.

A flow's `buffer` field is the head of a chain linked by `next`; the model keeps the chain as a list
of buffer addresses.
-/

namespace Lwcan

/-- `isotp_state_t` -/
inductive IsotpState
  | idle
  | txSf
  | txFf
  | txCf
  | txFc
  | waitCf
  | waitFc
  deriving DecidableEq, Repr

/-- `struct isotp_flow` without its `pcb` field -/
structure IsotpFlow where
  state : IsotpState := .idle
  buffer : List Nat := []
  remainingData : Nat := 0
  /-- Consecutive frame serial number -/
  cfSn : Nat := 0
  /-- Flow status -/
  fs : Nat := 0
  /-- Block size -/
  bs : Nat := 0
  /-- Separation time -/
  st : Nat := 0
  /-- Number of receiver wait frames -/
  nWft : Nat := 0
  deriving DecidableEq, Repr

/-- The two flows of a pcb: `output_flow` sends, `input_flow` receives. -/
inductive Dir
  | output
  | input
  deriving DecidableEq, Repr

/-- `struct isotp_pcb` without its `next` field; a callback is modelled by whether it is
registered. -/
structure IsotpPcb where
  ifIndex : Nat := 0
  receive : Bool := false
  receiveFf : Bool := false
  sent : Bool := false
  error : Bool := false
  callbackArg : Ptr := .null
  txId : Nat := 0
  rxId : Nat := 0
  outputFlow : IsotpFlow := {}
  inputFlow : IsotpFlow := {}
  deriving DecidableEq, Repr

namespace IsotpPcb

/-- The flow of a direction. -/
def flow (pcb : IsotpPcb) : Dir → IsotpFlow
  | .output => pcb.outputFlow
  | .input => pcb.inputFlow

/-- Replace the flow of a direction. -/
def setFlow (pcb : IsotpPcb) : Dir → IsotpFlow → IsotpPcb
  | .output, fl => { pcb with outputFlow := fl }
  | .input, fl => { pcb with inputFlow := fl }

@[simp] theorem flow_setFlow_self (pcb : IsotpPcb) (d : Dir) (fl : IsotpFlow) :
    (pcb.setFlow d fl).flow d = fl := by
  cases d <;> rfl

theorem flow_setFlow_of_ne (pcb : IsotpPcb) {d d' : Dir} (fl : IsotpFlow) (h : d' ≠ d) :
    (pcb.setFlow d fl).flow d' = pcb.flow d' := by
  cases d <;> cases d' <;> first | rfl | exact absurd rfl h

end IsotpPcb

/-! ### Frame format constants -/

/-- `FRAME_TYPE_MASK` -/
def frameTypeMask : UInt8 := 0xF0
/-- `SF` -/
def sfType : UInt8 := 0x00
/-- `FF` -/
def ffType : UInt8 := 0x10
/-- `CF` -/
def cfType : UInt8 := 0x20
/-- `FC` -/
def fcType : UInt8 := 0x30
/-- `SF_DATA_OFFSET` -/
def sfDataOffset : Nat := 1
/-- `FD_SF_DATA_OFFSET` -/
def fdSfDataOffset : Nat := 2
/-- `FF_DATA_OFFSET` -/
def ffDataOffset : Nat := 2
/-- `FD_FF_DATA_OFFSET` -/
def fdFfDataOffset : Nat := 6
/-- `CF_DATA_OFFSET` -/
def cfDataOffset : Nat := 1
/-- `CF_SN_MASK` -/
def cfSnMask : Nat := 0x0F
/-- `FC_PADDING_OFFSET` -/
def fcPaddingOffset : Nat := 3
/-- `FS_READY` -/
def fsReady : Nat := 0
/-- `FS_WAIT` -/
def fsWait : Nat := 1
/-- `FS_OVERFLOW` -/
def fsOverflow : Nat := 2
/-- `ST_MS_RANGE_MAX` -/
def stMsRangeMax : Nat := 0x7F

/-! ### Reading length fields -/

/-- `(data[FD_SF_FLAG_OFFSET] & FD_SF_FLAG_MASK) == FD_SF_FLAG` in a CAN FD build -/
def sfIsFd (cfg : Config) (data : Nat → UInt8) : Bool := cfg.canfd && data 0 &&& 0x0F == 0

/-- `data[FD_FF_FLAG_OFFSET] == FD_FF_FLAG` in a CAN FD build -/
def ffIsFd (cfg : Config) (data : Nat → UInt8) : Bool := cfg.canfd && data 1 == 0

/-- `isotp_get_sf_dl(frame_data)` -/
def isotpGetSfDl (cfg : Config) (data : Nat → UInt8) : Nat :=
  if sfIsFd cfg data then (data 1).toNat else (data 0 &&& 0x0F).toNat

/-- `isotp_get_ff_dl(frame_data)`. In the CAN FD format each of the four statements assigns
`length` anew. -/
def isotpGetFfDl (cfg : Config) (data : Nat → UInt8) : Nat := Id.run do
  let mut length := 0
  if ffIsFd cfg data then
    length := (data 2).toNat <<< 24
    length := (data 3).toNat <<< 16
    length := (data 4).toNat <<< 8
    length := (data 5).toNat
  else
    length := (data 0 &&& 0x0F).toNat <<< 8
    length := length ||| (data 1).toNat
  return length

/-! ### Building frames -/

/-- `padding_length[]` -/
def paddingLength : List Nat :=
  [8, 8, 8, 8, 8, 8, 8, 8, 8,
   12, 12, 12, 12,
   16, 16, 16, 16,
   20, 20, 20, 20,
   24, 24, 24, 24,
   32, 32, 32, 32, 32, 32, 32, 32,
   48, 48, 48, 48, 48, 48, 48, 48,
   48, 48, 48, 48, 48, 48, 48, 48]

/-- `get_padding_length(length)` -/
def getPaddingLength (length : Nat) : Nat :=
  if 48 < length then 64 else paddingLength.getD length 0

/-- The longest payload of a frame -/
def maxDlen (cfg : Config) : Nat := if cfg.canfd then canfdMaxDlen else canMaxDlen

theorem maxDlen_lt (cfg : Config) : maxDlen cfg < 256 := by
  unfold maxDlen
  split <;> decide

/-- `frame->len` of a data frame of a flow with `remaining` bytes left -/
def dataFrameLen (cfg : Config) (remaining : Nat) : Nat :=
  if cfg.canfd then getPaddingLength remaining else canMaxDlen

namespace CanFrame

/-- `add_padding(frame->data + off, num)` -/
def addPadding (cfg : Config) (f : CanFrame) (off num : Nat) : CanFrame :=
  { f with data := Mem.blit f.data off (fun _ => cfg.paddingByte) num }

/-- `lwcan_buffer_copy_from_offset(flow->buffer, frame->data + off, length, offset)` -/
def copyFromOffset (f : CanFrame) (off : Nat) (buffer : Option LwcanBuffer) (length offset : Nat) :
    CanFrame :=
  { f with data := (lwcanBufferCopyFromOffset buffer f.data off length offset).2 }

/-- `lwcan_buffer_copy_from(flow->buffer, frame->data + off, length)` -/
def copyFrom (f : CanFrame) (off : Nat) (buffer : Option LwcanBuffer) (length : Nat) : CanFrame :=
  { f with data := (lwcanBufferCopyFrom buffer f.data off length).2 }

@[simp] theorem addPadding_len (cfg : Config) (f : CanFrame) (off num : Nat) :
    (f.addPadding cfg off num).len = f.len := rfl

@[simp] theorem addPadding_canId (cfg : Config) (f : CanFrame) (off num : Nat) :
    (f.addPadding cfg off num).canId = f.canId := rfl

@[simp] theorem addPadding_data (cfg : Config) (f : CanFrame) (off num : Nat) :
    (f.addPadding cfg off num).data = Mem.blit f.data off (fun _ => cfg.paddingByte) num := rfl

@[simp] theorem copyFromOffset_len (f : CanFrame) (off : Nat) (b : Option LwcanBuffer) (n o : Nat) :
    (f.copyFromOffset off b n o).len = f.len := rfl

@[simp] theorem copyFromOffset_canId (f : CanFrame) (off : Nat) (b : Option LwcanBuffer)
    (n o : Nat) : (f.copyFromOffset off b n o).canId = f.canId := rfl

@[simp] theorem copyFromOffset_data (f : CanFrame) (off : Nat) (b : Option LwcanBuffer)
    (n o : Nat) :
    (f.copyFromOffset off b n o).data = (lwcanBufferCopyFromOffset b f.data off n o).2 := rfl

@[simp] theorem copyFrom_eq (f : CanFrame) (off : Nat) (b : Option LwcanBuffer) (n : Nat) :
    f.copyFrom off b n = f.copyFromOffset off b n 0 := rfl

end CanFrame

/-- `isotp_fill_sf(flow, frame)`; `buffer` is the buffer at the head of the flow. -/
def isotpFillSf (cfg : Config) (buffer : Option LwcanBuffer) (flow : IsotpFlow) (frame : CanFrame) :
    IsotpFlow × CanFrame :=
  let off := if cfg.canfd then fdSfDataOffset else sfDataOffset
  let f := { frame with len := dataFrameLen cfg flow.remainingData }
  -- `frame->data[0] = SF`, then the length, in the next byte of a CAN FD frame
  let f := f.set 0 sfType
  let f :=
    if cfg.canfd then f.set 1 (UInt8.ofNat (flow.remainingData &&& 0xFF))
    else f.orAt 0 (UInt8.ofNat (flow.remainingData &&& 0x0F))
  -- the length is not checked against the room in the frame
  let f := f.copyFrom off buffer flow.remainingData
  let f :=
    -- compared as a `uint8_t`
    if flow.remainingData < u8 ((f.len : Int) - off) then
      f.addPadding cfg (off + flow.remainingData) (u8 ((f.len : Int) - (off + flow.remainingData)))
    else f
  ({ flow with remainingData := u32 ((flow.remainingData : Int) - flow.remainingData) }, f)

/-- `isotp_fill_ff(flow, frame)` -/
def isotpFillFf (cfg : Config) (buffer : Option LwcanBuffer) (flow : IsotpFlow) (frame : CanFrame) :
    IsotpFlow × CanFrame :=
  let off := if cfg.canfd then fdFfDataOffset else ffDataOffset
  let f := { frame with len := dataFrameLen cfg flow.remainingData }
  let f := f.set 0 ffType
  let f :=
    if cfg.canfd then
      ((((f.set 1 0).set 2 (UInt8.ofNat (flow.remainingData >>> 24))).set 3
        (UInt8.ofNat (flow.remainingData >>> 16))).set 4
          (UInt8.ofNat (flow.remainingData >>> 8))).set
        5 (UInt8.ofNat flow.remainingData)
    else
      -- twelve bits of the length
      (f.orAt 0 (UInt8.ofNat (flow.remainingData >>> 8) &&& 0x0F)).set 1
        (UInt8.ofNat flow.remainingData &&& 0xFF)
  -- a first frame is always full
  let f := f.copyFrom off buffer (u32 ((f.len : Int) - off))
  ({ flow with remainingData := u32 ((flow.remainingData : Int) - ((f.len : Int) - off)) }, f)

/-- `isotp_fill_cf(flow, frame)` -/
def isotpFillCf (cfg : Config) (buffer : Option LwcanBuffer) (flow : IsotpFlow) (frame : CanFrame) :
    IsotpFlow × CanFrame :=
  let f := { frame with len := dataFrameLen cfg flow.remainingData }
  let f := f.set 0 cfType
  let f := f.orAt 0 (UInt8.ofNat (flow.cfSn &&& cfSnMask))
  -- `flow->buffer->length - flow->remaining_data`: the bytes sent so far
  let offset := u32 (((buffer.elim 0 LwcanBuffer.length : Nat) : Int) - flow.remainingData)
  if flow.remainingData < u8 ((f.len : Int) - cfDataOffset) then
    let f := f.copyFromOffset cfDataOffset buffer flow.remainingData offset
    let f := f.addPadding cfg (flow.remainingData + cfDataOffset)
      (u8 ((f.len : Int) - (cfDataOffset + flow.remainingData)))
    ({ flow with remainingData := u32 ((flow.remainingData : Int) - flow.remainingData) }, f)
  else
    -- a full frame needs no padding
    let f := f.copyFromOffset cfDataOffset buffer (u32 ((f.len : Int) - cfDataOffset)) offset
    ({ flow with
      remainingData := u32 ((flow.remainingData : Int) - ((f.len : Int) - cfDataOffset)) },
      f)

/-- `isotp_fill_fc(flow, frame)` -/
def isotpFillFc (cfg : Config) (flow : IsotpFlow) (frame : CanFrame) : CanFrame :=
  let f := { frame with len := canMaxDlen }
  let f := f.set 0 fcType
  let f := f.orAt 0 (UInt8.ofNat (flow.fs &&& 0x0F))
  let f := f.set 1 (UInt8.ofNat flow.bs)
  let f := f.set 2 (UInt8.ofNat flow.st)
  if fcPaddingOffset ≤ f.len then
    f.addPadding cfg fcPaddingOffset (u8 ((f.len : Int) - fcPaddingOffset))
  else f

end Lwcan
