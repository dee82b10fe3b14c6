import Lwcan.IsotpOut

/-!
# Receiving (`src/isotp_in.c`)

The dispatch of a received frame, the four frame types, the handler that hands a flow-control frame
to the driver, and the release of a delivered buffer.
-/

namespace Lwcan
namespace Node

/-- A copy into the receive buffer of `pcb`, and its entry in the log. -/
def storeData (s : Node) (p : Nat) (source : Nat → UInt8) (length offset : Nat) : Node :=
  let k : FlowId := (p, .input)
  { s.emit (.store p offset length ((s.headBuffer k).elim 0 LwcanBuffer.length)) with
    heap := (s.heap.lwcanBufferCopyToOffset (s.head k) source length offset).2 }

/-- `store_sf_data(&pcb->input_flow, data, length)` -/
def storeSfData (cfg : Config) (s : Node) (p : Nat) (data : Nat → UInt8) : Node :=
  let off := if sfIsFd cfg data then fdSfDataOffset else sfDataOffset
  s.storeData p (fun i => data (off + i)) (s.flow (p, .input)).remainingData 0

/-- `store_ff_data(&pcb->input_flow, data, length)` -/
def storeFfData (cfg : Config) (s : Node) (p : Nat) (data : Nat → UInt8) (length : Nat) : Node :=
  let off := if ffIsFd cfg data then fdFfDataOffset else ffDataOffset
  let flow := s.flow (p, .input)
  let s := s.storeData p (fun i => data (off + i)) (u32 ((length : Int) - off)) 0
  s.setFlow (p, .input)
    { flow with remainingData := u32 ((flow.remainingData : Int) - ((length : Int) - off)) }

/-- `store_cf_data(&pcb->input_flow, data, length)`. When the application has released the message
under reassembly there is no buffer, and the source reads `flow->buffer->length` through NULL
(`Node.ReadsNull`): a step that `Hosted.step` does not take. -/
def storeCfData (s : Node) (p : Nat) (data : Nat → UInt8) (length : Nat) : Node :=
  let flow := s.flow (p, .input)
  let capacity := (s.headBuffer (p, .input)).elim 0 LwcanBuffer.length
  -- as many bytes as were stored before
  let offset := u32 ((capacity : Int) - flow.remainingData)
  if flow.remainingData < u8 ((length : Int) - cfDataOffset) then
    -- the last frame: what is behind the message is padding
    let s := s.storeData p (fun i => data (cfDataOffset + i)) flow.remainingData offset
    s.setFlow (p, .input)
      { flow with remainingData := u32 ((flow.remainingData : Int) - flow.remainingData) }
  else
    let s :=
      s.storeData p (fun i => data (cfDataOffset + i)) (u32 ((length : Int) - cfDataOffset)) offset
    s.setFlow (p, .input)
      { flow with
        remainingData := u32 ((flow.remainingData : Int) - ((length : Int) - cfDataOffset)) }

/-- `isotp_in_flow_output(arg)` -/
def isotpInFlowOutput (cfg : Config) (s : Node) (arg : Ptr) (frame : CanFrame) (ret : Lwcanerr) :
    Node :=
  match arg with
  | .pcb p =>
    match s.canifs.canifGetByIndex (s.pcb p).ifIndex with
    -- the interface was removed
    | none => s
    | some canif =>
      let k : FlowId := (p, .input)
      match (s.flow k).state with
      | .txFc =>
        s.canifOutput k canif (isotpFillFc cfg (s.flow k) (s.address cfg p frame)) cfg.nBr ret
      | _ => s
  | _ => s

/-- `isotp_received(pcb, buffer)`, also called by the library when no receive callback is set -/
def isotpReceived (s : Node) (pcb buffer : Option Nat) : Lwcanerr × Node :=
  match pcb, buffer with
  | some p, some b => (.ok, (s.emit (.released p b)).isotpRemoveBuffer (p, .input) (some b))
  | _, _ => (.arg, s)

/-- Hand the message at the head of the input flow over: to the receive callback, or back to the
heap if there is none. The source comes here with the message it has just stored; the head is
missing only past `Node.ReadsNull`. -/
def deliver (s : Node) (p : Nat) : Node :=
  let k : FlowId := (p, .input)
  if (s.pcb p).receive then
    match s.head k with
    | some b => s.emit (.receive p (s.pcb p).callbackArg b (s.heap.buffer b).bytes)
    | none => s
  else (s.isotpReceived (some p) (s.head k)).2

/-- `received_sf(pcb, frame)` -/
def receivedSf (cfg : Config) (s : Node) (p : Nat) (frame : CanFrame) (g : Grant) : Node :=
  let k : FlowId := (p, .input)
  -- a message is being received
  if (s.flow k).state ≠ .idle then s
  else
    let length := isotpGetSfDl cfg frame.data
    match s.heap.lwcanBufferNew length g with
    -- no memory, or a length of zero
    | (none, heap) => { s with heap }.callError k (s.pcb p).callbackArg .memory
    | (some b, heap) =>
      let s := { s with heap }
      let s :=
        s.setFlow k { s.flow k with buffer := b :: (s.flow k).buffer, remainingData := length }
      let s := s.emit (.opened p b frame.wire)
      (s.storeSfData cfg p frame.data).deliver p

/-- The end of `received_ff`, from the label `output` on -/
def receivedFfOutput (cfg : Config) (s : Node) (p : Nat) : Node :=
  let k : FlowId := (p, .input)
  (s.setFlow k
    { s.flow k with bs := u8 cfg.receiveBs, st := u8 cfg.receiveSt, state := .txFc }).lwcanTimeout 0
      .isotpInFlowOutput (.pcb p)

/-- `received_ff` from the return of the first-frame callback on -/
def receivedFfStore (cfg : Config) (s : Node) (p : Nat) (frame : CanFrame) (b length : Nat) :
    Node :=
  let k : FlowId := (p, .input)
  let s := s.setFlow k { s.flow k with buffer := b :: (s.flow k).buffer, remainingData := length }
  let s := s.emit (.opened p b frame.wire)
  let s := s.storeFfData cfg p frame.data frame.len
  let s := s.setFlow k { s.flow k with cfSn := 1, fs := fsReady }
  s.receivedFfOutput cfg p

/-- `received_ff(pcb, frame)` -/
def receivedFf (cfg : Config) (s : Node) (p : Nat) (frame : CanFrame) (g : Grant) : Node :=
  let k : FlowId := (p, .input)
  if (s.flow k).state ≠ .idle then s
  else
    let length := isotpGetFfDl cfg frame.data
    match s.heap.lwcanBufferNew length g with
    | (none, heap) =>
      let s := { s with heap }
      -- the peer is told OVERFLOW, after the error callback
      let s := s.setFlow k { s.flow k with fs := fsOverflow }
      if (s.pcb p).error then
        { s.emit (.error k (s.pcb p).callbackArg .memory) with
          suspended := some (.receivedFfOutput p) }
      else s.receivedFfOutput cfg p
    | (some b, heap) =>
      let s := { s with heap }
      -- the buffer is linked only when the callback has returned
      if (s.pcb p).receiveFf then
        { s.emit (.receiveFf p (s.pcb p).callbackArg) with
          suspended := some (.receivedFf p frame b length) }
      else s.receivedFfStore cfg p frame b length

/-- The end of `received_cf`, from the label `output` on -/
def receivedCfOutput (s : Node) (p : Nat) : Node :=
  (s.setState (p, .input) .txFc).lwcanTimeout 0 .isotpInFlowOutput (.pcb p)

/-- `received_cf(pcb, frame)` -/
def receivedCf (cfg : Config) (s : Node) (p : Nat) (frame : CanFrame) : Node :=
  let k : FlowId := (p, .input)
  if (s.flow k).state ≠ .waitCf then s
  else
    let s := (s.emit (.consecutive p frame.wire)).lwcanUntimeout .isotpInputErrorHandler (.pcb p)
    if (s.flow k).cfSn ≠ (frame.data 0 &&& 0x0F).toNat then
      -- not the frame that is next: the message is given up, and the peer told OVERFLOW
      let s := s.dropHead k
      (s.setFlow k { s.flow k with fs := fsOverflow }).receivedCfOutput p
    else
      let s := s.storeCfData p frame.data frame.len
      let flow := s.flow k
      -- all is received
      if flow.remainingData = 0 then (s.setState k .idle).deliver p
      else
        let s := s.setFlow k { flow with cfSn := nextSn flow.cfSn }
        -- `flow` still has the number of the frame received
        if blockOpen flow.bs flow.cfSn then
          (s.setState k .waitCf).lwcanTimeout cfg.nCr .isotpInputErrorHandler (.pcb p)
        else (s.setFlow k { s.flow k with fs := fsReady }).receivedCfOutput p

/-- `received_fc(pcb, frame)` -/
def receivedFc (cfg : Config) (s : Node) (p : Nat) (frame : CanFrame) : Node :=
  let k : FlowId := (p, .output)
  if (s.flow k).state ≠ .waitFc then s
  else
    let fs := (frame.data 0 &&& 0x0F).toNat
    let bs := (frame.data 1).toNat
    let st := (frame.data 2).toNat
    let s := (s.emit (.flowControl p fs bs st)).lwcanUntimeout .isotpOutputErrorHandler (.pcb p)
    let s := s.setFlow k { s.flow k with fs }
    let flow := s.flow k
    if fs = fsWait ∧ flow.nWft ≠ 0 then
      -- `flow->n_wft -= 1` on a `uint8_t`
      (s.setFlow k { flow with nWft := u8 ((flow.nWft : Int) - 1) }).lwcanTimeout cfg.nBs
        .isotpOutputErrorHandler (.pcb p)
    else if fs ≠ fsReady then
      -- OVERFLOW, an unknown status, or one WAIT too many
      ((s.dropHead k).setState k .idle).callError k (s.pcb p).callbackArg .aborted
    else
      -- anything beyond the milliseconds becomes one millisecond
      let st := if stMsRangeMax < st then 1 else st
      (s.setFlow k { flow with bs, st, state := .txCf }).lwcanTimeout 0 .isotpOutFlowOutput (.pcb p)

/-- The pcb `isotp_input` finds for a frame -/
def findPcb (s : Node) (canif : Nat) (frame : CanFrame) : Option Nat :=
  s.isotpPcbList.find? fun p =>
    (s.pcb p).ifIndex = s.canifs.canifGetIndex (some canif) && (s.pcb p).rxId = frame.canId

/-- `isotp_input(canif, frame)` -/
def isotpInput (cfg : Config) (s : Node) (canif : Nat) (frame : CanFrame) (g : Grant) : Node :=
  match s.findPcb canif frame with
  | none => s
  | some p =>
    if frame.data 0 &&& frameTypeMask = sfType then s.receivedSf cfg p frame g
    else if frame.data 0 &&& frameTypeMask = ffType then s.receivedFf cfg p frame g
    else if frame.data 0 &&& frameTypeMask = cfType then s.receivedCf cfg p frame
    else if frame.data 0 &&& frameTypeMask = fcType then s.receivedFc cfg p frame
    else s

end Node
end Lwcan
