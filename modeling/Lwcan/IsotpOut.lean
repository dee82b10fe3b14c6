import Lwcan.Node

/-!
# Sending (`src/isotp_out.c`)

`isotp_send`, the timeout handler that hands the next frame to the driver, and the driver's
confirmation. The confirmation callback of a flow runs `isotp_sent`, which serves both directions.
-/

namespace Lwcan

/-- `cf_sn += 1; if (cf_sn > CF_SN_MASK) cf_sn = 0;` -/
def nextSn (cfSn : Nat) : Nat := if cfSnMask < u8 (cfSn + 1) then 0 else u8 (cfSn + 1)

/-- The sequence numbers run through 0 to 15. -/
theorem nextSn_mod (n : Nat) : nextSn (n % 16) = (n + 1) % 16 := by
  unfold nextSn u8 cfSnMask
  split <;> omega

/-- `bs == 0 || cf_left > 0` with `cf_left = bs - cf_sn` an `int8_t`: no flow control is due after
the consecutive frame `cfSn`. -/
def blockOpen (bs cfSn : Nat) : Bool := bs = 0 || 0 < i8 ((bs : Int) - cfSn)

/-- The longest message sent as a single frame. -/
def sfMax (cfg : Config) : Nat :=
  if cfg.canfd then canfdMaxDlen - fdSfDataOffset else canMaxDlen - sfDataOffset

namespace Node

/-- `sent_sf(pcb)` -/
def sentSf (s : Node) (p : Nat) : Node :=
  let length := (s.headBuffer (p, .output)).elim 0 LwcanBuffer.length
  let s := s.isotpRemoveBuffer (p, .output) (s.head (p, .output))
  let s := s.setState (p, .output) .idle
  if (s.pcb p).sent then s.emit (.sent p (s.pcb p).callbackArg length) else s

/-- `sent_ff(pcb)` -/
def sentFf (cfg : Config) (s : Node) (p : Nat) : Node :=
  if (s.flow (p, .output)).state ≠ .txFf then s
  else
    ((s.setState (p, .output) .waitFc).emit (.waitFc p)).lwcanTimeout cfg.nBs
      .isotpOutputErrorHandler (.pcb p)

/-- `sent_cf(pcb)` -/
def sentCf (cfg : Config) (s : Node) (p : Nat) : Node :=
  let flow := s.flow (p, .output)
  if flow.remainingData = 0 then
    -- the last frame is confirmed; the length is read before the buffer is removed
    let length := (s.headBuffer (p, .output)).elim 0 LwcanBuffer.length
    let s := s.isotpRemoveBuffer (p, .output) (s.head (p, .output))
    let s := s.setState (p, .output) .idle
    if (s.pcb p).sent then s.emit (.sent p (s.pcb p).callbackArg length) else s
  else
    let s := s.setFlow (p, .output) { flow with cfSn := nextSn flow.cfSn }
    -- `flow` still has the number of the frame sent
    if blockOpen flow.bs flow.cfSn then
      (s.setState (p, .output) .txCf).lwcanTimeout flow.st .isotpOutFlowOutput (.pcb p)
    else
      ((s.setState (p, .output) .waitFc).emit (.waitFc p)).lwcanTimeout cfg.nBs
        .isotpOutputErrorHandler (.pcb p)

/-- `sent_fc(pcb)` -/
def sentFc (cfg : Config) (s : Node) (p : Nat) : Node :=
  if (s.flow (p, .input)).fs ≠ fsReady then
    -- OVERFLOW was told, so no message is awaited
    (s.setState (p, .input) .idle).callError (p, .input) (s.pcb p).callbackArg .aborted
  else
    (s.setState (p, .input) .waitCf).lwcanTimeout cfg.nCr .isotpInputErrorHandler (.pcb p)

/-- The `switch` of `isotp_sent` -/
def isotpSentSwitch (cfg : Config) (s : Node) (k : FlowId) : Node :=
  match (s.flow k).state with
  | .txSf => s.sentSf k.1
  | .txFf => s.sentFf cfg k.1
  | .txCf => s.sentCf cfg k.1
  | .txFc => s.sentFc cfg k.1
  -- the `switch` has no case for another state
  | _ => s

/-- `isotp_sent(arg, error)`. The error callback runs before the `switch`. -/
def isotpSent (cfg : Config) (s : Node) (k : FlowId) (error : Lwcanerr) : Node :=
  if error ≠ .ok then
    let s := (s.dropHead k).setState k .idle
    if (s.pcb k.1).error then
      -- the callback may call the library; the `switch` reads the state it leaves
      { s.emit (.error k (s.pcb k.1).callbackArg error) with suspended := some (.isotpSent k) }
    else s.isotpSentSwitch cfg k
  else s.isotpSentSwitch cfg k

/-- `isotp_out_flow_output(arg)`: `frame` is what the local variable holds before it is filled,
`ret` what the driver returns. -/
def isotpOutFlowOutput (cfg : Config) (s : Node) (arg : Ptr) (frame : CanFrame) (ret : Lwcanerr) :
    Node :=
  match arg with
  | .pcb p =>
    match s.canifs.canifGetByIndex (s.pcb p).ifIndex with
    -- the interface was removed
    | none => s
    | some canif =>
      let k : FlowId := (p, .output)
      let frame := s.address cfg p frame
      match (s.flow k).state with
      | .txSf =>
        let filled := isotpFillSf cfg (s.headBuffer k) (s.flow k) frame
        (s.setFlow k filled.1).canifOutput k canif filled.2 cfg.nAs ret
      | .txFf =>
        let filled := isotpFillFf cfg (s.headBuffer k) (s.flow k) frame
        (s.setFlow k filled.1).canifOutput k canif filled.2 cfg.nAs ret
      | .txCf =>
        let filled := isotpFillCf cfg (s.headBuffer k) (s.flow k) frame
        (s.setFlow k filled.1).canifOutput k canif filled.2 cfg.nCs ret
      | _ => s
  | _ => s

/-- `isotp_send(pcb, data, length)` with `length` the length of `data` -/
def isotpSend (cfg : Config) (s : Node) (pcb : Option Nat) (data : Option (List UInt8))
    (g : Grant) : Lwcanerr × Node :=
  match pcb, data with
  | some p, some d =>
    let k : FlowId := (p, .output)
    if d.length = 0 then (.arg, s)
    else if (s.flow k).state ≠ .idle then (.inprogress, s)
    else
      match s.heap.lwcanBufferNew d.length g with
      | (none, heap) => (.memory, { s with heap })
      | (some b, heap) =>
        let heap := (heap.lwcanBufferCopyTo (some b) (fun i => d.getD i 0) d.length).2
        let s := { s with heap }
        let flow :=
          { s.flow k with buffer := b :: (s.flow k).buffer, remainingData := d.length }
        let flow :=
          -- more than a single frame carries
          if sfMax cfg < flow.remainingData then
            { flow with state := .txFf, cfSn := 1, nWft := u8 cfg.nWft }
          else { flow with state := .txSf }
        (.ok,
          ((s.setFlow k flow).emit (.send p d)).lwcanTimeout 0 .isotpOutFlowOutput (.pcb p))
  | _, _ => (.arg, s)

/-- **`isotp_send` accepts** a message if and only if the flow is idle and the message gets a
buffer. -/
theorem isotpSend_eq_ok_iff {cfg : Config} {s : Node} {pcb : Option Nat} {d : List UInt8}
    {g : Grant} (hd : d ≠ []) :
    (s.isotpSend cfg pcb (some d) g).1 = .ok ↔
      ∃ p ∈ pcb, (s.flow (p, .output)).state = .idle ∧ g.granted = true := by
  have hl : d.length ≠ 0 := by simpa using hd
  cases pcb with
  | none => simp [isotpSend]
  | some p =>
    have hgrant := s.heap.lwcanBufferNew_isSome d.length g
    unfold isotpSend
    dsimp only
    rw [if_neg hl]
    -- a busy flow refuses before memory is asked for
    by_cases hi : (s.flow (p, .output)).state = .idle
    · rw [if_neg (by simp [hi])]
      generalize s.heap.lwcanBufferNew d.length g = r at hgrant
      obtain ⟨b, heap⟩ := r
      cases b with
      | none => simpa [hl, hi] using hgrant
      | some b => simpa [hl, hi] using hgrant
    · rw [if_pos hi]
      simp [hi]

end Node
end Lwcan
