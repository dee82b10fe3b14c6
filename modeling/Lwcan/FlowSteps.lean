import Lwcan.View

/-!
# What a step does to one flow

The transitions of the two flows of a pcb, read off the code once and for all. `OutputStep` lists
everything that can happen to an output flow and `InputStep` everything that can happen to an input
flow: for each the event, what was tested on the way, and the flow's view after. `Moves` says that a
step of a node either leaves a flow's view as it was or is one of these, and `moves_step` that every
step does.

Every property of one flow is proved from these two relations: an invariant of `Node.view`, one case
for each constructor.
-/

namespace Lwcan

/-! ### The states of a direction -/

/-- The states the code puts a flow of this direction into. -/
def Dir.uses : Dir → IsotpState → Bool
  | .output, .txFc | .output, .waitCf => false
  | .input, .txSf | .input, .txFf | .input, .txCf | .input, .waitFc => false
  | _, _ => true

namespace View

/-! ### Compound effects -/

/-- `n` bytes are copied to offset `off` of the buffer at the head. -/
def store (v : View) (p : Nat) (source : Nat → UInt8) (n off : Nat) : View :=
  { v with
    chain := v.chain.modifyHead fun x => (x.1, { x.2 with data := Mem.blit x.2.data off source n })
    log := v.log ++ [.store p off n v.capacity] }

/-- `store_sf_data` -/
def storeSf (cfg : Config) (v : View) (p : Nat) (data : Nat → UInt8) : View :=
  v.store p (fun i => data ((if sfIsFd cfg data then fdSfDataOffset else sfDataOffset) + i))
    v.flow.remainingData 0

/-- The offset of the payload in a first frame -/
def ffOffset (cfg : Config) (data : Nat → UInt8) : Nat :=
  if ffIsFd cfg data then fdFfDataOffset else ffDataOffset

/-- `store_ff_data` -/
def storeFf (cfg : Config) (v : View) (p : Nat) (data : Nat → UInt8) (length : Nat) : View :=
  let off := ffOffset cfg data
  let n := u32 ((length : Int) - off)
  (v.store p (fun i => data (off + i)) n 0).setFlow
    { v.flow with remainingData := u32 ((v.flow.remainingData : Int) - n) }

/-- How many bytes `store_cf_data` copies -/
def cfCount (remaining length : Nat) : Nat :=
  if remaining < u8 ((length : Int) - cfDataOffset) then remaining
  else u32 ((length : Int) - cfDataOffset)

/-- `store_cf_data` -/
def storeCf (v : View) (p : Nat) (data : Nat → UInt8) (length : Nat) : View :=
  let n := cfCount v.flow.remainingData length
  (v.store p (fun i => data (cfDataOffset + i)) n
    (u32 ((v.capacity : Int) - v.flow.remainingData))).setFlow
      { v.flow with remainingData := u32 ((v.flow.remainingData : Int) - n) }

/-- The message at the head is handed to the receive callback, or released if there is none. -/
def deliver (v : View) (pcb : IsotpPcb) (p : Nat) : View :=
  match v.chain with
  | [] => v
  | x :: _ =>
    if pcb.receive then v.emit (.receive p pcb.callbackArg x.1 x.2.bytes)
    else (v.emit (.released p x.1)).removeHead

theorem deliver_congr {pcb : IsotpPcb} (v : View) (pcb' : IsotpPcb) {p : Nat}
    (hr : pcb.receive = pcb'.receive) (ha : pcb.callbackArg = pcb'.callbackArg) :
    v.deliver pcb p = v.deliver pcb' p := by
  unfold deliver
  rw [hr, ha]

/-- `received_ff` from the label `output` on -/
def ffOutput (cfg : Config) (v : View) (slot : Bool) : View :=
  (v.setFlow
    { v.flow with bs := u8 cfg.receiveBs, st := u8 cfg.receiveSt, state := .txFc }).armOutput
    slot

/-- `received_ff` from the return of the first-frame callback on -/
def ffStore (cfg : Config) (v : View) (p : Nat) (frame : CanFrame) (b : Nat) (buf : LwcanBuffer)
    (slot : Bool) : View :=
  let v := (v.push b buf buf.length).emit (.opened p b frame.wire)
  let v := v.storeFf cfg p frame.data frame.len
  (v.setFlow { v.flow with cfSn := 1, fs := fsReady }).ffOutput cfg slot

/-- A driver reports that a frame failed: the message is given up; `isotp_sent` waits for the error
callback if there is one. -/
def refused (v : View) (k : FlowId) (pcb : IsotpPcb) (err : Lwcanerr) : View :=
  let v := (v.drop k).setState .idle
  if pcb.error then
    { v.emit (.error k pcb.callbackArg err) with suspended := some (.isotpSent k) }
  else v

/-- The driver takes the frame. -/
def accepted (v : View) (k : FlowId) (canif : Nat) (frame : CanFrame) (timeout : Nat) : View :=
  { v.emit (.output k canif frame.canId frame.wire timeout .ok) with confirms := v.confirms + 1 }

/-- The driver refuses the frame. -/
def rejected (v : View) (k : FlowId) (pcb : IsotpPcb) (canif : Nat) (frame : CanFrame)
    (timeout : Nat) (ret : Lwcanerr) : View :=
  (v.emit (.output k canif frame.canId frame.wire timeout ret)).fail k pcb.error pcb.callbackArg ret

section Refused

variable (v : View) (k : FlowId) (pcb : IsotpPcb) (err : Lwcanerr)

@[simp] theorem refused_flow :
    (v.refused k pcb err).flow = { v.flow with buffer := v.flow.buffer.tail, state := .idle } := by
  unfold refused; simp only; split <;> rfl
@[simp] theorem refused_chain : (v.refused k pcb err).chain = v.chain.tail := by
  unfold refused; simp only; split <;> rfl
@[simp] theorem refused_tx : (v.refused k pcb err).tx = v.tx := by
  unfold refused; simp only; split <;> rfl
@[simp] theorem refused_err : (v.refused k pcb err).err = v.err := by
  unfold refused; simp only; split <;> rfl
@[simp] theorem refused_confirms : (v.refused k pcb err).confirms = v.confirms := by
  unfold refused; simp only; split <;> rfl
@[simp] theorem refused_suspended : (v.refused k pcb err).suspended =
    if pcb.error then some (.isotpSent k) else v.suspended := by
  unfold refused; simp only; split <;> rfl
@[simp] theorem refused_log : (v.refused k pcb err).log =
    v.log ++ .dropped k v.flow.buffer.head? ::
      if pcb.error then [.error k pcb.callbackArg err] else [] := by
  unfold refused; simp only; split <;> simp [emit, drop, removeHead, setState, setFlow]

end Refused

/-- After a refused frame its flow waits for the error callback, or as before. -/
theorem refused_suspended_cases {v : View} {k : FlowId} {pcb : IsotpPcb} {err : Lwcanerr}
    {f : Suspended} (h : (v.refused k pcb err).suspended = some f) :
    f = .isotpSent k ∨ v.suspended = some f := by
  rw [refused_suspended] at h
  split at h
  · exact Or.inl (Option.some.inj h).symm
  · exact Or.inr h

section Deliver

variable (v : View) (pcb : IsotpPcb) (p : Nat)

@[simp] theorem deliver_tx : (v.deliver pcb p).tx = v.tx := by
  unfold deliver; split; rfl; split <;> rfl
@[simp] theorem deliver_err : (v.deliver pcb p).err = v.err := by
  unfold deliver; split; rfl; split <;> rfl
@[simp] theorem deliver_confirms : (v.deliver pcb p).confirms = v.confirms := by
  unfold deliver; split; rfl; split <;> rfl
@[simp] theorem deliver_suspended : (v.deliver pcb p).suspended = v.suspended := by
  unfold deliver; split; rfl; split <;> rfl
@[simp] theorem deliver_state : (v.deliver pcb p).flow.state = v.flow.state := by
  unfold deliver; split; rfl; split <;> rfl
@[simp] theorem deliver_fs : (v.deliver pcb p).flow.fs = v.flow.fs := by
  unfold deliver; split; rfl; split <;> rfl

end Deliver

end View

/-! ### The switch of `isotp_sent` -/

/-- The switch of `isotp_sent` on an output flow -/
inductive OutputSwitch (pcb : IsotpPcb) (p : Nat) (slot : Bool) (v : View) : View → Prop
  -- the confirmation comes after the flow has moved on, or for a message that was given up
  | skip (h : v.flow.state = .idle ∨ v.flow.state = .waitFc) : OutputSwitch pcb p slot v v
  -- `sent_sf`, or `sent_cf` after the last frame
  | complete (h : v.flow.state = .txSf ∨ v.flow.state = .txCf ∧ v.flow.remainingData = 0) :
    OutputSwitch pcb p slot v
      ((v.removeHead.setState .idle).emitIf pcb.sent (.sent p pcb.callbackArg v.capacity))
  -- `sent_ff`
  | ff (h : v.flow.state = .txFf) :
    OutputSwitch pcb p slot v (((v.setState .waitFc).emit (.waitFc p)).armError slot)
  -- `sent_cf` within a block: the next frame is due after `st`
  | cf (h : v.flow.state = .txCf) (hr : v.flow.remainingData ≠ 0)
      (hb : blockOpen v.flow.bs v.flow.cfSn) :
    OutputSwitch pcb p slot v
      ((v.setFlow { v.flow with cfSn := nextSn v.flow.cfSn, state := .txCf }).armOutput slot)
  -- `sent_cf` at the end of a block
  | block (h : v.flow.state = .txCf) (hr : v.flow.remainingData ≠ 0)
      (hb : ¬ blockOpen v.flow.bs v.flow.cfSn) :
    OutputSwitch pcb p slot v
      (((v.setFlow { v.flow with cfSn := nextSn v.flow.cfSn, state := .waitFc }).emit
        (.waitFc p)).armError slot)

/-- The switch of `isotp_sent` on an input flow -/
inductive InputSwitch (pcb : IsotpPcb) (p : Nat) (slot : Bool) (v : View) : View → Prop
  -- the switch has no case for these states
  | skip (h : v.flow.state = .idle ∨ v.flow.state = .waitCf) : InputSwitch pcb p slot v v
  -- the flow control was OVERFLOW or ABORT: there is no message to wait for
  | abort (h : v.flow.state = .txFc) (hf : v.flow.fs ≠ fsReady) :
    InputSwitch pcb p slot v
      ((v.setState .idle).emitIf pcb.error (.error (p, .input) pcb.callbackArg .aborted))
  | ready (h : v.flow.state = .txFc) (hf : v.flow.fs = fsReady) :
    InputSwitch pcb p slot v ((v.setState .waitCf).armError slot)

/-! ### The transitions -/

/-- `isotp_out_flow_output` fills one of three frames, by the state. -/
def isotpFill (cfg : Config) (buffer : Option LwcanBuffer) (flow : IsotpFlow) (frame : CanFrame) :
    Option ((IsotpFlow × CanFrame) × Nat) :=
  match flow.state with
  | .txSf => some (isotpFillSf cfg buffer flow frame, cfg.nAs)
  | .txFf => some (isotpFillFf cfg buffer flow frame, cfg.nAs)
  | .txCf => some (isotpFillCf cfg buffer flow frame, cfg.nCs)
  | _ => none

namespace Node

/-- The timeout that is due has this handler, and a pcb as its argument. -/
def Fires (s : Node) (h : Handler) (p : Nat) : Prop :=
  ∃ e timeouts, s.timeouts.expire s.now = some (e, timeouts) ∧ e.handler = h ∧ e.arg = .pcb p

/-- A free timer slot once the pending entry of a flow's error handler is cancelled -/
def slotAfterCancel (s : Node) (k : FlowId) : Bool :=
  (s.timeouts.lwcanUntimeout (errorHandler k.2) (.pcb k.1)).slotFree

/-- The interface a pcb is bound to -/
def canif (s : Node) (p : Nat) : Option Nat := s.canifs.canifGetByIndex (s.pcb p).ifIndex

end Node

/-- `isotp_send` has accepted the message `d`: `b` is its buffer. -/
def View.sendFlow (cfg : Config) (flow : IsotpFlow) (b : Nat) (d : List UInt8) : IsotpFlow :=
  if sfMax cfg < d.length then
    { flow with
      buffer := b :: flow.buffer
      remainingData := d.length
      state := .txFf
      cfSn := 1
      nWft := u8 cfg.nWft }
  else { flow with buffer := b :: flow.buffer, remainingData := d.length, state := .txSf }

/-- **The transitions of an output flow**, seen as `v` before. -/
inductive OutputStep (cfg : Config) (s : Node) (p : Nat) (v : View) : Event → View → Prop
  -- `isotp_send` accepts; nothing is sent before the timeout runs
  | send {d : List UInt8} {g : Grant} {b : Nat} {buf : LwcanBuffer}
      (hs : v.flow.state = .idle) (hd : d.length ≠ 0) (hl : d.length < 4294967296)
      (hg : g.granted) (hb : b ∉ v.flow.buffer) (hbl : buf.length = d.length)
      (hbb : buf.bytes = d) :
    OutputStep cfg s p v (.call (.isotpSend (some p) (some d) g))
      (({ v with
          flow := View.sendFlow cfg v.flow b d
          chain := (b, buf) :: v.chain }.emit (.send p d)).armOutput s.timeouts.slotFree)
  -- `isotp_out_flow_output` finds no interface, or a state in which it has nothing to send
  | skip {frame : CanFrame} {ret : Lwcanerr} (hf : s.Fires .isotpOutFlowOutput p)
      (hc : s.canif p = none ∨ v.flow.state = .idle ∨ v.flow.state = .waitFc) (ht : 0 < v.tx) :
    OutputStep cfg s p v (.timer frame ret) { v with tx := v.tx - 1 }
  -- `isotp_out_flow_output` fills a frame, and the driver takes it
  | output {frame : CanFrame} {canif : Nat} {filled : IsotpFlow × CanFrame} {timeout : Nat}
      (hf : s.Fires .isotpOutFlowOutput p) (hc : s.canif p = some canif) (ht : 0 < v.tx)
      (hfl : isotpFill cfg v.headBuffer v.flow (s.address cfg p frame) = some (filled, timeout)) :
    OutputStep cfg s p v (.timer frame .ok)
      (({ v with tx := v.tx - 1 }.setFlow filled.1).accepted (p, .output) canif filled.2 timeout)
  -- `canif->output` returns an error: the message is given up
  | reject {frame : CanFrame} {ret : Lwcanerr} {canif : Nat} {filled : IsotpFlow × CanFrame}
      {timeout : Nat} (hf : s.Fires .isotpOutFlowOutput p) (hc : s.canif p = some canif)
      (ht : 0 < v.tx)
      (hfl : isotpFill cfg v.headBuffer v.flow (s.address cfg p frame) = some (filled, timeout))
      (hr : ret ≠ .ok) :
    OutputStep cfg s p v (.timer frame ret)
      (({ v with tx := v.tx - 1 }.setFlow filled.1).rejected (p, .output) (s.pcb p) canif filled.2
        timeout ret)
  -- `isotp_output_error_handler`; its error callback gets the pcb, not `callback_arg`
  | expire {frame : CanFrame} {ret : Lwcanerr} (hf : s.Fires .isotpOutputErrorHandler p)
      (he : 0 < v.err) :
    OutputStep cfg s p v (.timer frame ret)
      ({ v with err := v.err - 1 }.fail (p, .output) (s.pcb p).error (.pcb p) .transmitTimeout)
  -- `isotp_sent` with `ERROR_OK`
  | confirm {v' : View} (hs : s.suspended = none)
      (hw : OutputSwitch (s.pcb p) p s.timeouts.slotFree { v with confirms := v.confirms - 1 } v') :
    OutputStep cfg s p v (.sent (p, .output) .ok) v'
  -- `isotp_sent` with an error; the switch follows when the error callback has returned
  | refuse {err : Lwcanerr} (hs : s.suspended = none) (he : err ≠ .ok) :
    OutputStep cfg s p v (.sent (p, .output) err)
      ({ v with confirms := v.confirms - 1 }.refused (p, .output) (s.pcb p) err)
  -- the error callback of `isotp_sent` has returned, and the switch runs on what it left
  | resume {v' : View} (hs : s.suspended = some (.isotpSent (p, .output)))
      (hw : OutputSwitch (s.pcb p) p s.timeouts.slotFree { v with suspended := none } v') :
    OutputStep cfg s p v .resume v'
  -- `received_fc`: WAIT, with some of `n_wft` left
  | wait {canif : Nat} {frame : CanFrame} {g : Grant} (hp : s.findPcb canif frame = some p)
      (hs : v.flow.state = .waitFc) (hf : (frame.data 0 &&& 0x0F).toNat = fsWait)
      (hn : v.flow.nWft ≠ 0) (ht : frame.data 0 &&& frameTypeMask = fcType) :
    OutputStep cfg s p v (.input canif frame g)
      (({ v with err := v.err - 1 }.emit (.flowControl p fsWait (frame.data 1).toNat
          (frame.data 2).toNat)).setFlow
        { v.flow with fs := fsWait, nWft := u8 ((v.flow.nWft : Int) - 1) }
        |>.armError (s.slotAfterCancel (p, .output)))
  -- `received_fc`: OVERFLOW, an unknown status, or one WAIT too many
  | abort {canif : Nat} {frame : CanFrame} {g : Grant} (hp : s.findPcb canif frame = some p)
      (hs : v.flow.state = .waitFc)
      (hf : ¬ ((frame.data 0 &&& 0x0F).toNat = fsWait ∧ v.flow.nWft ≠ 0))
      (hr : (frame.data 0 &&& 0x0F).toNat ≠ fsReady)
      (ht : frame.data 0 &&& frameTypeMask = fcType) :
    OutputStep cfg s p v (.input canif frame g)
      (({ v with err := v.err - 1 }.emit (.flowControl p (frame.data 0 &&& 0x0F).toNat
          (frame.data 1).toNat (frame.data 2).toNat)).setFlow
        { v.flow with fs := (frame.data 0 &&& 0x0F).toNat }
        |>.fail (p, .output) (s.pcb p).error (s.pcb p).callbackArg .aborted)
  -- `received_fc`: READY; separation times above 127 ms are taken as 1 ms
  | proceed {canif : Nat} {frame : CanFrame} {g : Grant} (hp : s.findPcb canif frame = some p)
      (hs : v.flow.state = .waitFc) (hf : (frame.data 0 &&& 0x0F).toNat = fsReady)
      (ht : frame.data 0 &&& frameTypeMask = fcType) :
    OutputStep cfg s p v (.input canif frame g)
      (({ v with err := v.err - 1 }.emit (.flowControl p fsReady (frame.data 1).toNat
          (frame.data 2).toNat)).setFlow
        { v.flow with
          fs := fsReady
          bs := (frame.data 1).toNat
          st := if stMsRangeMax < (frame.data 2).toNat then 1 else (frame.data 2).toNat
          state := .txCf }
        |>.armOutput (s.slotAfterCancel (p, .output)))
  -- `isotp_new` clears the chunk that it hands out
  | new (hp : (s.isotpNew cfg).1 = some p) :
    OutputStep cfg s p v (.call .isotpNew) { v with flow := {}, chain := [] }

/-- **The transitions of an input flow**, seen as `v` before. -/
inductive InputStep (cfg : Config) (s : Node) (p : Nat) (v : View) : Event → View → Prop
  -- `received_sf` without a length or without memory: the error callback, and no flow control
  | sfMemory {canif : Nat} {frame : CanFrame} {g : Grant} (hp : s.findPcb canif frame = some p)
      (ht : frame.data 0 &&& frameTypeMask = sfType) (hs : v.flow.state = .idle)
      (hg : ¬ (isotpGetSfDl cfg frame.data ≠ 0 ∧ g.granted)) :
    InputStep cfg s p v (.input canif frame g)
      (v.emitIf (s.pcb p).error (.error (p, .input) (s.pcb p).callbackArg .memory))
  -- `received_sf`: the message is stored and delivered at once
  | sf {canif : Nat} {frame : CanFrame} {g : Grant} {b : Nat} {buf : LwcanBuffer}
      (hp : s.findPcb canif frame = some p) (ht : frame.data 0 &&& frameTypeMask = sfType)
      (hs : v.flow.state = .idle) (hb : b ∉ v.flow.buffer)
      (hl : buf.length = isotpGetSfDl cfg frame.data) (hn : buf.length ≠ 0) :
    InputStep cfg s p v (.input canif frame g)
      ((((v.push b buf buf.length).emit (.opened p b frame.wire)).storeSf cfg p frame.data).deliver
        (s.pcb p) p)
  -- `received_ff` without a length or without memory, and nobody to tell: OVERFLOW is due
  | ffMemory {canif : Nat} {frame : CanFrame} {g : Grant} (hp : s.findPcb canif frame = some p)
      (ht : frame.data 0 &&& frameTypeMask = ffType) (hs : v.flow.state = .idle)
      (hg : ¬ (isotpGetFfDl cfg frame.data ≠ 0 ∧ g.granted)) (he : (s.pcb p).error = false) :
    InputStep cfg s p v (.input canif frame g)
      ((v.setFlow { v.flow with fs := fsOverflow }).ffOutput cfg s.timeouts.slotFree)
  -- the same with an error callback, which runs before the flow control is armed
  | ffMemoryCallback {canif : Nat} {frame : CanFrame} {g : Grant}
      (hp : s.findPcb canif frame = some p) (ht : frame.data 0 &&& frameTypeMask = ffType)
      (hs : v.flow.state = .idle) (hg : ¬ (isotpGetFfDl cfg frame.data ≠ 0 ∧ g.granted)) :
    InputStep cfg s p v (.input canif frame g)
      { (v.setFlow { v.flow with fs := fsOverflow }).emit
          (.error (p, .input) (s.pcb p).callbackArg .memory) with
        suspended := some (.receivedFfOutput p) }
  -- `received_ff`: the message is opened, its first bytes are stored and READY is due
  | ff {canif : Nat} {frame : CanFrame} {g : Grant} {b : Nat} {buf : LwcanBuffer}
      (hp : s.findPcb canif frame = some p) (ht : frame.data 0 &&& frameTypeMask = ffType)
      (hs : v.flow.state = .idle) (hb : b ∉ v.flow.buffer)
      (hl : buf.length = isotpGetFfDl cfg frame.data) (hn : buf.length ≠ 0) (hg : g.granted)
      (hr : (s.pcb p).receiveFf = false) :
    InputStep cfg s p v (.input canif frame g) (v.ffStore cfg p frame b buf s.timeouts.slotFree)
  -- the first-frame callback runs while the buffer is allocated but not yet on the list
  | ffCallback {canif : Nat} {frame : CanFrame} {g : Grant} {b : Nat}
      (hp : s.findPcb canif frame = some p) (ht : frame.data 0 &&& frameTypeMask = ffType)
      (hs : v.flow.state = .idle) (hn : isotpGetFfDl cfg frame.data ≠ 0) (hg : g.granted) :
    InputStep cfg s p v (.input canif frame g)
      { v.emit (.receiveFf p (s.pcb p).callbackArg) with
        suspended := some (.receivedFf p frame b (isotpGetFfDl cfg frame.data)) }
  -- it has returned: `received_ff` goes on with the buffer it held
  | resumeFf {frame : CanFrame} {b : Nat} {buf : LwcanBuffer}
      (hs : s.suspended = some (.receivedFf p frame b buf.length)) (hb : b ∉ v.flow.buffer) :
    InputStep cfg s p v .resume
      (({ v with suspended := none } : View).ffStore cfg p frame b buf s.timeouts.slotFree)
  -- the error callback of `received_ff` has returned: OVERFLOW is due
  | resumeFfMemory (hs : s.suspended = some (.receivedFfOutput p)) :
    InputStep cfg s p v .resume
      (({ v with suspended := none } : View).ffOutput cfg s.timeouts.slotFree)
  -- `received_cf` with another sequence number: what is at the head of the list is removed
  | cfWrong {canif : Nat} {frame : CanFrame} {g : Grant} (hp : s.findPcb canif frame = some p)
      (ht : frame.data 0 &&& frameTypeMask = cfType) (hs : v.flow.state = .waitCf)
      (hn : v.flow.cfSn ≠ (frame.data 0 &&& 0x0F).toNat) :
    InputStep cfg s p v (.input canif frame g)
      (let v' := ({ v with err := v.err - 1 }.emit (.consecutive p frame.wire)).drop (p, .input)
      (v'.setFlow { v'.flow with fs := fsOverflow, state := .txFc }).armOutput
        (s.slotAfterCancel (p, .input)))
  -- `received_cf` with the last bytes
  | cfLast {canif : Nat} {frame : CanFrame} {g : Grant} {v' : View}
      (hp : s.findPcb canif frame = some p) (ht : frame.data 0 &&& frameTypeMask = cfType)
      (hs : v.flow.state = .waitCf) (hn : v.flow.cfSn = (frame.data 0 &&& 0x0F).toNat)
      (hv : v' = ({ v with err := v.err - 1 }.emit (.consecutive p frame.wire)).storeCf p
        frame.data frame.len)
      (hr : v'.flow.remainingData = 0) :
    InputStep cfg s p v (.input canif frame g) ((v'.setState .idle).deliver (s.pcb p) p)
  -- `received_cf` within a block: N_CR is armed again
  | cf {canif : Nat} {frame : CanFrame} {g : Grant} {v' : View}
      (hp : s.findPcb canif frame = some p) (ht : frame.data 0 &&& frameTypeMask = cfType)
      (hs : v.flow.state = .waitCf) (hn : v.flow.cfSn = (frame.data 0 &&& 0x0F).toNat)
      (hv : v' = ({ v with err := v.err - 1 }.emit (.consecutive p frame.wire)).storeCf p
        frame.data frame.len)
      (hr : v'.flow.remainingData ≠ 0) (hb : blockOpen v.flow.bs v.flow.cfSn) :
    InputStep cfg s p v (.input canif frame g)
      ((v'.setFlow { v'.flow with cfSn := nextSn v.flow.cfSn, state := .waitCf }).armError
        (s.slotAfterCancel (p, .input)))
  -- `received_cf` at the end of a block: READY is due
  | block {canif : Nat} {frame : CanFrame} {g : Grant} {v' : View}
      (hp : s.findPcb canif frame = some p) (ht : frame.data 0 &&& frameTypeMask = cfType)
      (hs : v.flow.state = .waitCf) (hn : v.flow.cfSn = (frame.data 0 &&& 0x0F).toNat)
      (hv : v' = ({ v with err := v.err - 1 }.emit (.consecutive p frame.wire)).storeCf p
        frame.data frame.len)
      (hr : v'.flow.remainingData ≠ 0) (hb : ¬ blockOpen v.flow.bs v.flow.cfSn) :
    InputStep cfg s p v (.input canif frame g)
      ((v'.setFlow
        { v'.flow with cfSn := nextSn v.flow.cfSn, fs := fsReady, state := .txFc }).armOutput
          (s.slotAfterCancel (p, .input)))
  -- `isotp_in_flow_output` finds no interface, or a flow that has left `TX_FC`
  | skip {frame : CanFrame} {ret : Lwcanerr} (hf : s.Fires .isotpInFlowOutput p)
      (hc : s.canif p = none ∨ v.flow.state = .idle ∨ v.flow.state = .waitCf) (ht : 0 < v.tx) :
    InputStep cfg s p v (.timer frame ret) { v with tx := v.tx - 1 }
  -- `isotp_in_flow_output` sends the flow control, and the driver takes it
  | output {frame : CanFrame} {canif : Nat} (hf : s.Fires .isotpInFlowOutput p)
      (hc : s.canif p = some canif) (hs : v.flow.state = .txFc) (ht : 0 < v.tx) :
    InputStep cfg s p v (.timer frame .ok)
      (View.accepted { v with tx := v.tx - 1 } (p, .input) canif
        (isotpFillFc cfg v.flow (s.address cfg p frame)) cfg.nBr)
  -- `canif->output` returns an error: the head of the list is removed, whatever it is
  | reject {frame : CanFrame} {ret : Lwcanerr} {canif : Nat} (hf : s.Fires .isotpInFlowOutput p)
      (hc : s.canif p = some canif) (hs : v.flow.state = .txFc) (ht : 0 < v.tx) (hr : ret ≠ .ok) :
    InputStep cfg s p v (.timer frame ret)
      (View.rejected { v with tx := v.tx - 1 } (p, .input) (s.pcb p) canif
        (isotpFillFc cfg v.flow (s.address cfg p frame)) cfg.nBr ret)
  -- `isotp_input_error_handler`; its error callback gets the pcb, not `callback_arg`
  | expire {frame : CanFrame} {ret : Lwcanerr} (hf : s.Fires .isotpInputErrorHandler p)
      (he : 0 < v.err) :
    InputStep cfg s p v (.timer frame ret)
      ({ v with err := v.err - 1 }.fail (p, .input) (s.pcb p).error (.pcb p) .receiveTimeout)
  -- `isotp_sent` with `ERROR_OK` for a flow control
  | confirm {v' : View} (hs : s.suspended = none)
      (hw : InputSwitch (s.pcb p) p s.timeouts.slotFree { v with confirms := v.confirms - 1 } v') :
    InputStep cfg s p v (.sent (p, .input) .ok) v'
  -- `isotp_sent` with an error for a flow control
  | refuse {err : Lwcanerr} (hs : s.suspended = none) (he : err ≠ .ok) :
    InputStep cfg s p v (.sent (p, .input) err)
      ({ v with confirms := v.confirms - 1 }.refused (p, .input) (s.pcb p) err)
  -- the error callback of `isotp_sent` has returned
  | resume {v' : View} (hs : s.suspended = some (.isotpSent (p, .input)))
      (hw : InputSwitch (s.pcb p) p s.timeouts.slotFree { v with suspended := none } v') :
    InputStep cfg s p v .resume v'
  -- `isotp_received` removes the buffer that it is given, delivered or not
  | release {b : Nat} :
    InputStep cfg s p v (.call (.isotpReceived (some p) (some b)))
      { v with
        flow := { v.flow with buffer := v.flow.buffer.erase b }
        chain := v.chain.eraseP (·.1 = b)
        log := v.log ++ [.released p b] }
  -- `isotp_new` clears the chunk that it hands out
  | new (hp : (s.isotpNew cfg).1 = some p) :
    InputStep cfg s p v (.call .isotpNew) { v with flow := {}, chain := [] }

end Lwcan
