import Lwcan.Canif
import Lwcan.Isotp
import Lwcan.Timeouts

/-!
# A node: the state the library shares

A node is everything the functions of the library read and write: the clock, the timeout list, the
pcb list with its pool, the interfaces, the heap, the confirmations the drivers still owe, and where
control is when the application runs inside a callback.

`log` records what the node does that others can see: the frames handed to a driver and the
callbacks invoked, and next to them what the properties speak about (a message accepted for sending,
a frame processed, a copy into a receive buffer, a buffer removed on an error path). No function
reads it. Every entry belongs to one flow (`Obs.flow`).
-/

namespace Lwcan

/-- A flow of a pcb, named by the pcb's address. -/
abbrev FlowId := Nat × Dir

instance : LawfulBEq FlowId := inferInstance

/-- The functions armed as timeout handlers; `user` stands for those of the applications. -/
inductive Handler
  | isotpOutFlowOutput
  | isotpInFlowOutput
  | isotpOutputErrorHandler
  | isotpInputErrorHandler
  | user (n : Nat)
  deriving DecidableEq, Repr

/-- What a node does, as it is logged. -/
inductive Obs
  /-- `isotp_send` accepts a message. -/
  | send (p : Nat) (d : List UInt8)
  /-- A frame is handed to `canif->output`, which returns `ret`. -/
  | output (k : FlowId) (canif canId : Nat) (wire : List UInt8) (timeout : Nat) (ret : Lwcanerr)
  /-- The receive callback is handed a buffer with these bytes. -/
  | receive (p : Nat) (arg : Ptr) (buffer : Nat) (bytes : List UInt8)
  /-- The first-frame callback is invoked. -/
  | receiveFf (p : Nat) (arg : Ptr)
  /-- The sent callback is invoked. -/
  | sent (p : Nat) (arg : Ptr) (length : Nat)
  /-- The error callback is invoked on behalf of a flow. -/
  | error (k : FlowId) (arg : Ptr) (err : Lwcanerr)
  /-- A single frame or first frame opens a message in a new buffer. -/
  | opened (p : Nat) (buffer : Nat) (wire : List UInt8)
  /-- A consecutive frame is processed in `ISOTP_WAIT_CF`. -/
  | consecutive (p : Nat) (wire : List UInt8)
  /-- A flow-control frame is processed in `ISOTP_WAIT_FC`. -/
  | flowControl (p fs bs st : Nat)
  /-- The output flow enters `ISOTP_WAIT_FC`. -/
  | waitFc (p : Nat)
  /-- `n` bytes are copied to offset `off` of a receive buffer of `capacity` bytes. -/
  | store (p off n capacity : Nat)
  /-- An error path calls `isotp_remove_buffer` with this buffer. -/
  | dropped (k : FlowId) (buffer : Option Nat)
  /-- `isotp_received` is called, by the application or by the library. -/
  | released (p : Nat) (buffer : Nat)
  deriving DecidableEq, Repr

/-- The flow an entry of the log belongs to. -/
def Obs.flow : Obs → FlowId
  | .send p _ | .sent p _ _ | .flowControl p _ _ _ | .waitFc p => (p, .output)
  | .receive p _ _ _ | .receiveFf p _ | .opened p _ _ | .consecutive p _ | .store p _ _ _
  | .released p _ => (p, .input)
  | .output k _ _ _ _ _ | .error k _ _ | .dropped k _ => k

/-- Where a function waits for a callback to return, if anything is left for it to do then. -/
inductive Suspended
  /-- `received_ff` has a new buffer and has called the first-frame callback. -/
  | receivedFf (p : Nat) (frame : CanFrame) (buffer length : Nat)
  /-- `received_ff` has no buffer and has called the error callback. -/
  | receivedFfOutput (p : Nat)
  /-- `isotp_sent` has called the error callback. -/
  | isotpSent (k : FlowId)

/-- The state of a node. -/
structure Node where
  now : Nat
  timeouts : Timeouts Handler Ptr
  isotpPcbList : List Nat
  isotpPcbNum : Nat
  isotpMemPool : Pool
  pcb : Nat → IsotpPcb
  canifs : Canifs
  heap : Heap
  /-- The flows whose frame a driver has accepted and not confirmed. -/
  confirms : List FlowId
  suspended : Option Suspended
  log : List Obs

namespace Node

/-- The node after `lwcan_init` -/
def lwcanInit (cfg : Config) : Node where
  now := 0
  timeouts := Timeouts.lwcanTimeoutsInit cfg
  isotpPcbList := []
  isotpPcbNum := 0
  isotpMemPool := Pool.init cfg.isotpPcbSize cfg.isotpMaxPcbNum
  pcb := fun _ => {}
  canifs := {}
  heap := {}
  confirms := []
  suspended := none
  log := []

/-- A flow of the node. -/
def flow (s : Node) (k : FlowId) : IsotpFlow := (s.pcb k.1).flow k.2

/-- Replace a flow. -/
def setFlow (s : Node) (k : FlowId) (fl : IsotpFlow) : Node :=
  { s with pcb := Function.update s.pcb k.1 ((s.pcb k.1).setFlow k.2 fl) }

/-- Assign a flow's `state`. -/
def setState (s : Node) (k : FlowId) (state : IsotpState) : Node :=
  s.setFlow k { s.flow k with state }

/-- Log what the node does. -/
def emit (s : Node) (o : Obs) : Node := { s with log := s.log ++ [o] }

/-- The entries of the log that belong to a flow -/
def logOf (s : Node) (k : FlowId) : List Obs := s.log.filter (·.flow = k)

/-- `lwcan_timeout(time_ms, handler, arg)` -/
def lwcanTimeout (s : Node) (timeMs : Nat) (handler : Handler) (arg : Ptr) : Node :=
  { s with timeouts := s.timeouts.lwcanTimeout s.now timeMs handler arg }

/-- `lwcan_untimeout(handler, arg)` -/
def lwcanUntimeout (s : Node) (handler : Handler) (arg : Ptr) : Node :=
  { s with timeouts := s.timeouts.lwcanUntimeout handler arg }

/-- `flow->buffer`, null if the chain is empty -/
def head (s : Node) (k : FlowId) : Option Nat := (s.flow k).buffer.head?

/-- The buffer `flow->buffer` points to -/
def headBuffer (s : Node) (k : FlowId) : Option LwcanBuffer := (s.head k).map s.heap.buffer

/-- `isotp_remove_buffer(flow, buffer)` -/
def isotpRemoveBuffer (s : Node) (k : FlowId) (buffer : Option Nat) : Node :=
  match buffer with
  | none => s
  | some b =>
    -- the buffer is looked for in the chain, and unlinked before it is deleted
    if b ∈ (s.flow k).buffer then
      { s.setFlow k { s.flow k with buffer := (s.flow k).buffer.erase b } with
        heap := s.heap.lwcanBufferDelete b }
    else s

/-- What every error path does with the message it gives up:
`isotp_remove_buffer(flow, flow->buffer)`. -/
def dropHead (s : Node) (k : FlowId) : Node :=
  (s.emit (.dropped k (s.head k))).isotpRemoveBuffer k (s.head k)

/-- `if (pcb->error != NULL) pcb->error(arg, err)`, on behalf of flow `k` -/
def callError (s : Node) (k : FlowId) (arg : Ptr) (err : Lwcanerr) : Node :=
  if (s.pcb k.1).error then s.emit (.error k arg err) else s

/-- The frame before it is filled: identifier and flags. -/
def address (cfg : Config) (s : Node) (p : Nat) (frame : CanFrame) : CanFrame :=
  { frame with
    canId := (s.pcb p).txId
    flags := if cfg.canfd && cfg.canfdBrs then canfdBrsFlag else frame.flags }

/-- The last part of `isotp_out_flow_output` and `isotp_in_flow_output`: hand the frame to the
driver, which returns `ret`, and give the message up if it refuses. -/
def canifOutput (s : Node) (k : FlowId) (canif : Nat) (frame : CanFrame) (timeout : Nat)
    (ret : Lwcanerr) : Node :=
  let s := s.emit (.output k canif frame.canId frame.wire timeout ret)
  -- `isotp_sent` is called for what the driver takes
  if ret = .ok then { s with confirms := k :: s.confirms }
  else ((s.dropHead k).setState k .idle).callError k (s.pcb k.1).callbackArg ret

/-- `isotp_output_error_handler(arg)`. The error callback is handed the pcb. -/
def isotpOutputErrorHandler (s : Node) (arg : Ptr) : Node :=
  match arg with
  | .pcb p =>
    ((s.dropHead (p, .output)).setState (p, .output) .idle).callError (p, .output) (.pcb p)
      .transmitTimeout
  | _ => s

/-- `isotp_input_error_handler(arg)`. The error callback is handed the pcb. -/
def isotpInputErrorHandler (s : Node) (arg : Ptr) : Node :=
  match arg with
  | .pcb p =>
    ((s.dropHead (p, .input)).setState (p, .input) .idle).callError (p, .input) (.pcb p)
      .receiveTimeout
  | _ => s

/-! ### Connections (`isotp_new`, `isotp_bind`, `isotp_remove`) -/

/-- `isotp_pcb_malloc()` -/
abbrev isotpPcbMalloc (s : Node) : Option (Nat × Pool) := s.isotpMemPool.malloc

/-- `isotp_pcb_free(mem)` -/
abbrev isotpPcbFree (s : Node) (mem : Nat) : Pool := s.isotpMemPool.free mem

/-- `isotp_new()` -/
def isotpNew (cfg : Config) (s : Node) : Option Nat × Node :=
  if cfg.isotpMaxPcbNum ≤ s.isotpPcbNum then (none, s)
  else
    -- the pool has room for `ISOTP_MAX_PCB_NUM` pcbs
    match s.isotpPcbMalloc with
    | none => (none, s)
    | some (p, pool) =>
      (some p,
        { s with
          isotpMemPool := pool
          pcb := Function.update s.pcb p {}
          isotpPcbList := p :: s.isotpPcbList
          isotpPcbNum := u8 (s.isotpPcbNum + 1) })

/-- `CAN_EFF_FLAG` -/
def canEffFlag : Nat := 0x80000000

/-- The identifier bits `isotp_bind` accepts. -/
def maskId (id : Nat) : Nat :=
  if id &&& canEffFlag ≠ 0 then id &&& (canEffFlag ||| 0x1FFFFFFF) else id &&& 0x7FF

/-- `isotp_bind(pcb, addr)` with `addr` the interface index, `tx_id` and `rx_id` -/
def isotpBind (s : Node) (pcb : Option Nat) (addr : Option (Nat × Nat × Nat)) : Lwcanerr × Node :=
  match pcb, addr with
  | some p, some (canIfindex, txId, rxId) =>
    if canIfindex = 0 then (.canif, s)
    else if maskId txId ≠ txId ∨ maskId rxId ≠ rxId then (.arg, s)
    else
      (.ok,
        { s with
          pcb := Function.update s.pcb p { s.pcb p with ifIndex := canIfindex, txId, rxId } })
  | _, _ => (.arg, s)

/-- `isotp_remove(pcb)` -/
def isotpRemove (s : Node) (pcb : Option Nat) : Node :=
  match pcb with
  | none => s
  | some p =>
    if p ∈ s.isotpPcbList then
      { s with
        isotpPcbList := s.isotpPcbList.erase p
        isotpMemPool := s.isotpPcbFree p
        -- neither a timeout nor a frame the driver owes is cancelled
        isotpPcbNum := u8 ((s.isotpPcbNum : Int) - 1) }
    else s

/-- Assign a field of `*pcb`, as the setters of `isotp.c` do, which refuse a null pcb. -/
def assign (s : Node) (pcb : Option Nat) (f : IsotpPcb → IsotpPcb) : Lwcanerr × Node :=
  match pcb with
  | none => (.arg, s)
  | some p => (.ok, { s with pcb := Function.update s.pcb p (f (s.pcb p)) })

/-- `isotp_set_receive_callback(pcb, receive)` -/
def isotpSetReceiveCallback (s : Node) (pcb : Option Nat) (receive : Bool) : Lwcanerr × Node :=
  s.assign pcb fun d => { d with receive }

/-- `isotp_set_receive_ff_callback(pcb, receive_ff)` -/
def isotpSetReceiveFfCallback (s : Node) (pcb : Option Nat) (receiveFf : Bool) : Lwcanerr × Node :=
  s.assign pcb fun d => { d with receiveFf }

/-- `isotp_set_sent_callback(pcb, sent)` -/
def isotpSetSentCallback (s : Node) (pcb : Option Nat) (sent : Bool) : Lwcanerr × Node :=
  s.assign pcb fun d => { d with sent }

/-- `isotp_set_error_callback(pcb, error)` -/
def isotpSetErrorCallback (s : Node) (pcb : Option Nat) (error : Bool) : Lwcanerr × Node :=
  s.assign pcb fun d => { d with error }

/-- `isotp_set_callback_arg(pcb, arg)` -/
def isotpSetCallbackArg (s : Node) (pcb : Option Nat) (arg : Ptr) : Lwcanerr × Node :=
  s.assign pcb fun d => { d with callbackArg := arg }

/-- The application sets the four callbacks, one after the other. -/
def isotpSetCallbacks (s : Node) (p : Nat) (receive receiveFf sent error : Bool) : Node :=
  let s := (s.isotpSetReceiveCallback (some p) receive).2
  let s := (s.isotpSetReceiveFfCallback (some p) receiveFf).2
  let s := (s.isotpSetSentCallback (some p) sent).2
  (s.isotpSetErrorCallback (some p) error).2

/-- Four assignments to one pcb are one. -/
theorem isotpSetCallbacks_eq (s : Node) (p : Nat) (receive receiveFf sent error : Bool) :
    s.isotpSetCallbacks p receive receiveFf sent error =
      { s with
        pcb := Function.update s.pcb p { s.pcb p with receive, receiveFf, sent, error } } := by
  simp [isotpSetCallbacks, isotpSetReceiveCallback, isotpSetReceiveFfCallback, isotpSetSentCallback,
    isotpSetErrorCallback, assign]

end Node
end Lwcan
