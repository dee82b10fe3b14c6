import Lwcan.Buffer
import Lwcan.Timeouts

/-!
# The UDS client (`src/apps/uds/uds_client.c`)

A static record `uds_state`, four timeout handlers, four callbacks registered with ISO-TP, and the
functions of the interface. ISO-TP lies outside this file: what `isotp_new`, `isotp_bind` and
`isotp_send` answer is an argument of the functions that call them, and a null pcb is refused as
`isotp.c` and `isotp_out.c` refuse it.

A callback of the application may call the client again. The functions that call back all do the
same once the callback returns: they assign `uds_state.state = UDS_IDLE`, and where they were called
from `uds_receive`, that function then hands the buffer back. `stack` keeps one `Frame` for each
callback that has not returned; `Client.finish` is what is left to do.

`log` records what the client does that others can see, and `connects` counts the connects accepted.
No function reads them.
-/

namespace Lwcan
namespace Uds

/-! ### Options and data -/

/-- The options of `apps/uds_options.h` that the client reads, next to those of the library -/
structure UdsConfig where
  lwcan : Config
  /-- `UDS_S3_CLIENT` -/
  s3Client : Nat := 9000
  /-- `UDS_P2_DEFAULT` -/
  p2Default : Nat := 50
  /-- `UDS_P2_STAR_DEFAULT` -/
  p2StarDefault : Nat := 500
  /-- `UDS_CONNECT_RETRY_NUM` -/
  connectRetryNum : Nat := 20
  /-- `UDS_CONNECT_RETRY_TIMEOUT` -/
  connectRetryTimeout : Nat := 50
  /-- `UDS_KEEP_SESSION` -/
  keepSession : Bool := true
  /-- `UDS_KEEP_SESSION_SUPPRESS` -/
  keepSessionSuppress : UInt8 := 0x80

/-- The default options -/
def UdsConfig.default : UdsConfig := { lwcan := Config.classic }

/-- The value of `n` converted to `uint16_t` -/
def u16 (n : Nat) : Nat := n % 65536

/-- `UDS_SID_OFFSET` -/
def udsSidOffset : Nat := 0

/-- `UDS_REJECTED_SID_OFFSET` -/
def udsRejectedSidOffset : Nat := 1

/-- `UDS_NRC_OFFSET` -/
def udsNrcOffset : Nat := 2

/-- `UDS_RESPONSE_PENDING_NRC` -/
def udsResponsePendingNrc : UInt8 := 0x78

/-- `UDS_TESTER_PRESENT_SID` -/
def udsTesterPresentSid : UInt8 := 0x3E

/-- `UDS_NEGATIVE_RESPONSE_SID` -/
def udsNegativeResponseSid : UInt8 := 0x7F

/-- `uds_state_t` -/
inductive UdsStateT
  | idle
  | connecting
  | sendingRequest
  | waitResponse
  | waitSegmentedResponse
  | responsePending
  deriving DecidableEq, Repr

/-- `struct uds_context`: which of the callbacks of a client are set -/
structure UdsContext where
  positiveResponse : Bool
  negativeResponse : Bool
  error : Bool
  deriving DecidableEq, Repr

/-- `struct uds_state`. The defaults are what `memset` with zero leaves. -/
structure UdsState where
  state : UdsStateT := .idle
  isConnected : Bool := false
  connectTryNum : Nat := 0
  connectTryTime : Nat := 0
  withResponse : UInt8 := 0
  p2 : Nat := 0
  p2Star : Nat := 0
  connectCb : Option Nat := none
  connectCbArg : Ptr := .null
  context : Option UdsContext := none
  handle : Ptr := .null
  isotpPcb : Option Nat := none
  deriving DecidableEq, Repr

/-- The functions armed as timeout handlers; `other` stands for those of ISO-TP and the
application. -/
inductive UdsHandler
  | connectTry
  | s3TimerHandler
  | p2TimerHandler
  | p2StarTimerHandler
  | other (n : Nat)
  deriving DecidableEq, Repr

/-- A callback that has not returned: the number of the connect that it answers, if it is a
`connect_cb`, and the pcb and buffer that `uds_receive` hands back if it was called from there. -/
structure Frame where
  connect : Option Nat
  received : Option (Nat × Nat)
  deriving DecidableEq, Repr

/-- What the client does, as it is logged. -/
inductive Note
  /-- `uds_client_connect` starts an attempt with this `connect_cb`, after `armed` entries were
  armed in the timeout list. -/
  | connect (cb : Option Nat) (arg : Ptr) (armed : Nat)
  /-- `connect_cb` is called. -/
  | connectCb (cb : Option Nat) (arg : Ptr) (error : Lwcanerr)
  /-- `uds_client_disconnect` ends a connection. -/
  | disconnect
  /-- `connect_try` calls `isotp_send`, which returns `ret`. -/
  | testerPresent (data : List UInt8) (ret : Lwcanerr)
  /-- `uds_send_request` calls `isotp_send`, which returns `ret`. -/
  | request (data : List UInt8) (ret : Lwcanerr)
  /-- `payload[i]` is read from a buffer of `length` bytes. -/
  | read (i length : Nat)
  | positiveResponse (handle : Ptr) (bytes : List UInt8)
  | negativeResponse (handle : Ptr) (rejectedSid nrc : UInt8)
  | error (handle : Ptr) (error : Lwcanerr)
  /-- `isotp_received` is called. -/
  | isotpReceived (pcb buffer : Nat)
  deriving DecidableEq, Repr

/-- The client and what it shares with the rest of the node -/
structure Client where
  now : Nat
  timeouts : Timeouts UdsHandler Ptr
  uds : UdsState
  /-- The pcbs the client has created and not removed -/
  pcbs : List Nat
  stack : List Frame
  connects : Nat
  log : List Note

namespace Client

/-- The client after `lwcan_init`, with the static record zeroed -/
def powerUp (cfg : UdsConfig) : Client where
  now := 0
  timeouts := Timeouts.lwcanTimeoutsInit cfg.lwcan
  uds := {}
  pcbs := []
  stack := []
  connects := 0
  log := []

/-! ### What the functions are made of -/

/-- `uds_state.state = state` -/
def setState (s : Client) (state : UdsStateT) : Client := { s with uds := { s.uds with state } }

/-- Log what the client does. -/
def emit (s : Client) (n : Note) : Client := { s with log := s.log ++ [n] }

/-- `lwcan_timeout(time_ms, handler, NULL)` -/
def lwcanTimeout (s : Client) (timeMs : Nat) (handler : UdsHandler) : Client :=
  { s with timeouts := s.timeouts.lwcanTimeout s.now timeMs handler .null }

/-- `lwcan_untimeout(handler, NULL)` -/
def lwcanUntimeout (s : Client) (handler : UdsHandler) : Client :=
  { s with timeouts := s.timeouts.lwcanUntimeout handler .null }

/-- What `isotp_send` and `isotp_bind` answer: `ret` unless the pcb is null. -/
def isotpAnswer (s : Client) (ret : Lwcanerr) : Lwcanerr :=
  if s.uds.isotpPcb.isNone then .arg else ret

/-- `isotp_received(pcb, buffer)` at the end of `uds_receive`, if the caller is that function -/
def isotpReceived (s : Client) (received : Option (Nat × Nat)) : Client :=
  match received with
  | none => s
  | some (pcb, buffer) => s.emit (.isotpReceived pcb buffer)

/-- What is left to do after a callback. -/
def finish (s : Client) (received : Option (Nat × Nat)) : Client :=
  (s.setState .idle).isotpReceived received

/-- `connect_cb(connetct_cb_arg, error)` and what follows it -/
def callConnectCb (s : Client) (error : Lwcanerr) (received : Option (Nat × Nat)) : Client :=
  { s.emit (.connectCb s.uds.connectCb s.uds.connectCbArg error) with
    stack := ⟨some s.connects, received⟩ :: s.stack }

/-- A callback of the context, if the context and the callback are set, and what follows it -/
def callContext (s : Client) (callback : UdsContext → Bool) (n : Note)
    (received : Option (Nat × Nat)) : Client :=
  if s.uds.context.any callback then { s.emit n with stack := ⟨none, received⟩ :: s.stack }
  else s.finish received

/-! ### Timeout handlers -/

/-- What `connect_try` does unless the tries are used up. -/
def sendTesterPresent (s : Client) (ret : Lwcanerr) : Client :=
  { s with
    uds := { s.uds with
      connectTryTime := s.now
      connectTryNum := u8 ((s.uds.connectTryNum : Int) - 1) } }.emit
    (.testerPresent [udsTesterPresentSid, 0] (s.isotpAnswer ret))

/-- `connect_try(arg)` -/
def connectTry (s : Client) (ret : Lwcanerr) : Client :=
  -- the tries are asked about only while the client is not connected
  if !s.uds.isConnected && s.uds.connectTryNum = 0 then s.callConnectCb .aborted none
  else if s.isotpAnswer ret ≠ .ok then
    -- `isotp_send` refuses: the attempt is over
    (s.sendTesterPresent ret).callConnectCb (s.isotpAnswer ret) none
  else s.sendTesterPresent ret

/-- The time until the next try, in `p2_timer_handler` and `uds_error` -/
def connectTimeout (cfg : UdsConfig) (s : Client) : Nat :=
  -- a difference of two `uint32_t` clocks
  let connectPassedTime := u32 ((s.now : Int) - s.uds.connectTryTime)
  if cfg.connectRetryTimeout ≤ connectPassedTime then 0
  else cfg.connectRetryTimeout - connectPassedTime

/-- `uds_send_request(request, size, with_response)` with `request` the `size` bytes -/
def udsSendRequest (s : Client) (request : Option (List UInt8)) (withResponse : UInt8)
    (ret : Lwcanerr) : Lwcanerr × Client :=
  match request with
  | none | some [] => (.arg, s)
  | some data =>
    if !s.uds.isConnected then (.connect, s)
    else if s.uds.state ≠ .idle then (.inprogress, s)
    else
      -- the state is set before `isotp_send` is called, and is not taken back if that fails
      (s.isotpAnswer ret,
        { s with uds := { s.uds with withResponse, state := .sendingRequest } }.emit
          (.request data (s.isotpAnswer ret)))

/-- `s3_timer_handler(arg)` -/
def s3TimerHandler (cfg : UdsConfig) (s : Client) (ret : Lwcanerr) : Client :=
  if cfg.keepSession then
    -- what it answers is not looked at
    (s.udsSendRequest (some [udsTesterPresentSid, cfg.keepSessionSuppress]) 0 ret).2
  else
    { s with
      uds := { s.uds with
        isConnected := false
        p2 := u16 cfg.p2Default
        p2Star := u16 cfg.p2StarDefault } }

/-- `p2_timer_handler(arg)` -/
def p2TimerHandler (cfg : UdsConfig) (s : Client) : Client :=
  -- no answer to the Tester Present: try again
  if s.uds.state = .connecting then s.lwcanTimeout (s.connectTimeout cfg) .connectTry
  else s.callContext (·.error) (.error s.uds.handle .receiveTimeout) none

/-- `p2_star_timer_handler(arg)` -/
def p2StarTimerHandler (s : Client) : Client :=
  s.callContext (·.error) (.error s.uds.handle .receiveTimeout) none

/-! ### Callbacks registered with ISO-TP -/

/-- `handle_negative_response(buffer)`, called from `uds_receive` -/
def handleNegativeResponse (s : Client) (b : LwcanBuffer) (received : Nat × Nat) : Client :=
  if s.uds.state = .connecting then s.callConnectCb .aborted (some received)
  else if b.data udsNrcOffset = udsResponsePendingNrc then
    -- the server asks for more time
    (((s.emit (.read udsNrcOffset b.length)).setState .responsePending).lwcanTimeout s.uds.p2Star
      .p2StarTimerHandler).isotpReceived (some received)
  else
    let s := s.emit (.read udsNrcOffset b.length)
    if s.uds.context.any (·.negativeResponse) then
      -- both bytes are read again for the callback
      ((s.emit (.read udsRejectedSidOffset b.length)).emit
        (.read udsNrcOffset b.length)).callContext (·.negativeResponse)
        (.negativeResponse s.uds.handle (b.data udsRejectedSidOffset) (b.data udsNrcOffset))
        (some received)
    else s.finish (some received)

/-- `handle_positive_response(buffer)`, called from `uds_receive` -/
def handlePositiveResponse (s : Client) (b : LwcanBuffer) (received : Nat × Nat) : Client :=
  if s.uds.state = .connecting then
    { s with uds := { s.uds with isConnected := true } }.callConnectCb .ok (some received)
  else
    s.callContext (·.positiveResponse) (.positiveResponse s.uds.handle b.bytes) (some received)

/-- The `switch` of `uds_receive_ff` and `uds_error`: cancel the timer of the response that is
due. -/
def untimeoutResponse (s : Client) : Client :=
  match s.uds.state with
  | .waitResponse => s.lwcanUntimeout .p2TimerHandler
  | .responsePending => s.lwcanUntimeout .p2StarTimerHandler
  | _ => s

/-- The `switch` of `uds_receive`, which has one more case. -/
def untimeoutReceive (s : Client) : Client :=
  match s.uds.state with
  -- the answer to the Tester Present
  | .connecting => s.lwcanUntimeout .p2TimerHandler
  | _ => s.untimeoutResponse

/-- `uds_receive(arg, isotp_pcb, buffer)` -/
def udsReceive (s : Client) (pcb buffer : Nat) (b : LwcanBuffer) : Client :=
  if s.uds.state = .idle then s.isotpReceived (some (pcb, buffer))
  else
    -- the first byte is read, whatever the length
    let s := s.untimeoutReceive.emit (.read udsSidOffset b.length)
    if b.data udsSidOffset = udsNegativeResponseSid then s.handleNegativeResponse b (pcb, buffer)
    else s.handlePositiveResponse b (pcb, buffer)

/-- `uds_receive_ff(arg, isotp_pcb)` -/
def udsReceiveFf (s : Client) : Client :=
  if s.uds.state = .idle then s
  else s.untimeoutResponse.setState .waitSegmentedResponse

/-- `uds_error(arg, error)` -/
def udsError (cfg : UdsConfig) (s : Client) (error : Lwcanerr) : Client :=
  if s.uds.state = .connecting then s.lwcanTimeout (s.connectTimeout cfg) .connectTry
  else if s.uds.state = .idle then s
  else s.untimeoutResponse.callContext (·.error) (.error s.uds.handle error) none

/-- `uds_sent(arg, pcb, length)` -/
def udsSent (cfg : UdsConfig) (s : Client) : Client :=
  if s.uds.state = .connecting then s.lwcanTimeout s.uds.p2 .p2TimerHandler
  else if s.uds.state ≠ .sendingRequest then s
  else
    let s :=
      if s.uds.withResponse ≠ 0 then
        (s.setState .waitResponse).lwcanTimeout s.uds.p2 .p2TimerHandler
      else s.setState .idle
    -- the session is kept alive from here on
    (s.lwcanUntimeout .s3TimerHandler).lwcanTimeout cfg.s3Client .s3TimerHandler

/-! ### The interface -/

/-- `uds_client_init()` where `isotp_new` returns `isotpPcb` -/
def udsClientInit (cfg : UdsConfig) (s : Client) (isotpPcb : Option Nat) : Lwcanerr × Client :=
  match isotpPcb with
  | none => (.memory, s)
  | some p =>
    (.ok,
      { s with
        -- `memset`: the record starts anew, whatever was in it
        uds := { isotpPcb := some p, p2 := u16 cfg.p2Default, p2Star := u16 cfg.p2StarDefault }
        pcbs := p :: s.pcbs })

/-- `uds_client_deinit()` -/
def udsClientDeinit (s : Client) : Lwcanerr × Client :=
  if s.uds.state ≠ .idle then (.inprogress, s)
  else
    let pcbs := s.uds.isotpPcb.elim s.pcbs s.pcbs.erase
    let s := if s.uds.isConnected then s.lwcanUntimeout .s3TimerHandler else s
    (.ok, { s with uds := {}, pcbs })

/-- `uds_client_connect(addr, cb, arg)` where `isotp_bind` answers `bind` for the address and
`isotp_send` answers `send` -/
def udsClientConnect (cfg : UdsConfig) (s : Client) (cb : Option Nat) (arg : Ptr)
    (bind send : Lwcanerr) : Lwcanerr × Client :=
  if cb.isNone then (.arg, s)
  else if s.uds.state ≠ .idle then (.inprogress, s)
  else if s.isotpAnswer bind ≠ .ok then (s.isotpAnswer bind, s)
  else
    (.ok,
      ({ s with
        uds := { s.uds with
          state := .connecting
          connectTryNum := u8 cfg.connectRetryNum
          connectCb := cb
          connectCbArg := arg }
        connects := s.connects + 1 }.emit (.connect cb arg s.timeouts.armed)).connectTry
          send)

/-- `uds_client_disconnect()` -/
def udsClientDisconnect (cfg : UdsConfig) (s : Client) : Client :=
  if !s.uds.isConnected then s
  else
    -- a request or an attempt under way is cut short
    let s := (s.emit .disconnect).setState .idle
    let s := s.lwcanUntimeout .p2TimerHandler
    let s := s.lwcanUntimeout .p2StarTimerHandler
    let s := s.lwcanUntimeout .s3TimerHandler
    { s with
      uds := { s.uds with
        isConnected := false
        p2 := u16 cfg.p2Default
        p2Star := u16 cfg.p2StarDefault } }

/-- `uds_set_context(context, handle)` -/
def udsSetContext (s : Client) (context : Option UdsContext) (handle : Ptr) : Lwcanerr × Client :=
  if s.uds.state ≠ .idle then (.inprogress, s)
  else (.ok, { s with uds := { s.uds with context, handle } })

/-- `uds_set_p2_timer(time)` -/
def udsSetP2Timer (s : Client) (time : Nat) : Lwcanerr × Client :=
  if s.uds.state ≠ .idle then (.inprogress, s)
  else (.ok, { s with uds := { s.uds with p2 := u16 time } })

/-- `uds_set_p2_star_timer(time)` -/
def udsSetP2StarTimer (s : Client) (time : Nat) : Lwcanerr × Client :=
  if s.uds.state ≠ .idle then (.inprogress, s)
  else (.ok, { s with uds := { s.uds with p2Star := u16 time } })

end Client
end Uds
end Lwcan
