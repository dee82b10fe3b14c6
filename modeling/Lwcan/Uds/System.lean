import Lwcan.Uds.Client
import Lwcan.Lib.Runs

/-!
# Runs of the UDS client

The application calls the client, ISO-TP invokes one of the four callbacks on a pcb that the client
has created, the main loop runs the timeout that is due, a callback of the application returns, time
passes, and others use the timeout list. What ISO-TP answers to a call is part of the event.

ISO-TP and the main loop act between events only, when no callback of the application is running.
The application calls the client at any time: inside a callback these are the calls made from there.
-/

namespace Lwcan
namespace Uds

/-- A call of the client, or of the timeout list by somebody else -/
inductive Call
  | udsClientInit (isotpPcb : Option Nat)
  | udsClientDeinit
  | udsClientConnect (cb : Option Nat) (arg : Ptr) (bind send : Lwcanerr)
  | udsClientDisconnect
  | udsSetContext (context : Option UdsContext) (handle : Ptr)
  | udsSetP2Timer (time : Nat)
  | udsSetP2StarTimer (time : Nat)
  | udsSendRequest (request : Option (List UInt8)) (withResponse : UInt8) (send : Lwcanerr)
  | lwcanTimeout (timeMs n : Nat) (arg : Ptr)
  | lwcanUntimeout (n : Nat) (arg : Ptr)

/-- The call has an effect whatever the state of the client. -/
def Call.acts : Call → Bool
  | .udsClientInit (some _) | .udsClientDisconnect | .lwcanTimeout _ _ _ | .lwcanUntimeout _ _ =>
    true
  | _ => false

/-- What happens to the client. -/
inductive Event
  | call (c : Call)
  /-- ISO-TP delivers a message. -/
  | receive (pcb buffer : Nat) (b : LwcanBuffer)
  /-- ISO-TP notifies a first frame. -/
  | receiveFf (pcb : Nat)
  /-- ISO-TP has sent a message. -/
  | sent (pcb : Nat)
  /-- ISO-TP gives a message up. -/
  | error (pcb : Nat) (err : Lwcanerr)
  /-- The main loop runs the timeout that is due. If its handler calls `isotp_send`, `send` is the
  answer. -/
  | timer (send : Lwcanerr)
  /-- The innermost callback returns. -/
  | ret
  | tick (ms : Nat)

namespace Client

/-- `isotp_new` hands out a pcb that is not in use, and times fit a `uint32_t`. -/
def Legal (s : Client) : Call → Prop
  | .udsClientInit isotpPcb => ∀ p ∈ isotpPcb, p ∉ s.pcbs
  | .udsSetP2Timer time | .udsSetP2StarTimer time => time < 4294967296
  | _ => True

instance (s : Client) : (c : Call) → Decidable (s.Legal c)
  | .udsClientInit isotpPcb => inferInstanceAs (Decidable (∀ p ∈ isotpPcb, p ∉ s.pcbs))
  | .udsSetP2Timer time | .udsSetP2StarTimer time =>
    inferInstanceAs (Decidable (time < 4294967296))
  | .udsClientDeinit | .udsClientConnect _ _ _ _ | .udsClientDisconnect | .udsSetContext _ _
  | .udsSendRequest _ _ _ | .lwcanTimeout _ _ _ | .lwcanUntimeout _ _ =>
    inferInstanceAs (Decidable True)

/-- Run a call. -/
def call (cfg : UdsConfig) (s : Client) : Call → Client
  | .udsClientInit isotpPcb => (s.udsClientInit cfg isotpPcb).2
  | .udsClientDeinit => s.udsClientDeinit.2
  | .udsClientConnect cb arg bind send => (s.udsClientConnect cfg cb arg bind send).2
  | .udsClientDisconnect => s.udsClientDisconnect cfg
  | .udsSetContext context handle => (s.udsSetContext context handle).2
  | .udsSetP2Timer time => (s.udsSetP2Timer time).2
  | .udsSetP2StarTimer time => (s.udsSetP2StarTimer time).2
  | .udsSendRequest request withResponse send => (s.udsSendRequest request withResponse send).2
  | .lwcanTimeout timeMs n arg =>
    { s with timeouts := s.timeouts.lwcanTimeout s.now timeMs (.other n) arg }
  | .lwcanUntimeout n arg => { s with timeouts := s.timeouts.lwcanUntimeout (.other n) arg }

/-- Run a timeout handler. -/
def runHandler (cfg : UdsConfig) (s : Client) (handler : UdsHandler) (send : Lwcanerr) : Client :=
  match handler with
  | .connectTry => s.connectTry send
  | .s3TimerHandler => s.s3TimerHandler cfg send
  | .p2TimerHandler => s.p2TimerHandler cfg
  | .p2StarTimerHandler => s.p2StarTimerHandler
  | .other _ => s

/-- The event can happen. -/
def Enabled (s : Client) : Event → Prop
  | .call c => s.Legal c
  | .receive p _ _ | .receiveFf p | .sent p | .error p _ => s.stack.isEmpty ∧ p ∈ s.pcbs
  | .timer _ => s.stack.isEmpty ∧ (s.timeouts.expire s.now).isSome
  | .ret => ¬s.stack.isEmpty
  | .tick _ => True

instance (s : Client) : (e : Event) → Decidable (s.Enabled e)
  | .call c => inferInstanceAs (Decidable (s.Legal c))
  | .receive p _ _ | .receiveFf p | .sent p | .error p _ =>
    inferInstanceAs (Decidable (_ ∧ p ∈ s.pcbs))
  | .timer _ => inferInstanceAs (Decidable (_ ∧ _))
  | .ret => inferInstanceAs (Decidable (¬_))
  | .tick _ => inferInstanceAs (Decidable True)

/-- The client after an event -/
def next (cfg : UdsConfig) (s : Client) : Event → Client
  | .call c => s.call cfg c
  | .receive p buffer b => s.udsReceive p buffer b
  | .receiveFf _ => s.udsReceiveFf
  | .sent _ => s.udsSent cfg
  | .error _ err => s.udsError cfg err
  | .timer send =>
    match s.timeouts.expire s.now with
    | none => s
    | some (e, timeouts) => { s with timeouts }.runHandler cfg e.handler send
  | .ret =>
    match s.stack with
    | [] => s
    | f :: stack => { s with stack }.finish f.received
  | .tick ms => { s with now := u32 ((s.now : Int) + ms) }

/-- One step of the client -/
def step (cfg : UdsConfig) (s : Client) (e : Event) : Option Client :=
  if s.Enabled e then some (s.next cfg e) else none

theorem step_eq_some {cfg : UdsConfig} {s s' : Client} {e : Event} :
    step cfg s e = some s' ↔ s.Enabled e ∧ s.next cfg e = s' := by
  simp [step]

/-- A run of the client from power-up -/
def Run (cfg : UdsConfig) (es : List Event) (s : Client) : Prop :=
  Runs.run (step cfg) (powerUp cfg) es = some s

/-- Every step of a run from power-up is taken under a condition. -/
def RunAlong (cfg : UdsConfig) (C : Client → Event → Prop) (es : List Event) : Prop :=
  Runs.Along (step cfg) C (powerUp cfg) es

instance (cfg : UdsConfig) (C : Client → Event → Prop) [∀ s e, Decidable (C s e)]
    (es : List Event) : Decidable (RunAlong cfg C es) :=
  Runs.decidableAlong _ _

/-- Between events: no callback of the application is running. -/
def BetweenEvents (s : Client) : Prop := s.stack = []

instance (s : Client) : Decidable s.BetweenEvents := inferInstanceAs (Decidable (_ = _))

end Client
end Uds
end Lwcan
