import Lwcan.IsotpIn
import Lwcan.Lib.Runs

/-!
# A node and its environment

The steps of a node: the application calls the library, a driver hands over a frame or confirms one,
the main loop runs a due timeout, a callback returns, time passes. What the environment chooses is
part of the event: the contents of a frame, the answer of the allocator or of a driver, the previous
contents of an uninitialised local variable.

The library is single-threaded, and a callback may call it. Where a callback is the last thing a
function does, the calls made inside it are `call` events right after the step. Where something is
left to do, the node stays `suspended` until the event `resume`, and only calls happen in between. A
driver that confirms a frame before `canif->output` returns is covered as well: nothing but the
return is left to do there, so the confirmation is the next event.

One event runs one timeout. `lwcan_timeouts_handler` reads the clock once and runs all that is due
then; its turns are consecutive `timer` events.
-/

namespace Lwcan

/-- A call of the library by the application. -/
inductive Call
  | isotpNew
  | isotpBind (pcb : Option Nat) (addr : Option (Nat × Nat × Nat))
  | isotpRemove (pcb : Option Nat)
  | isotpSetCallbacks (pcb : Nat) (receive receiveFf sent error : Bool)
  | isotpSetCallbackArg (pcb : Nat) (arg : Ptr)
  | isotpSend (pcb : Option Nat) (data : Option (List UInt8)) (g : Grant)
  | isotpReceived (pcb buffer : Option Nat)
  | canifAdd (canif : Option Nat) (name : Option (List UInt8))
      (init : Option (Canif → Lwcanerr × Canif))
  | canifRemove (canif : Option Nat)
  | lwcanTimeout (timeMs n : Nat) (arg : Ptr)
  | lwcanUntimeout (n : Nat) (arg : Ptr)

/-- What happens to a node. -/
inductive Event
  /-- The application calls the library. -/
  | call (c : Call)
  /-- A driver hands a frame to `isotp_input`. -/
  | input (canif : Nat) (frame : CanFrame) (g : Grant)
  /-- The main loop runs the timeout that is due. If its handler builds a frame, `frame` is what the
  local variable held and `ret` what the driver returns. -/
  | timer (frame : CanFrame) (ret : Lwcanerr)
  /-- A driver calls `isotp_sent` for a flow. -/
  | sent (k : FlowId) (err : Lwcanerr)
  /-- The callback returns to the suspended function. -/
  | resume
  | tick (ms : Nat)

namespace Node

/-- A call keeps the contract of the interface: a pcb is one that was not removed, a length fits a
`uint32_t`, the allocator hands out free blocks, and `canif_add` returns. -/
def Legal (s : Node) : Call → Prop
  | .isotpNew | .canifRemove _ | .lwcanTimeout _ _ _ | .lwcanUntimeout _ _ => True
  | .isotpBind pcb _ | .isotpRemove pcb | .isotpReceived pcb _ => ∀ p ∈ pcb, p ∈ s.isotpPcbList
  | .isotpSetCallbacks p _ _ _ _ | .isotpSetCallbackArg p _ => p ∈ s.isotpPcbList
  | .isotpSend pcb data g =>
    (∀ p ∈ pcb, p ∈ s.isotpPcbList) ∧ (∀ d ∈ data, d.length < 4294967296) ∧ g.Fresh s.heap.blocks
  | .canifAdd canif name init => (s.canifs.canifAdd canif name init).isSome

instance (s : Node) : (c : Call) → Decidable (s.Legal c)
  | .isotpNew | .canifRemove _ | .lwcanTimeout _ _ _ | .lwcanUntimeout _ _ =>
    inferInstanceAs (Decidable True)
  | .isotpBind pcb _ | .isotpRemove pcb | .isotpReceived pcb _ =>
    inferInstanceAs (Decidable (∀ p ∈ pcb, p ∈ s.isotpPcbList))
  | .isotpSetCallbacks p _ _ _ _ | .isotpSetCallbackArg p _ =>
    inferInstanceAs (Decidable (p ∈ s.isotpPcbList))
  | .isotpSend _ _ _ => inferInstanceAs (Decidable (_ ∧ _ ∧ _))
  | .canifAdd _ _ _ => inferInstanceAs (Decidable (_ = true))

/-- Run a call. -/
def call (cfg : Config) (s : Node) : Call → Node
  | .isotpNew => (s.isotpNew cfg).2
  | .isotpBind pcb addr => (s.isotpBind pcb addr).2
  | .isotpRemove pcb => s.isotpRemove pcb
  | .isotpSetCallbacks p receive receiveFf sent error =>
    s.isotpSetCallbacks p receive receiveFf sent error
  | .isotpSetCallbackArg p arg => (s.isotpSetCallbackArg (some p) arg).2
  | .isotpSend pcb data g => (s.isotpSend cfg pcb data g).2
  | .isotpReceived pcb buffer => (s.isotpReceived pcb buffer).2
  | .canifAdd canif name init =>
    { s with canifs := ((s.canifs.canifAdd canif name init).map Prod.snd).getD s.canifs }
  | .canifRemove canif => { s with canifs := (s.canifs.canifRemove canif).2 }
  | .lwcanTimeout timeMs n arg => s.lwcanTimeout timeMs (.user n) arg
  | .lwcanUntimeout n arg => s.lwcanUntimeout (.user n) arg

@[simp] theorem call_isotpSetCallbacks (cfg : Config) (s : Node) (p : Nat)
    (receive receiveFf sent error : Bool) :
    s.call cfg (.isotpSetCallbacks p receive receiveFf sent error) =
      { s with pcb := Function.update s.pcb p { s.pcb p with receive, receiveFf, sent, error } } :=
  isotpSetCallbacks_eq s p receive receiveFf sent error

/-- Run a timeout handler. -/
def runHandler (cfg : Config) (s : Node) (handler : Handler) (arg : Ptr) (frame : CanFrame)
    (ret : Lwcanerr) : Node :=
  match handler with
  | .isotpOutFlowOutput => s.isotpOutFlowOutput cfg arg frame ret
  | .isotpInFlowOutput => s.isotpInFlowOutput cfg arg frame ret
  | .isotpOutputErrorHandler => s.isotpOutputErrorHandler arg
  | .isotpInputErrorHandler => s.isotpInputErrorHandler arg
  | .user _ => s

/-- Run the rest of a suspended function. -/
def resume (cfg : Config) (s : Node) : Suspended → Node
  | .receivedFf p frame b length => s.receivedFfStore cfg p frame b length
  | .receivedFfOutput p => s.receivedFfOutput cfg p
  | .isotpSent k => s.isotpSentSwitch cfg k

/-- The event can happen. -/
def Enabled (s : Node) : Event → Prop
  | .call c => s.Legal c
  | .input _ _ g => s.suspended.isNone ∧ g.Fresh s.heap.blocks
  | .timer _ _ => s.suspended.isNone ∧ (s.timeouts.expire s.now).isSome
  | .sent _ _ => s.suspended.isNone
  | .resume => s.suspended.isSome
  | .tick _ => True

instance (s : Node) : (e : Event) → Decidable (s.Enabled e)
  | .call c => inferInstanceAs (Decidable (s.Legal c))
  | .input _ _ _ | .timer _ _ => inferInstanceAs (Decidable (_ ∧ _))
  | .sent _ _ | .resume => inferInstanceAs (Decidable (_ = true))
  | .tick _ => inferInstanceAs (Decidable True)

/-- The node after an event. -/
def next (cfg : Config) (s : Node) : Event → Node
  | .call c => s.call cfg c
  | .input canif frame g => s.isotpInput cfg canif frame g
  | .timer frame ret =>
    match s.timeouts.expire s.now with
    | none => s
    | some (e, timeouts) => { s with timeouts }.runHandler cfg e.handler e.arg frame ret
  | .sent k err => { s with confirms := s.confirms.erase k }.isotpSent cfg k err
  | .resume =>
    match s.suspended with
    | none => s
    | some f => { s with suspended := none }.resume cfg f
  | .tick ms => { s with now := u32 ((s.now : Int) + ms) }

/-- One step of a node. -/
def step (cfg : Config) (s : Node) (e : Event) : Option Node :=
  if s.Enabled e then some (s.next cfg e) else none

theorem step_eq_some {cfg : Config} {s s' : Node} {e : Event} :
    step cfg s e = some s' ↔ s.Enabled e ∧ s.next cfg e = s' := by
  simp [step]

/-- A run of a node from power-up. -/
def Run (cfg : Config) (es : List Event) (s : Node) : Prop :=
  Runs.run (step cfg) (lwcanInit cfg) es = some s

/-- Every step of a run from power-up is taken under a condition. -/
def RunAlong (cfg : Config) (C : Node → Event → Prop) (es : List Event) : Prop :=
  Runs.Along (step cfg) C (lwcanInit cfg) es

instance (cfg : Config) (C : Node → Event → Prop) [∀ s e, Decidable (C s e)] (es : List Event) :
    Decidable (RunAlong cfg C es) :=
  Runs.decidableAlong _ _

/-- A run is found by running it. -/
theorem exists_run (cfg : Config) (es : List Event) (P : Node → Prop) [DecidablePred P]
    (h : (Runs.run (step cfg) (lwcanInit cfg) es).any fun s => P s) : ∃ s, Run cfg es s ∧ P s :=
  Runs.exists_run (step cfg) _ es P h

/-- One connection over one interface: what the concrete runs of this development start with. -/
def connected : List Event :=
  [.call (.canifAdd (some 0) (some [0x63]) (some fun c => (.ok, { c with output := .driver 0 }))),
    .call .isotpNew, .call (.isotpBind (some 0) (some (1, 0x7E0, 0x7E8)))]

end Node
end Lwcan
