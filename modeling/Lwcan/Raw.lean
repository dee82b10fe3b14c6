import Lwcan.Lib.Linked
import Lwcan.Lib.Runs
import Lwcan.Pool
import Lwcan.Types

/-!
# Raw pcbs (`src/raw.c`)

The list of raw pcbs and the dispatch of received frames to them. A pcb lives in a chunk of a pool
and is linked through its own `next` field, which a removed pcb keeps: the model has the chunks as
cells of a memory, not a list of pcbs, since `canraw_input` follows and writes links of pcbs that a
callback may have removed.

A loop that follows the links has as much fuel as there are chunks. The links lead to chunks only,
so a loop that is not through by then never ends, and the operation has no result.

The field `live` is not the source's: it holds the pcbs that `canraw_new` returned and that were not
passed to `canraw_remove` since. No function reads it.
-/

namespace Lwcan

/-- `struct canraw_pcb`: the fields that reception uses. -/
structure CanrawPcb where
  next : Option Nat
  ifIndex : Nat
  receive : Ptr
  callbackArg : Ptr

/-- `canraw_input_state_t` -/
inductive CanrawInputState
  | none
  | eaten
  deriving DecidableEq, Repr

/-- The state of `raw.c`: `canraw_mem_pool` with its service bytes and its cells, `canraw_pcb_list`
and `canraw_pcb_num`. -/
structure Raw where
  canrawMemPool : Pool
  mem : Nat → CanrawPcb
  canrawPcbList : Option Nat
  canrawPcbNum : Nat
  live : List Nat

namespace Raw

/-- `canraw_init`, with chunks of `chunk` bytes and `CANRAW_MAX_PCB_NUM = num`. -/
def canrawInit (chunk num : Nat) : Raw :=
  ⟨Pool.init chunk num, fun _ => ⟨none, 0, .null, .null⟩, none, 0, []⟩

/-- `CANRAW_MAX_PCB_NUM` -/
def canrawMaxPcbNum (r : Raw) : Nat := r.canrawMemPool.service.length

/-- `pcb->next` -/
def next (r : Raw) (pcb : Nat) : Option Nat := (r.mem pcb).next

/-- `pcb->next = next` -/
def setNext (r : Raw) (pcb : Nat) (next : Option Nat) : Raw :=
  { r with mem := Function.update r.mem pcb { r.mem pcb with next := next } }

/-- The fuel of a loop that follows the links. -/
def fuel (r : Raw) : Nat := r.canrawMaxPcbNum + 1

/-- `canraw_pcb_malloc()` -/
abbrev canrawPcbMalloc (r : Raw) : Option (Nat × Pool) := r.canrawMemPool.malloc

/-- `canraw_pcb_free(mem)` -/
abbrev canrawPcbFree (r : Raw) (mem : Nat) : Pool := r.canrawMemPool.free mem

/-- `canraw_new` -/
def canrawNew (r : Raw) : Option Nat × Raw :=
  if r.canrawMaxPcbNum ≤ r.canrawPcbNum then (none, r)
  else
    match r.canrawPcbMalloc with
    | none => (none, r)
    | some (pcb, pool) =>
      (some pcb,
        { r with
          canrawMemPool := pool
          mem := Function.update r.mem pcb ⟨r.canrawPcbList, 0, .null, .null⟩
          canrawPcbList := some pcb
          canrawPcbNum := u8 ((r.canrawPcbNum : Int) + 1)
          live := pcb :: r.live })

/-- `canraw_bind(pcb, addr)`, with `addr->can_ifindex` for `addr`. -/
def canrawBind (r : Raw) (pcb addr : Option Nat) : Lwcanerr × Raw :=
  match pcb, addr with
  | some pcb, some canIfindex =>
    if canIfindex = 0 then (.canif, r)
    else (.ok, { r with mem := Function.update r.mem pcb { r.mem pcb with ifIndex := canIfindex } })
  | _, _ => (.arg, r)

/-- `canraw_set_receive_callback(pcb, receive)` -/
def canrawSetReceiveCallback (r : Raw) (pcb : Option Nat) (receive : Ptr) : Lwcanerr × Raw :=
  match pcb with
  | none => (.arg, r)
  | some pcb =>
    (.ok, { r with mem := Function.update r.mem pcb { r.mem pcb with receive := receive } })

/-- `canraw_set_callback_arg(pcb, arg)` -/
def canrawSetCallbackArg (r : Raw) (pcb : Option Nat) (arg : Ptr) : Lwcanerr × Raw :=
  match pcb with
  | none => (.arg, r)
  | some pcb =>
    (.ok, { r with mem := Function.update r.mem pcb { r.mem pcb with callbackArg := arg } })

/-- The end of `canraw_remove`, once the pcb is unlinked. -/
def release (r : Raw) (pcb : Nat) : Raw :=
  { r with
    canrawMemPool := r.canrawPcbFree pcb
    canrawPcbNum := u8 ((r.canrawPcbNum : Int) - 1) }

/-- The body of `canraw_remove`; no result if its loop does not end. -/
def unlink (r : Raw) (pcb : Nat) : Option Raw :=
  if r.canrawPcbList = some pcb then some ({ r with canrawPcbList := r.next pcb }.release pcb)
  else
    -- the pcb whose successor is to be removed
    match walk r.next (fun p => decide (r.next p = some pcb)) r.fuel none r.canrawPcbList with
    | none => none
    | some none => some r
    | some (some (_, p)) => some ((r.setNext p (r.next pcb)).release pcb)

/-- `canraw_remove(pcb)` -/
def canrawRemove (r : Raw) (pcb : Option Nat) : Option Raw :=
  match pcb with
  | none => some r
  | some pcb => { r with live := r.live.erase pcb }.unlink pcb

/-- What the user does with raw pcbs, from outside or in a receive callback. -/
inductive Op
  | new
  | bind (pcb addr : Option Nat)
  | setReceiveCallback (pcb : Option Nat) (receive : Ptr)
  | setCallbackArg (pcb : Option Nat) (arg : Ptr)
  | remove (pcb : Option Nat)
  deriving DecidableEq

/-- The state after an operation. -/
def apply (r : Raw) : Op → Option Raw
  | .new => some r.canrawNew.2
  | .bind pcb addr => some (r.canrawBind pcb addr).2
  | .setReceiveCallback pcb receive => some (r.canrawSetReceiveCallback pcb receive).2
  | .setCallbackArg pcb arg => some (r.canrawSetCallbackArg pcb arg).2
  | .remove pcb => r.canrawRemove pcb

/-- A receive callback: what it does when it is called with this function pointer, argument and pcb,
and what it returns. -/
abbrev Receive := Ptr → Ptr → Nat → List Op × Nat

/-- The loop of `canraw_input`: the first pcb bound to the interface, with the pcb before it. -/
def bound (r : Raw) (ifIndex : Nat) : Option (Option (Option Nat × Nat)) :=
  walk r.next (fun p => decide ((r.mem p).ifIndex = ifIndex)) r.fuel none r.canrawPcbList

/-- The move to the front at the end of `canraw_input`. -/
def moveToFront (r : Raw) (prev : Option Nat) (pcb : Nat) : Raw :=
  match prev with
  | none => r
  | some prev =>
    let r := r.setNext prev (r.next pcb)
    { r.setNext pcb r.canrawPcbList with canrawPcbList := some pcb }

/-- `canraw_input(canif, frame)` for the interface with index `ifIndex`. -/
def canrawInput (r : Raw) (ifIndex : Nat) (receive : Receive) : Option (CanrawInputState × Raw) :=
  match r.bound ifIndex with
  | none => none
  | some none => some (.none, r)
  | some (some (prev, pcb)) =>
    if (r.mem pcb).receive = .null then some (.none, r)
    else
      let (ops, eaten) := receive (r.mem pcb).receive (r.mem pcb).callbackArg pcb
      match Runs.run apply r ops with
      | none => none
      | some r => if eaten = 0 then some (.none, r) else some (.eaten, r.moveToFront prev pcb)

/-- What happens to the raw pcbs: an operation of the user, or a received frame. -/
inductive Event
  | op (o : Op)
  | input (ifIndex : Nat) (receive : Receive)

/-- One event. -/
def step (r : Raw) : Event → Option Raw
  | .op o => r.apply o
  | .input ifIndex receive => (r.canrawInput ifIndex receive).map Prod.snd

end Raw
end Lwcan
