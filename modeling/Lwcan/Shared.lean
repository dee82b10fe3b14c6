import Lwcan.MemoryCalls

/-!
# One memory for all buffers

`Heap` gives every buffer bytes of its own, and `lwcan_buffer_copy_to_offset` checks no length. What
is copied behind the end of one buffer lands where another one lies: in its bytes, or in the fields
of its `struct lwcan_buffer`. Here a step of the node is taken in the one memory that the payloads
share.

* `copied` — the byte that a step copies to an address;
* `spread` — the node after a step, where each buffer has the bytes that are copied to its
  addresses;
* `Faults` — the steps that the library does not survive: `store_cf_data` reads through NULL, or a
  copy runs over the fields of a buffer;
* `spread_eq`, `not_wrecks` — while copies stay inside their buffers, and the buffers are apart,
  neither happens.
-/

namespace Lwcan
namespace Node

variable {cfg : Config} {s s' : Node} {e : Event} {k : FlowId} {a b size : Nat}

/-- The flows of the pcbs in use -/
def flows (s : Node) : List FlowId := s.isotpPcbList.flatMap fun p => [(p, .output), (p, .input)]

/-- The buffers of the node -/
def buffers (s : Node) : List Nat := s.flows.flatMap s.owned

theorem exists_owner (h : b ∈ s.buffers) : ∃ k ∈ s.flows, b ∈ s.owned k := List.mem_flatMap.mp h

/-! ### Where a copy lands -/

/-- The byte that a step copies to the address, if it copies one there -/
def copied (s s' : Node) (a : Nat) : Option UInt8 :=
  s'.flows.findSome? fun k => (s.written s' k).bind fun b => (s.copies s' k).findSome? fun r =>
    if r.1 ≤ a ∧ a < r.1 + r.2 then
      some ((s'.heap.buffer b).data (a - (s'.heap.buffer b).payload))
    else none

/-- **What is copied lands where its address is**: a byte behind the end of one buffer is a byte of
the buffer that lies there. -/
def spread (s s' : Node) : Node :=
  { s' with
    heap := { s'.heap with
      buffer := fun b =>
        let buf := s'.heap.buffer b
        if b ∈ s'.buffers then
          { buf with
            data := fun i =>
              if i < buf.length then (s.copied s' (buf.payload + i)).getD
                (buf.data i) else buf.data i }
        else buf } }

/-- A copy of the step runs over the fields of a buffer. `size` is `sizeof(struct lwcan_buffer)`. -/
def Wrecks (s s' : Node) (size : Nat) : Prop :=
  ∃ k ∈ s'.flows, ∃ r ∈ s.copies s' k, ∃ b ∈ s'.buffers, 0 < r.2 ∧ r.1 < b + size ∧ b < r.1 + r.2

instance (s s' : Node) (size : Nat) : Decidable (s.Wrecks s' size) :=
  inferInstanceAs (Decidable (∃ k ∈ s'.flows, ∃ r ∈ s.copies s' k, ∃ b ∈ s'.buffers, _ ∧ _))

/-- `received_cf` goes on to `store_cf_data` without a buffer: `flow->buffer->length` is read
through NULL. -/
def ReadsNull (s : Node) : Event → Prop
  | .input canif frame _ =>
    ∃ p ∈ s.findPcb canif frame, s.awaitsCf p frame ∧ s.head (p, .input) = none
  | _ => False

instance (s : Node) : (e : Event) → Decidable (s.ReadsNull e)
  | .input canif frame _ => inferInstanceAs (Decidable (∃ p ∈ s.findPcb canif frame, _ ∧ _))
  | .call _ | .timer _ _ | .sent _ _ | .resume | .tick _ => isFalse id

/-- **What the library does not survive.** From here on C says nothing, and neither does the
model. -/
def Faults (s s' : Node) (size : Nat) (e : Event) : Prop := s.ReadsNull e ∨ s.Wrecks s' size

instance (s s' : Node) (size : Nat) (e : Event) : Decidable (s.Faults s' size e) :=
  inferInstanceAs (Decidable (_ ∨ _))

/-! ### Copies that stay inside -/

/-- A byte that is copied is one of the buffer that is written to. -/
theorem copied_eq_some {x : UInt8} (h : s.copied s' a = some x) :
    ∃ k ∈ s'.flows, ∃ b, s.written s' k = some b ∧ ∃ r ∈ s.copies s' k, r.1 ≤ a ∧ a < r.1 + r.2 ∧
      x = (s'.heap.buffer b).data (a - (s'.heap.buffer b).payload) := by
  obtain ⟨k, hk, h⟩ := List.exists_of_findSome?_eq_some h
  obtain ⟨b, hb, h⟩ := Option.bind_eq_some_iff.mp h
  obtain ⟨r, hr, h⟩ := List.exists_of_findSome?_eq_some h
  split at h
  · next hin =>
    obtain rfl := Option.some.inj h
    exact ⟨k, hk, b, hb, r, hr, hin.1, hin.2, rfl⟩
  · cases h

/-- Where a copy reaches the bytes of no buffer but the one it goes to, it spreads to none. -/
theorem spread_eq (h : ∀ k b, s.written s' k = some b → ∀ r ∈ s.copies s' k, ∀ b' ∈ s'.buffers,
    ∀ i < (s'.heap.buffer b').length, r.1 ≤ (s'.heap.buffer b').payload + i →
      (s'.heap.buffer b').payload + i < r.1 + r.2 → b = b') : s.spread s' = s' := by
  have hbuffer : ∀ b', (s.spread s').heap.buffer b' = s'.heap.buffer b' := by
    intro b'
    show (if b' ∈ s'.buffers then _ else _) = _
    split
    · next hb' =>
      -- what is copied to one of its addresses, it has there already
      have hdata : (fun i => if i < (s'.heap.buffer b').length then
          (s.copied s' ((s'.heap.buffer b').payload + i)).getD ((s'.heap.buffer b').data i)
          else (s'.heap.buffer b').data i) = (s'.heap.buffer b').data := by
        funext i
        split
        · next hi =>
          cases hc : s.copied s' ((s'.heap.buffer b').payload + i) with
          | none => rfl
          | some x =>
            obtain ⟨k, -, b, hw, r, hr, hlo, hhi, rfl⟩ := copied_eq_some hc
            obtain rfl := h k b hw r hr b' hb' i hi hlo hhi
            rw [Option.getD_some, Nat.add_sub_cancel_left]
        · rfl
      exact congrArg (LwcanBuffer.mk _ _) hdata
    · rfl
  show { s' with heap := { s'.heap with buffer := (s.spread s').heap.buffer } } = s'
  rw [funext hbuffer]

/-- While a message is under reassembly it has a buffer, so nothing is read through NULL. -/
theorem not_readsNull (h : ∀ p, Contained cfg (s.view (p, .input))) : ¬s.ReadsNull e := by
  cases e with
  | input canif frame g =>
    rintro ⟨p, -, hcf, hnone⟩
    have hst : (s.flow (p, .input)).state = .waitCf := by
      unfold awaitsCf at hcf
      simp only [Bool.and_eq_true, decide_eq_true_eq] at hcf
      exact hcf.1.2
    exact (h p).head_ne_none (IsotpFlow.reassembling_of_waitCf hst) hnone
  | _ => exact id

end Node
end Lwcan
