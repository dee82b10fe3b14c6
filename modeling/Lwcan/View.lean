import Lwcan.Ownership

/-!
# What one flow sees

The flows of a node share its timer list, its heap and its drivers, but what one of them does
depends on little of that. `Node.view` collects it: the flow itself, its buffers with their
contents, how many entries of its two timeout handlers are pending, how many of its frames are
unconfirmed, and its own part of the log.

The lemmas give the effect of every primitive of the library on the view of the flow it works on,
and say that it leaves the view of every other flow alone. `Lwcan.FlowSteps` puts them together.
-/

namespace Lwcan

/-- The handler that hands a flow's next frame to the driver. -/
def outputHandler : Dir → Handler
  | .output => .isotpOutFlowOutput
  | .input => .isotpInFlowOutput

/-- The handler that gives a flow's message up. -/
def errorHandler : Dir → Handler
  | .output => .isotpOutputErrorHandler
  | .input => .isotpInputErrorHandler

theorem outputHandler_inj {d d' : Dir} (h : outputHandler d = outputHandler d') : d = d' := by
  cases d <;> cases d' <;> first | rfl | cases h

theorem errorHandler_inj {d d' : Dir} (h : errorHandler d = errorHandler d') : d = d' := by
  cases d <;> cases d' <;> first | rfl | cases h

theorem outputHandler_ne_errorHandler (d d' : Dir) : outputHandler d ≠ errorHandler d' := by
  cases d <;> cases d' <;> decide

/-- The flow a suspended function works on. -/
def Suspended.flow : Suspended → FlowId
  | .receivedFf p _ _ _ | .receivedFfOutput p => (p, .input)
  | .isotpSent k => k

/-- One flow's part of a node. -/
structure View where
  flow : IsotpFlow
  /-- The buffers of the flow and what is in them. -/
  chain : List (Nat × LwcanBuffer)
  /-- The pending entries of the output handler. -/
  tx : Nat
  /-- The pending entries of the error handler. -/
  err : Nat
  /-- The frames accepted by a driver and not confirmed. -/
  confirms : Nat
  suspended : Option Suspended
  log : List Obs

namespace View

def emit (v : View) (o : Obs) : View := { v with log := v.log ++ [o] }

def emitIf (v : View) (c : Bool) (o : Obs) : View := if c then v.emit o else v

/-- Replace the flow by one with the same buffers. -/
def setFlow (v : View) (fl : IsotpFlow) : View := { v with flow := fl }

def setState (v : View) (state : IsotpState) : View := v.setFlow { v.flow with state }

/-- `lwcan_timeout` for the output handler -/
def armOutput (v : View) (slot : Bool) : View := { v with tx := v.tx + slot.toNat }

/-- `lwcan_timeout` for the error handler -/
def armError (v : View) (slot : Bool) : View := { v with err := v.err + slot.toNat }

/-- The buffer at the head of the chain is taken off. -/
def removeHead (v : View) : View :=
  { v with flow := { v.flow with buffer := v.flow.buffer.tail }, chain := v.chain.tail }

/-- The buffer `b` with contents `buf` is linked before the others. -/
def push (v : View) (b : Nat) (buf : LwcanBuffer) (remaining : Nat) : View :=
  { v with
    flow := { v.flow with buffer := b :: v.flow.buffer, remainingData := remaining }
    chain := (b, buf) :: v.chain }

/-- What every error path does with the message it gives up. -/
def drop (v : View) (k : FlowId) : View :=
  (v.emit (.dropped k v.flow.buffer.head?)).removeHead

/-- The way every error path ends: the message is given up, the flow is idle, and the error callback
is called if there is one (`c`). -/
def fail (v : View) (k : FlowId) (c : Bool) (arg : Ptr) (err : Lwcanerr) : View :=
  ((v.drop k).setState .idle).emitIf c (.error k arg err)

/-- The contents of the buffer at the head of the chain -/
def headBuffer (v : View) : Option LwcanBuffer := v.chain.head?.map Prod.snd

/-- The length of the buffer at the head of the chain -/
def capacity (v : View) : Nat := v.headBuffer.elim 0 LwcanBuffer.length

@[simp] theorem emit_flow (v : View) (o : Obs) : (v.emit o).flow = v.flow := rfl
@[simp] theorem emit_chain (v : View) (o : Obs) : (v.emit o).chain = v.chain := rfl
@[simp] theorem setFlow_flow (v : View) (fl : IsotpFlow) : (v.setFlow fl).flow = fl := rfl
@[simp] theorem setFlow_chain (v : View) (fl : IsotpFlow) : (v.setFlow fl).chain = v.chain := rfl

section EmitIf

variable (v : View) (c : Bool) (o : Obs)

@[simp] theorem emitIf_flow : (v.emitIf c o).flow = v.flow := by unfold emitIf; split <;> rfl
@[simp] theorem emitIf_chain : (v.emitIf c o).chain = v.chain := by unfold emitIf; split <;> rfl
@[simp] theorem emitIf_tx : (v.emitIf c o).tx = v.tx := by unfold emitIf; split <;> rfl
@[simp] theorem emitIf_err : (v.emitIf c o).err = v.err := by unfold emitIf; split <;> rfl
@[simp] theorem emitIf_confirms : (v.emitIf c o).confirms = v.confirms := by
  unfold emitIf; split <;> rfl
@[simp] theorem emitIf_suspended : (v.emitIf c o).suspended = v.suspended := by
  unfold emitIf; split <;> rfl
@[simp] theorem emitIf_log : (v.emitIf c o).log = v.log ++ if c then [o] else [] := by
  unfold emitIf; split <;> simp [emit]

end EmitIf

@[simp] theorem fail_state (v : View) (k : FlowId) (c : Bool) (arg : Ptr) (err : Lwcanerr) :
    (v.fail k c arg err).flow.state = .idle := by
  rw [fail, emitIf_flow]
  rfl

theorem fail_buffer (v : View) (k : FlowId) (c : Bool) (arg : Ptr) (err : Lwcanerr) :
    (v.fail k c arg err).flow.buffer = v.flow.buffer.tail := by
  rw [fail, emitIf_flow]
  rfl

/-- What the log says of a message that is given up -/
theorem fail_log (v : View) (k : FlowId) (c : Bool) (arg : Ptr) (err : Lwcanerr) :
    (v.fail k c arg err).log =
      v.log ++ .dropped k v.flow.buffer.head? :: if c then [.error k arg err] else [] := by
  rw [fail, emitIf_log]
  exact List.append_assoc _ [_] _

end View

namespace Node

variable {cfg : Config} {s s' : Node} {k k' : FlowId} {p b : Nat}

/-- The part of a node that flow `k` sees. -/
def view (s : Node) (k : FlowId) : View where
  flow := s.flow k
  chain := (s.flow k).buffer.map fun b => (b, s.heap.buffer b)
  tx := s.timeouts.pending (outputHandler k.2) (.pcb k.1)
  err := s.timeouts.pending (errorHandler k.2) (.pcb k.1)
  confirms := s.confirms.count k
  suspended := s.suspended.filter (·.flow = k)
  log := s.log.filter (·.flow = k)

@[simp] theorem view_flow (s : Node) (k : FlowId) : (s.view k).flow = s.flow k := rfl

theorem view_suspended {f : Suspended} (h : s.suspended = some f) (hk : f.flow = k) :
    (s.view k).suspended = some f := by
  simp [view, h, hk]

theorem view_not_suspended (h : s.suspended = none) (k : FlowId) : (s.view k).suspended = none := by
  simp [view, h]

/-- A frame is processed only while no function waits. -/
theorem Enabled.input_not_suspended {canif : Nat} {frame : CanFrame} {g : Grant}
    (he : s.Enabled (.input canif frame g)) (k : FlowId) : (s.view k).suspended = none :=
  view_not_suspended (Option.isNone_iff_eq_none.mp he.1) k

theorem view_headBuffer (s : Node) (k : FlowId) : (s.view k).headBuffer = s.headBuffer k := by
  unfold View.headBuffer headBuffer head view
  simp only
  cases (s.flow k).buffer <;> rfl

theorem view_capacity (s : Node) (k : FlowId) :
    (s.view k).capacity = (s.headBuffer k).elim 0 LwcanBuffer.length := by
  rw [View.capacity, view_headBuffer]

/-- Two nodes that agree on what a flow is made of look the same to it. -/
theorem view_congr (hf : s'.flow k = s.flow k)
    (hb : ∀ b ∈ (s.flow k).buffer, s'.heap.buffer b = s.heap.buffer b)
    (ht : s'.timeouts.pending (outputHandler k.2) (.pcb k.1) =
      s.timeouts.pending (outputHandler k.2) (.pcb k.1))
    (he : s'.timeouts.pending (errorHandler k.2) (.pcb k.1) =
      s.timeouts.pending (errorHandler k.2) (.pcb k.1))
    (hc : s'.confirms.count k = s.confirms.count k)
    (hs : s'.suspended.filter (·.flow = k) = s.suspended.filter (·.flow = k))
    (hl : s'.log.filter (·.flow = k) = s.log.filter (·.flow = k)) : s'.view k = s.view k := by
  unfold view
  rw [hf, ht, he, hc, hs, hl]
  congr 1
  exact List.map_congr_left fun b hm => by rw [hb b hm]

/-! ### The log -/

theorem view_emit_self (s : Node) {o : Obs} (h : o.flow = k) :
    (s.emit o).view k = (s.view k).emit o := by
  unfold view emit View.emit
  simp [h, flow]

theorem view_emit_other (s : Node) {o : Obs} (h : o.flow ≠ k) : (s.emit o).view k = s.view k := by
  unfold view emit
  simp [h, flow]

/-! ### The flow -/

theorem view_setFlow_self (s : Node) {fl : IsotpFlow} (h : fl.buffer = (s.flow k).buffer) :
    (s.setFlow k fl).view k = (s.view k).setFlow fl := by
  unfold view View.setFlow
  simp only [flow_setFlow_self, h]
  rfl

theorem view_setFlow_other (s : Node) (fl : IsotpFlow) (h : k' ≠ k) :
    (s.setFlow k fl).view k' = s.view k' := by
  unfold view
  simp only [flow_setFlow_of_ne _ _ h]
  rfl

@[simp] theorem view_setState_self (s : Node) (k : FlowId) (st : IsotpState) :
    (s.setState k st).view k = (s.view k).setState st :=
  view_setFlow_self s rfl

theorem view_setState_other (s : Node) (st : IsotpState) (h : k' ≠ k) :
    (s.setState k st).view k' = s.view k' :=
  view_setFlow_other s _ h

/-! ### Timeouts -/

theorem view_armOutput (s : Node) (n : Nat) (p : Nat) (d : Dir) :
    (s.lwcanTimeout n (outputHandler d) (.pcb p)).view (p, d) =
      (s.view (p, d)).armOutput s.timeouts.slotFree := by
  unfold view View.armOutput lwcanTimeout
  simp only [Timeouts.pending_lwcanTimeout, outputHandler_ne_errorHandler]
  cases s.timeouts.slotFree <;> rfl

theorem view_armError (s : Node) (n : Nat) (p : Nat) (d : Dir) :
    (s.lwcanTimeout n (errorHandler d) (.pcb p)).view (p, d) =
      (s.view (p, d)).armError s.timeouts.slotFree := by
  unfold view View.armError lwcanTimeout
  simp only [Timeouts.pending_lwcanTimeout, (outputHandler_ne_errorHandler _ _).symm]
  cases s.timeouts.slotFree <;> rfl

/-- An entry for another flow's handler, or for an application's, is not this flow's. -/
theorem view_lwcanTimeout_other (s : Node) (n : Nat) {h : Handler} {a : Ptr}
    (hne : ∀ p d, (h = outputHandler d ∨ h = errorHandler d) → a = .pcb p → k ≠ (p, d)) :
    (s.lwcanTimeout n h a).view k = s.view k := by
  have h₁ : ¬ (h = outputHandler k.2 ∧ a = .pcb k.1) :=
    fun hh => hne k.1 k.2 (Or.inl hh.1) hh.2 rfl
  have h₂ : ¬ (h = errorHandler k.2 ∧ a = .pcb k.1) :=
    fun hh => hne k.1 k.2 (Or.inr hh.1) hh.2 rfl
  refine view_congr rfl (fun _ _ => rfl) ?_ ?_ rfl rfl rfl
  · exact (Timeouts.pending_lwcanTimeout ..).trans (by simp [h₁])
  · exact (Timeouts.pending_lwcanTimeout ..).trans (by simp [h₂])

theorem view_cancelError (s : Node) (p : Nat) (d : Dir) :
    (s.lwcanUntimeout (errorHandler d) (.pcb p)).view (p, d) =
      { s.view (p, d) with err := (s.view (p, d)).err - 1 } := by
  unfold view lwcanUntimeout
  simp only [Timeouts.pending_lwcanUntimeout, (outputHandler_ne_errorHandler _ _).symm]
  rfl

theorem view_lwcanUntimeout_other (s : Node) {h : Handler} {a : Ptr}
    (hne : ∀ p d, (h = outputHandler d ∨ h = errorHandler d) → a = .pcb p → k ≠ (p, d)) :
    (s.lwcanUntimeout h a).view k = s.view k := by
  have h₁ : ¬ (h = outputHandler k.2 ∧ a = .pcb k.1) :=
    fun hh => hne k.1 k.2 (Or.inl hh.1) hh.2 rfl
  have h₂ : ¬ (h = errorHandler k.2 ∧ a = .pcb k.1) :=
    fun hh => hne k.1 k.2 (Or.inr hh.1) hh.2 rfl
  refine view_congr rfl (fun _ _ => rfl) ?_ ?_ rfl rfl rfl
  · exact (Timeouts.pending_lwcanUntimeout ..).trans (by simp [h₁])
  · exact (Timeouts.pending_lwcanUntimeout ..).trans (by simp [h₂])

/-! ### Buffers -/

theorem view_removeHead (s : Node) (k : FlowId) :
    (s.isotpRemoveBuffer k (s.head k)).view k = (s.view k).removeHead := by
  unfold isotpRemoveBuffer head
  -- without a message there is nothing to remove
  cases hb : (s.flow k).buffer with
  | nil =>
    unfold view View.removeHead
    simp only [List.head?_nil, hb, List.map_nil, List.tail_nil]
    rw [← hb]
  | cons b bs =>
    simp only [List.head?_cons, List.mem_cons, true_or, if_true, List.erase_cons_head]
    unfold view View.removeHead
    simp only [hb, List.map_cons, List.tail_cons]
    have hf : (s.setFlow k { s.flow k with buffer := bs }).flow k =
      { s.flow k with buffer := bs } :=
      flow_setFlow_self s k _
    unfold flow at hf ⊢
    simp only [hf]
    rfl

theorem view_isotpRemoveBuffer_other (s : Node) (buffer : Option Nat) (h : k' ≠ k) :
    (s.isotpRemoveBuffer k buffer).view k' = s.view k' := by
  unfold isotpRemoveBuffer
  split
  · rfl
  · split
    · exact view_setFlow_other s _ h
    · rfl

@[simp] theorem view_dropHead_self (s : Node) (k : FlowId) :
    (s.dropHead k).view k = (s.view k).drop k := by
  have h := view_removeHead (s.emit (.dropped k (s.head k))) k
  rw [view_emit_self (k := k) s rfl] at h
  exact h

theorem view_dropHead_other (s : Node) (h : k' ≠ k) : (s.dropHead k).view k' = s.view k' := by
  unfold dropHead
  rw [view_isotpRemoveBuffer_other _ _ h, view_emit_other _ fun he => h he.symm]

/-! ### The registered callbacks and addresses -/

/-- What is no part of a flow survives an assignment to a flow. -/
theorem setFlow_pcb_proj {α : Type*} (f : IsotpPcb → α)
    (hf : ∀ pcb d fl, f (IsotpPcb.setFlow pcb d fl) = f pcb) (s : Node) (k : FlowId)
    (fl : IsotpFlow) (p : Nat) : f ((s.setFlow k fl).pcb p) = f (s.pcb p) := by
  unfold setFlow
  by_cases hp : p = k.1
  · subst hp
    simp [hf]
  · simp [hp]

@[simp] theorem setFlow_error (s : Node) (k : FlowId) (fl : IsotpFlow) (p : Nat) :
    ((s.setFlow k fl).pcb p).error = (s.pcb p).error :=
  setFlow_pcb_proj IsotpPcb.error (fun _ d _ => by cases d <;> rfl) s k fl p

@[simp] theorem setFlow_sent (s : Node) (k : FlowId) (fl : IsotpFlow) (p : Nat) :
    ((s.setFlow k fl).pcb p).sent = (s.pcb p).sent :=
  setFlow_pcb_proj IsotpPcb.sent (fun _ d _ => by cases d <;> rfl) s k fl p

@[simp] theorem setFlow_receive (s : Node) (k : FlowId) (fl : IsotpFlow) (p : Nat) :
    ((s.setFlow k fl).pcb p).receive = (s.pcb p).receive :=
  setFlow_pcb_proj IsotpPcb.receive (fun _ d _ => by cases d <;> rfl) s k fl p

@[simp] theorem setFlow_callbackArg (s : Node) (k : FlowId) (fl : IsotpFlow) (p : Nat) :
    ((s.setFlow k fl).pcb p).callbackArg = (s.pcb p).callbackArg :=
  setFlow_pcb_proj IsotpPcb.callbackArg (fun _ d _ => by cases d <;> rfl) s k fl p

/-- Taking a buffer off a chain changes flows and heap only. -/
theorem isotpRemoveBuffer_pcb_proj {α : Type*} (f : IsotpPcb → α)
    (hf : ∀ pcb d fl, f (IsotpPcb.setFlow pcb d fl) = f pcb) (s : Node) (k : FlowId)
    (buffer : Option Nat) (p : Nat) : f ((s.isotpRemoveBuffer k buffer).pcb p) = f (s.pcb p) := by
  unfold isotpRemoveBuffer
  split
  · rfl
  · split
    · exact setFlow_pcb_proj f hf s k _ p
    · rfl

@[simp] theorem isotpRemoveBuffer_error (s : Node) (k : FlowId) (buffer : Option Nat) (p : Nat) :
    ((s.isotpRemoveBuffer k buffer).pcb p).error = (s.pcb p).error :=
  isotpRemoveBuffer_pcb_proj IsotpPcb.error (fun _ d _ => by cases d <;> rfl) s k buffer p

@[simp] theorem isotpRemoveBuffer_sent (s : Node) (k : FlowId) (buffer : Option Nat) (p : Nat) :
    ((s.isotpRemoveBuffer k buffer).pcb p).sent = (s.pcb p).sent :=
  isotpRemoveBuffer_pcb_proj IsotpPcb.sent (fun _ d _ => by cases d <;> rfl) s k buffer p

@[simp] theorem isotpRemoveBuffer_callbackArg (s : Node) (k : FlowId) (buffer : Option Nat)
    (p : Nat) : ((s.isotpRemoveBuffer k buffer).pcb p).callbackArg = (s.pcb p).callbackArg :=
  isotpRemoveBuffer_pcb_proj IsotpPcb.callbackArg (fun _ d _ => by cases d <;> rfl) s k buffer p

/-! ### Giving a message up -/

theorem view_callError_self (s : Node) (k : FlowId) (arg : Ptr) (err : Lwcanerr) :
    (s.callError k arg err).view k = (s.view k).emitIf (s.pcb k.1).error (.error k arg err) := by
  unfold callError View.emitIf
  split
  · exact view_emit_self s rfl
  · rfl

theorem view_callError_other (s : Node) (arg : Ptr) (err : Lwcanerr) (h : k' ≠ k) :
    (s.callError k arg err).view k' = s.view k' := by
  unfold callError
  split
  · exact view_emit_other s fun he => h he.symm
  · rfl

/-- **Every error path** has one effect on the flow it works on. -/
theorem view_fail_self (s : Node) (k : FlowId) (arg : Ptr) (err : Lwcanerr) :
    (((s.dropHead k).setState k .idle).callError k arg err).view k =
      (s.view k).fail k (s.pcb k.1).error arg err := by
  rw [view_callError_self, view_setState_self, view_dropHead_self]
  simp [View.fail, setState, dropHead, emit]

theorem view_fail_other (s : Node) (arg : Ptr) (err : Lwcanerr) (h : k' ≠ k) :
    (((s.dropHead k).setState k .idle).callError k arg err).view k' = s.view k' := by
  rw [view_callError_other _ _ _ h, view_setState_other _ _ h, view_dropHead_other _ h]

end Node
end Lwcan
