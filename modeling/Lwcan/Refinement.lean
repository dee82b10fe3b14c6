import Lwcan.FlowSteps

/-!
# Every step is a transition of a flow

The proof that the code does to each flow what `OutputStep` and `InputStep` say: `step_output` and
`step_input`. The functions are taken one by one. Each has two lemmas, what the flow it works on
sees of it and that no other flow sees anything (`_other`).
-/

namespace Lwcan
namespace Node

variable {cfg : Config} {s s' : Node} {k k' : FlowId} {p b : Nat}

/-! ### Timeouts of the handlers by name -/

section Handlers

variable (s : Node) (n p : Nat)

theorem view_armOut :
    (s.lwcanTimeout n .isotpOutFlowOutput (.pcb p)).view (p, .output) =
      (s.view (p, .output)).armOutput s.timeouts.slotFree :=
  view_armOutput s n p .output

theorem view_armIn :
    (s.lwcanTimeout n .isotpInFlowOutput (.pcb p)).view (p, .input) =
      (s.view (p, .input)).armOutput s.timeouts.slotFree :=
  view_armOutput s n p .input

theorem view_armOutError :
    (s.lwcanTimeout n .isotpOutputErrorHandler (.pcb p)).view (p, .output) =
      (s.view (p, .output)).armError s.timeouts.slotFree :=
  view_armError s n p .output

theorem view_armInError :
    (s.lwcanTimeout n .isotpInputErrorHandler (.pcb p)).view (p, .input) =
      (s.view (p, .input)).armError s.timeouts.slotFree :=
  view_armError s n p .input

theorem view_armOutput_other (d : Dir) (h : k' ≠ (p, d)) :
    (s.lwcanTimeout n (outputHandler d) (.pcb p)).view k' = s.view k' := by
  refine view_lwcanTimeout_other s n fun q e he ha => ?_
  cases ha
  rcases he with he | he
  · rw [← outputHandler_inj he]
    exact h
  · exact absurd he (outputHandler_ne_errorHandler _ _)

theorem view_armError_other (d : Dir) (h : k' ≠ (p, d)) :
    (s.lwcanTimeout n (errorHandler d) (.pcb p)).view k' = s.view k' := by
  refine view_lwcanTimeout_other s n fun q e he ha => ?_
  cases ha
  rcases he with he | he
  · exact absurd he.symm (outputHandler_ne_errorHandler _ _)
  · rw [← errorHandler_inj he]
    exact h

theorem view_cancelError_other (d : Dir) (h : k' ≠ (p, d)) :
    (s.lwcanUntimeout (errorHandler d) (.pcb p)).view k' = s.view k' := by
  refine view_lwcanUntimeout_other s fun q e he ha => ?_
  cases ha
  rcases he with he | he
  · exact absurd he.symm (outputHandler_ne_errorHandler _ _)
  · rw [← errorHandler_inj he]
    exact h

/-- A frame of the peer is noted, and what waited for it is cancelled. -/
theorem view_noted (s : Node) (p : Nat) (d : Dir) {o : Obs} (ho : o.flow = (p, d)) :
    ((s.emit o).lwcanUntimeout (errorHandler d) (.pcb p)).view (p, d) =
      { s.view (p, d) with err := (s.view (p, d)).err - 1 }.emit o := by
  rw [view_cancelError, view_emit_self s ho]
  rfl

theorem view_noted_other {d : Dir} {o : Obs} (ho : o.flow = (p, d)) (h : k' ≠ (p, d)) :
    ((s.emit o).lwcanUntimeout (errorHandler d) (.pcb p)).view k' = s.view k' :=
  (view_cancelError_other _ p d h).trans (view_emit_other s (by rw [ho]; exact Ne.symm h))

theorem view_armOut_other (h : k' ≠ (p, .output)) :
    (s.lwcanTimeout n .isotpOutFlowOutput (.pcb p)).view k' = s.view k' :=
  view_armOutput_other s n p .output h

theorem view_armIn_other (h : k' ≠ (p, .input)) :
    (s.lwcanTimeout n .isotpInFlowOutput (.pcb p)).view k' = s.view k' :=
  view_armOutput_other s n p .input h

theorem view_armOutError_other (h : k' ≠ (p, .output)) :
    (s.lwcanTimeout n .isotpOutputErrorHandler (.pcb p)).view k' = s.view k' :=
  view_armError_other s n p .output h

theorem view_armInError_other (h : k' ≠ (p, .input)) :
    (s.lwcanTimeout n .isotpInputErrorHandler (.pcb p)).view k' = s.view k' :=
  view_armError_other s n p .input h

end Handlers

/-! ### Buffers -/

/-- A change of the heap that spares a flow's buffers is not seen by it. -/
theorem view_heap (s : Node) {heap : Heap}
    (h : ∀ b ∈ (s.flow k).buffer, heap.buffer b = s.heap.buffer b) :
    ({ s with heap := heap } : Node).view k = s.view k :=
  view_congr rfl h rfl rfl rfl rfl rfl

/-- A buffer is linked at the head of a chain. -/
theorem view_push (s : Node) {fl : IsotpFlow} (h : fl.buffer = b :: (s.flow k).buffer) :
    (s.setFlow k fl).view k =
      { s.view k with flow := fl, chain := (b, s.heap.buffer b) :: (s.view k).chain } := by
  unfold view
  simp only [flow_setFlow_self, h, List.map_cons]
  rfl

/-- A new buffer is in no chain yet, and no chain sees the allocation. -/
theorem alloc_fresh (hh : HeapOk s) {length : Nat} {g : Grant} {heap : Heap}
    (hg : g.Fresh s.heap.blocks) (hn : s.heap.lwcanBufferNew length g = (some b, heap)) :
    (∀ k, b ∉ (s.flow k).buffer) ∧ (heap.buffer b).length = length ∧ length ≠ 0 ∧
      ∀ b', b' ≠ b → heap.buffer b' = s.heap.buffer b' := by
  obtain ⟨pl, hl, hb, -, -, rfl⟩ := Heap.lwcanBufferNew_some hg hn
  refine ⟨fun k hm => hb (hh.header (mem_owned_of_mem hm)), by simp, hl, fun b' hb' => ?_⟩
  simp [hb']

/-- A copy to the head of a chain changes what is in the head. -/
theorem chain_copyTo (heap : Heap) {bs : List Nat} (hnd : bs.Nodup) (source : Nat → UInt8)
    (n off : Nat) :
    bs.map (fun b => (b, (heap.lwcanBufferCopyToOffset bs.head? source n off).2.buffer b)) =
      (bs.map fun b => (b, heap.buffer b)).modifyHead
        fun x => (x.1, { x.2 with data := Mem.blit x.2.data off source n }) := by
  cases bs with
  | nil => rfl
  | cons b bs =>
    rw [List.nodup_cons] at hnd
    have hu : (heap.lwcanBufferCopyToOffset (some b) source n off).2.buffer =
        Function.update heap.buffer b
          { heap.buffer b with data := Mem.blit (heap.buffer b).data off source n } := by
      simp only [Heap.lwcanBufferCopyToOffset]
      split
      · next hz => rw [hz, Mem.blit_zero, Function.update_eq_self]
      · rfl
    rw [List.head?_cons, hu, List.map_cons, List.map_cons, List.modifyHead_cons,
      Function.update_self]
    congr 1
    refine List.map_congr_left fun x hx => ?_
    have hx' : x ≠ b := fun e => hnd.1 (e ▸ hx)
    rw [Function.update_of_ne hx']

theorem view_storeData_self (hh : HeapOk s) (p : Nat) (source : Nat → UInt8) (n off : Nat) :
    (s.storeData p source n off).view (p, .input) = (s.view (p, .input)).store p source n off := by
  have hnd : (s.flow (p, .input)).buffer.Nodup :=
    (hh.nodup (p, .input)).sublist (List.sublist_append_right _ _)
  unfold View.store
  rw [view_capacity]
  have he := view_emit_self (k := (p, .input)) s
    (o := .store p off n ((s.headBuffer (p, .input)).elim 0 LwcanBuffer.length)) rfl
  have hc := chain_copyTo s.heap hnd source n off
  exact (View.mk.injEq ..).mpr ⟨rfl, hc, rfl, rfl, rfl, rfl, congrArg View.log he⟩

theorem view_storeData_other (hh : HeapOk s) (p : Nat) (source : Nat → UInt8) (n off : Nat)
    (h : k' ≠ (p, .input)) : (s.storeData p source n off).view k' = s.view k' := by
  refine view_congr rfl (fun b hb => ?_) rfl rfl rfl rfl ?_
  · show ((s.heap.lwcanBufferCopyToOffset (s.head (p, .input)) source n off).2).buffer b = _
    unfold Heap.lwcanBufferCopyToOffset
    split
    · rfl
    · next a ha =>
      split
      · rfl
      · refine Function.update_of_ne (fun e => h ?_) _ _
        -- the head of the input flow belongs to no other flow
        have ha' : a ∈ (s.flow (p, .input)).buffer := List.mem_of_head? ha
        exact hh.unique (mem_owned_of_mem hb) (mem_owned_of_mem (e ▸ ha'))
  · exact congrArg View.log (view_emit_other s (Ne.symm h))

/-! ### Sending -/

theorem view_confirms (s : Node) {confirms : List FlowId}
    (h : confirms.count k = s.confirms.count k) : ({ s with confirms } : Node).view k = s.view k :=
  view_congr rfl (fun _ _ => rfl) rfl rfl h rfl rfl

theorem view_canifOutput_ok (s : Node) (k : FlowId) (canif : Nat) (frame : CanFrame)
    (timeout : Nat) :
    (s.canifOutput k canif frame timeout .ok).view k =
      (s.view k).accepted k canif frame timeout := by
  unfold canifOutput View.accepted View.emit
  simp [view, emit, flow, Obs.flow]

theorem view_canifOutput_fail (s : Node) (k : FlowId) (canif : Nat) (frame : CanFrame)
    (timeout : Nat) {ret : Lwcanerr} (hr : ret ≠ .ok) :
    (s.canifOutput k canif frame timeout ret).view k =
      (s.view k).rejected k (s.pcb k.1) canif frame timeout ret := by
  unfold canifOutput View.rejected
  simp only [hr, if_false]
  rw [view_fail_self, view_emit_self (k := k) s rfl]
  rfl

theorem view_canifOutput_other (s : Node) (canif : Nat) (frame : CanFrame) (timeout : Nat)
    (ret : Lwcanerr) (h : k' ≠ k) : (s.canifOutput k canif frame timeout ret).view k' =
    s.view k' := by
  unfold canifOutput
  simp only
  split
  · rw [view_confirms _ (List.count_cons_of_ne (Ne.symm h)), view_emit_other s (Ne.symm h)]
  · rw [view_fail_other _ _ _ h, view_emit_other s (Ne.symm h)]

theorem view_isotpOutFlowOutput_other (s : Node) (frame : CanFrame) (ret : Lwcanerr)
    (h : k' ≠ (p, .output)) :
    (s.isotpOutFlowOutput cfg (.pcb p) frame ret).view k' = s.view k' := by
  unfold isotpOutFlowOutput
  simp only
  split
  · rfl
  · split <;> first | rfl | rw [view_canifOutput_other _ _ _ _ _ h, view_setFlow_other _ _ h]

theorem view_isotpInFlowOutput_other (s : Node) (frame : CanFrame) (ret : Lwcanerr)
    (h : k' ≠ (p, .input)) :
    (s.isotpInFlowOutput cfg (.pcb p) frame ret).view k' = s.view k' := by
  unfold isotpInFlowOutput
  simp only
  split
  · rfl
  · split
    · exact view_canifOutput_other _ _ _ _ _ h
    · rfl

/-- The end of a transfer, the same in `sent_sf` and `sent_cf` -/
theorem view_complete (s : Node) (p : Nat) :
    (s.sentSf p).view (p, .output) =
      (((s.view (p, .output)).removeHead).setState .idle).emitIf (s.pcb p).sent
        (.sent p (s.pcb p).callbackArg (s.view (p, .output)).capacity) := by
  unfold sentSf
  simp only
  rw [← view_capacity]
  have h := view_setState_self (s.isotpRemoveBuffer (p, .output) (s.head (p, .output)))
    (p, .output) .idle
  rw [view_removeHead] at h
  unfold View.emitIf
  simp only [setState, setFlow_sent, isotpRemoveBuffer_sent, setFlow_callbackArg,
    isotpRemoveBuffer_callbackArg]
  split
  · rw [view_emit_self (k := (p, .output)) _ rfl]
    exact congrArg (View.emit · _) h
  · exact h

theorem sentSf_other (s : Node) (h : k' ≠ (p, .output)) : (s.sentSf p).view k' = s.view k' := by
  unfold sentSf
  simp only
  split
  · rw [view_emit_other _ (Ne.symm h), view_setState_other _ _ h,
      view_isotpRemoveBuffer_other _ _ h]
  · rw [view_setState_other _ _ h, view_isotpRemoveBuffer_other _ _ h]

/-- The switch of `isotp_sent` on an output flow -/
theorem switch_output (cfg : Config) (s : Node)
    (hst : Dir.output.uses (s.flow (p, .output)).state) :
    OutputSwitch (s.pcb p) p s.timeouts.slotFree (s.view (p, .output))
      ((s.isotpSentSwitch cfg (p, .output)).view (p, .output)) := by
  unfold isotpSentSwitch
  simp only
  split
  · next h =>
    -- `sent_sf`: the single frame was the message
    rw [view_complete]
    exact .complete (Or.inl h)
  · next h =>
    unfold sentFf
    rw [if_neg (not_not.mpr h), view_armOutError, view_emit_self (k := (p, .output)) _ rfl,
      view_setState_self]
    exact .ff h
  · next h =>
    unfold sentCf
    simp only
    split
    · next hr =>
      -- `sent_cf`: no data is left
      exact (view_complete s p).symm ▸ .complete (Or.inr ⟨h, hr⟩)
    · next hr =>
      split
      · next hb =>
        -- the block goes on
        rw [view_armOut, view_setState_self, view_setFlow_self]
        · exact .cf h hr hb
        · rfl
      · next hb =>
        -- the block is over: a flow control is due
        rw [view_armOutError, view_emit_self (k := (p, .output)) _ rfl, view_setState_self,
          view_setFlow_self]
        · exact .block h hr hb
        · rfl
  · next h => simp [Dir.uses, h] at hst
  · next h₁ h₂ h₃ h₄ =>
    refine .skip ?_
    cases hs : (s.flow (p, .output)).state <;> simp_all [Dir.uses]

theorem switch_output_other (cfg : Config) (s : Node)
    (hst : Dir.output.uses (s.flow (p, .output)).state)
    (h : k' ≠ (p, .output)) : (s.isotpSentSwitch cfg (p, .output)).view k' = s.view k' := by
  unfold isotpSentSwitch
  simp only
  split
  · exact sentSf_other s h
  · unfold sentFf
    split
    · rfl
    · rw [view_armOutError_other _ _ _ h, view_emit_other _ (Ne.symm h), view_setState_other _ _ h]
  · unfold sentCf
    simp only
    split
    · exact sentSf_other s h
    · split
      · rw [view_armOut_other _ _ _ h, view_setState_other _ _ h, view_setFlow_other _ _ h]
      · rw [view_armOutError_other _ _ _ h, view_emit_other _ (Ne.symm h),
          view_setState_other _ _ h, view_setFlow_other _ _ h]
  · next hs => simp [Dir.uses, hs] at hst
  · rfl

/-- The switch of `isotp_sent` on an input flow -/
theorem switch_input (cfg : Config) (s : Node) (hst : Dir.input.uses (s.flow (p, .input)).state) :
    InputSwitch (s.pcb p) p s.timeouts.slotFree (s.view (p, .input))
      ((s.isotpSentSwitch cfg (p, .input)).view (p, .input)) := by
  unfold isotpSentSwitch
  simp only
  split
  · next h => simp [Dir.uses, h] at hst
  · next h => simp [Dir.uses, h] at hst
  · next h => simp [Dir.uses, h] at hst
  · next h =>
    unfold sentFc
    split
    · next hf =>
      rw [view_callError_self, view_setState_self]
      simp only [setState, setFlow_error]
      exact .abort h hf
    · next hf =>
      rw [view_armInError, view_setState_self]
      exact .ready h (not_not.mp hf)
  · next h₁ h₂ h₃ h₄ =>
    refine .skip ?_
    cases hs : (s.flow (p, .input)).state <;> simp_all [Dir.uses]

theorem switch_input_other (cfg : Config) (s : Node)
    (hst : Dir.input.uses (s.flow (p, .input)).state)
    (h : k' ≠ (p, .input)) : (s.isotpSentSwitch cfg (p, .input)).view k' = s.view k' := by
  unfold isotpSentSwitch
  simp only
  split
  · next hs => simp [Dir.uses, hs] at hst
  · next hs => simp [Dir.uses, hs] at hst
  · next hs => simp [Dir.uses, hs] at hst
  · unfold sentFc
    split
    · rw [view_callError_other _ _ _ h, view_setState_other _ _ h]
    · rw [view_armInError_other _ _ _ h, view_setState_other _ _ h]
  · rfl

/-! ### What every event changes first -/

/-- The entry that runs is off the list. -/
theorem view_popOutput {e : Timeout Handler Ptr} {timeouts : Timeouts Handler Ptr} {d : Dir}
    (he : s.timeouts.expire s.now = some (e, timeouts)) (hh : e.handler = outputHandler d)
    (ha : e.arg = .pcb p) :
    0 < (s.view (p, d)).tx ∧
      ({ s with timeouts } : Node).view (p, d) =
        { s.view (p, d) with tx := (s.view (p, d)).tx - 1 } := by
  have h₁ := Timeouts.pending_expire he (outputHandler d) (.pcb p)
  have h₂ := Timeouts.pending_expire he (errorHandler d) (.pcb p)
  simp only [hh, ha, and_self, if_true, outputHandler_ne_errorHandler, false_and, if_false,
    Nat.add_zero] at h₁ h₂
  unfold view
  simp only [h₁, h₂, flow]
  exact ⟨Nat.succ_pos _, rfl⟩

theorem view_popError {e : Timeout Handler Ptr} {timeouts : Timeouts Handler Ptr} {d : Dir}
    (he : s.timeouts.expire s.now = some (e, timeouts)) (hh : e.handler = errorHandler d)
    (ha : e.arg = .pcb p) :
    0 < (s.view (p, d)).err ∧
      ({ s with timeouts } : Node).view (p, d) =
        { s.view (p, d) with err := (s.view (p, d)).err - 1 } := by
  have h₁ := Timeouts.pending_expire he (outputHandler d) (.pcb p)
  have h₂ := Timeouts.pending_expire he (errorHandler d) (.pcb p)
  simp only [hh, ha, and_self, if_true, (outputHandler_ne_errorHandler _ _).symm, false_and,
    if_false, Nat.add_zero] at h₁ h₂
  unfold view
  simp only [h₁, h₂, flow]
  exact ⟨Nat.succ_pos _, rfl⟩

/-- An entry that is not a flow's own may go. -/
theorem view_pop_other {e : Timeout Handler Ptr} {timeouts : Timeouts Handler Ptr}
    (he : s.timeouts.expire s.now = some (e, timeouts))
    (hne : ∀ p d, (e.handler = outputHandler d ∨ e.handler = errorHandler d) → e.arg = .pcb p →
      k ≠ (p, d)) :
    ({ s with timeouts } : Node).view k = s.view k := by
  have h₁ := Timeouts.pending_expire he (outputHandler k.2) (.pcb k.1)
  have h₂ := Timeouts.pending_expire he (errorHandler k.2) (.pcb k.1)
  rw [if_neg fun hh => hne k.1 k.2 (Or.inl hh.1) hh.2 rfl] at h₁
  rw [if_neg fun hh => hne k.1 k.2 (Or.inr hh.1) hh.2 rfl] at h₂
  exact view_congr rfl (fun _ _ => rfl) h₁.symm h₂.symm rfl rfl rfl

theorem view_pop_of_ne {e : Timeout Handler Ptr} {timeouts : Timeouts Handler Ptr} {d : Dir}
    (he : s.timeouts.expire s.now = some (e, timeouts))
    (hh : e.handler = outputHandler d ∨ e.handler = errorHandler d) (ha : e.arg = .pcb p)
    (h : k ≠ (p, d)) : ({ s with timeouts } : Node).view k = s.view k := by
  refine view_pop_other he fun q d' hd ha' => ?_
  rw [ha] at ha'
  cases ha'
  suffices d = d' from this ▸ h
  rcases hh with hh | hh <;> rcases hd with hd | hd <;> rw [hh] at hd
  · exact outputHandler_inj hd
  · exact absurd hd (outputHandler_ne_errorHandler _ _)
  · exact absurd hd.symm (outputHandler_ne_errorHandler _ _)
  · exact errorHandler_inj hd

theorem view_confirm_self (s : Node) (k : FlowId) :
    ({ s with confirms := s.confirms.erase k } : Node).view k =
      { s.view k with confirms := (s.view k).confirms - 1 } := by
  unfold view
  simp only [List.count_erase_self]
  rfl

theorem view_confirm_other (s : Node) (h : k' ≠ k) :
    ({ s with confirms := s.confirms.erase k } : Node).view k' = s.view k' :=
  view_confirms s (List.count_erase_of_ne h)

theorem view_suspend_self (s : Node) {f : Suspended} (hf : f.flow = k) :
    ({ s with suspended := some f } : Node).view k = { s.view k with suspended := some f } := by
  unfold view
  simp [hf, flow]

/-- Suspending or resuming a function of another flow is not seen. -/
theorem view_suspended_other (s : Node) {f : Option Suspended}
    (hs : s.suspended.filter (·.flow = k) = none) (hf : f.filter (·.flow = k) = none) :
    ({ s with suspended := f } : Node).view k = s.view k :=
  view_congr rfl (fun _ _ => rfl) rfl rfl rfl (hf.trans hs.symm) rfl

/-! ### Transitions of a node -/

/-- What a step does to the flows. -/
structure Moves (cfg : Config) (s : Node) (e : Event) (s' : Node) : Prop where
  output : ∀ p, s'.view (p, .output) = s.view (p, .output) ∨
    OutputStep cfg s p (s.view (p, .output)) e (s'.view (p, .output))
  input : ∀ p, s'.view (p, .input) = s.view (p, .input) ∨
    InputStep cfg s p (s.view (p, .input)) e (s'.view (p, .input))

theorem Moves.none {e : Event} (h : ∀ k, s'.view k = s.view k) : Moves cfg s e s' :=
  ⟨fun _ => Or.inl (h _), fun _ => Or.inl (h _)⟩

theorem Moves.only_output {e : Event} (q : Nat)
    (h : OutputStep cfg s q (s.view (q, .output)) e (s'.view (q, .output)))
    (ho : ∀ k', k' ≠ (q, .output) → s'.view k' = s.view k') : Moves cfg s e s' := by
  refine ⟨fun p => ?_, fun p => Or.inl (ho _ (by simp))⟩
  by_cases hp : p = q
  · subst hp
    exact Or.inr h
  · exact Or.inl (ho _ (by simpa using hp))

theorem Moves.only_input {e : Event} (q : Nat)
    (h : InputStep cfg s q (s.view (q, .input)) e (s'.view (q, .input)))
    (ho : ∀ k', k' ≠ (q, .input) → s'.view k' = s.view k') : Moves cfg s e s' := by
  refine ⟨fun p => Or.inl (ho _ (by simp)), fun p => ?_⟩
  by_cases hp : p = q
  · subst hp
    exact Or.inr h
  · exact Or.inl (ho _ (by simpa using hp))

/-! ### The driver confirms -/

/-- An error confirmation, on either flow -/
theorem view_isotpSent_error (cfg : Config) (s : Node) (hn : s.suspended = none) (k : FlowId)
    {err : Lwcanerr} (he : err ≠ .ok) :
    (s.isotpSent cfg k err).view k = (s.view k).refused k (s.pcb k.1) err ∧
      ∀ k', k' ≠ k → (s.isotpSent cfg k err).view k' = s.view k' := by
  have hv : ((s.dropHead k).setState k .idle).view k = ((s.view k).drop k).setState .idle := by
    rw [view_setState_self, view_dropHead_self]
  have ho : ∀ k', k' ≠ k → ((s.dropHead k).setState k .idle).view k' = s.view k' := fun k' h => by
    rw [view_setState_other _ _ h, view_dropHead_other _ h]
  have hp : ((((s.dropHead k).setState k .idle).pcb k.1).error = (s.pcb k.1).error) ∧
      (((s.dropHead k).setState k .idle).pcb k.1).callbackArg = (s.pcb k.1).callbackArg := by
    simp [setState, dropHead, emit]
  have hn' : ((s.dropHead k).setState k .idle).suspended = none := by
    simpa [dropHead, setState] using hn
  have hidle : (((s.dropHead k).setState k .idle).flow k).state = .idle := by
    simp [setState]
  unfold isotpSent View.refused
  simp only [ne_eq, he, not_false_eq_true, if_true, hp.1, hp.2]
  generalize (s.dropHead k).setState k .idle = s₁ at *
  split
  · refine ⟨?_, fun k' h => ?_⟩
    · rw [← hv, ← view_emit_self s₁ (k := k) rfl]
      unfold view
      simp [Suspended.flow, flow]
    · rw [← ho k' h, ← view_emit_other (k := k') s₁ (o := .error k (s.pcb k.1).callbackArg err)
        (Ne.symm h)]
      refine view_suspended_other _ ?_ ?_
      · simp [hn']
      · simp [Suspended.flow, Ne.symm h]
  · -- without an error callback the switch runs at once, on an idle flow
    have hsw : s₁.isotpSentSwitch cfg k = s₁ := by
      unfold isotpSentSwitch
      rw [hidle]
    rw [hsw]
    exact ⟨hv, ho⟩

/-- The driver confirms a frame of flow `k`. -/
theorem moves_sent (hst : ∀ k : FlowId, k.2.uses (s.flow k).state) (hn : s.suspended = none)
    (k : FlowId) (err : Lwcanerr) :
    Moves cfg s (.sent k err)
      (({ s with confirms := s.confirms.erase k } : Node).isotpSent cfg k err) := by
  have hv := view_confirm_self s k
  have ho : ∀ k', k' ≠ k → ({ s with confirms := s.confirms.erase k } : Node).view k' = s.view k' :=
    fun k' h => view_confirm_other s h
  -- an error makes the error callback first, and leaves the switch for when it returns
  by_cases he : err = .ok
  · subst he
    generalize hs₁ : ({ s with confirms := s.confirms.erase k } : Node) = s₁ at hv ho
    have hsw : s₁.isotpSent cfg k .ok = s₁.isotpSentSwitch cfg k := rfl
    have hst₁ : ∀ k : FlowId, k.2.uses (s₁.flow k).state := by rw [← hs₁]; exact hst
    have hpcb : s₁.pcb = s.pcb ∧ s₁.timeouts = s.timeouts := by rw [← hs₁]; exact ⟨rfl, rfl⟩
    rw [hsw]
    obtain ⟨p, d⟩ := k
    cases d with
    | output =>
      refine Moves.only_output p (.confirm hn ?_) fun k' h => ?_
      · have := switch_output cfg s₁ (hst₁ (p, .output))
        rwa [hv, hpcb.1, hpcb.2] at this
      · exact (switch_output_other cfg s₁ (hst₁ (p, .output)) h).trans (ho k' h)
    | input =>
      refine Moves.only_input p (.confirm hn ?_) fun k' h => ?_
      · have := switch_input cfg s₁ (hst₁ (p, .input))
        rwa [hv, hpcb.1, hpcb.2] at this
      · exact (switch_input_other cfg s₁ (hst₁ (p, .input)) h).trans (ho k' h)
  · obtain ⟨h₁, h₂⟩ :=
      view_isotpSent_error cfg { s with confirms := s.confirms.erase k } hn k he
    rw [hv] at h₁
    obtain ⟨p, d⟩ := k
    cases d with
    | output =>
      refine Moves.only_output p ?_ fun k' h => (h₂ k' h).trans (ho k' h)
      rw [h₁]
      exact .refuse hn he
    | input =>
      refine Moves.only_input p ?_ fun k' h => (h₂ k' h).trans (ho k' h)
      rw [h₁]
      exact .refuse hn he

/-! ### A timeout runs -/

/-- A frame that is filled goes to the driver, which takes or refuses it. -/
theorem outputStep_filled {timeouts : Timeouts Handler Ptr} {frame : CanFrame} {ret : Lwcanerr}
    (hfire : s.Fires .isotpOutFlowOutput p) (hpos : 0 < (s.view (p, .output)).tx)
    (hv : ({ s with timeouts } : Node).view (p, .output) =
      { s.view (p, .output) with tx := (s.view (p, .output)).tx - 1 })
    {canif : Nat} (hc : s.canif p = some canif) {filled : IsotpFlow × CanFrame} {timeout : Nat}
    (hfill : isotpFill cfg (s.view (p, .output)).headBuffer (s.flow (p, .output))
      (s.address cfg p frame) = some (filled, timeout))
    (hb : filled.1.buffer = (s.flow (p, .output)).buffer) :
    OutputStep cfg s p (s.view (p, .output)) (.timer frame ret)
      (((({ s with timeouts } : Node).setFlow (p, .output) filled.1).canifOutput (p, .output)
        canif filled.2 timeout ret).view (p, .output)) := by
  -- the fill functions change the flow and leave its list alone
  have hv' := (view_setFlow_self ({ s with timeouts } : Node) (k := (p, .output)) hb).trans
    (congrArg (View.setFlow · filled.1) hv)
  by_cases hr : ret = .ok
  · subst hr
    rw [view_canifOutput_ok, hv']
    exact .output hfire hc hpos hfill
  · rw [view_canifOutput_fail _ _ _ _ _ hr, hv']
    have hreg : ((({ s with timeouts } : Node).setFlow (p, .output) filled.1).pcb p).error =
        (s.pcb p).error ∧ ((({ s with timeouts } : Node).setFlow (p, .output) filled.1).pcb
          p).callbackArg = (s.pcb p).callbackArg := by simp
    unfold View.rejected
    rw [hreg.1, hreg.2]
    exact .reject hfire hc hpos hfill hr

theorem moves_outFlowOutput (hst : ∀ k : FlowId, k.2.uses (s.flow k).state)
    {e : Timeout Handler Ptr} {timeouts : Timeouts Handler Ptr}
    (he : s.timeouts.expire s.now = some (e, timeouts)) (hh : e.handler = .isotpOutFlowOutput)
    (ha : e.arg = .pcb p) (frame : CanFrame) (ret : Lwcanerr) :
    Moves cfg s (.timer frame ret)
      (({ s with timeouts } : Node).isotpOutFlowOutput cfg (.pcb p) frame ret) := by
  obtain ⟨hpos, hv⟩ := view_popOutput (d := .output) he hh ha
  have hfire : s.Fires .isotpOutFlowOutput p := ⟨e, timeouts, he, hh, ha⟩
  have hfl : ({ s with timeouts } : Node).flow (p, .output) = s.flow (p, .output) := rfl
  have hbuf : ({ s with timeouts } : Node).headBuffer (p, .output) =
      (s.view (p, .output)).headBuffer := (view_headBuffer s (p, .output)).symm
  refine Moves.only_output p ?_ fun k' h => ?_
  · unfold isotpOutFlowOutput
    simp only
    have hcan : ({ s with timeouts } : Node).canifs.canifGetByIndex
        (({ s with timeouts } : Node).pcb p).ifIndex = s.canif p := rfl
    rw [hcan]
    cases hc : s.canif p with
    | none =>
      rw [hv]
      exact .skip hfire (Or.inl hc) hpos
    | some canif =>
      simp only
      split
      · next h =>
        exact outputStep_filled hfire hpos hv hc
          (by rw [isotpFill, ← hbuf, ← hfl, h]; rfl) rfl
      · next h =>
        exact outputStep_filled hfire hpos hv hc
          (by rw [isotpFill, ← hbuf, ← hfl, h]; rfl) rfl
      · next h =>
        exact outputStep_filled hfire hpos hv hc
          (by rw [isotpFill, ← hbuf, ← hfl, h]; rfl) (Kept.fill_buffer _ _ _ _).2.2
      · next h₁ h₂ h₃ =>
        -- no frame is due in any other state
        rw [hv]
        refine .skip hfire (Or.inr ?_) hpos
        have hu := hst (p, .output)
        rw [view_flow]
        cases hs : (s.flow (p, .output)).state <;> simp_all [Dir.uses]
  · exact (view_isotpOutFlowOutput_other _ frame ret h).trans
      (view_pop_of_ne (d := .output) he (Or.inl hh) ha h)

theorem moves_inFlowOutput (hst : ∀ k : FlowId, k.2.uses (s.flow k).state)
    {e : Timeout Handler Ptr} {timeouts : Timeouts Handler Ptr}
    (he : s.timeouts.expire s.now = some (e, timeouts)) (hh : e.handler = .isotpInFlowOutput)
    (ha : e.arg = .pcb p) (frame : CanFrame) (ret : Lwcanerr) :
    Moves cfg s (.timer frame ret)
      (({ s with timeouts } : Node).isotpInFlowOutput cfg (.pcb p) frame ret) := by
  obtain ⟨hpos, hv⟩ := view_popOutput (d := .input) he hh ha
  have hfire : s.Fires .isotpInFlowOutput p := ⟨e, timeouts, he, hh, ha⟩
  refine Moves.only_input p ?_ fun k' h => ?_
  · unfold isotpInFlowOutput
    simp only
    have hcan : ({ s with timeouts } : Node).canifs.canifGetByIndex
        (({ s with timeouts } : Node).pcb p).ifIndex = s.canif p := rfl
    rw [hcan]
    cases hc : s.canif p with
    | none =>
      rw [hv]
      exact .skip hfire (Or.inl hc) hpos
    | some canif =>
      simp only
      split
      · next h =>
        by_cases hr : ret = .ok
        · subst hr
          rw [view_canifOutput_ok, hv]
          exact .output hfire hc h hpos
        · rw [view_canifOutput_fail _ _ _ _ _ hr, hv]
          exact .reject hfire hc h hpos hr
      · next h =>
        -- the input flow sends flow control frames and no others
        rw [hv]
        refine .skip hfire (Or.inr ?_) hpos
        have hu := hst (p, .input)
        have h' : (s.flow (p, .input)).state ≠ .txFc := h
        rw [view_flow]
        cases hs : (s.flow (p, .input)).state <;> simp_all [Dir.uses]
  · exact (view_isotpInFlowOutput_other _ frame ret h).trans
      (view_pop_of_ne (d := .input) he (Or.inl hh) ha h)

theorem moves_outputErrorHandler {e : Timeout Handler Ptr} {timeouts : Timeouts Handler Ptr}
    (he : s.timeouts.expire s.now = some (e, timeouts)) (hh : e.handler = .isotpOutputErrorHandler)
    (ha : e.arg = .pcb p) (frame : CanFrame) (ret : Lwcanerr) :
    Moves cfg s (.timer frame ret)
      (({ s with timeouts } : Node).isotpOutputErrorHandler (.pcb p)) := by
  obtain ⟨hpos, hv⟩ := view_popError (d := .output) he hh ha
  unfold isotpOutputErrorHandler
  refine Moves.only_output p ?_ fun k' h => ?_
  · rw [view_fail_self, hv]
    exact .expire ⟨e, timeouts, he, hh, ha⟩ hpos
  · exact (view_fail_other _ _ _ h).trans (view_pop_of_ne (d := .output) he (Or.inr hh) ha h)

theorem moves_inputErrorHandler {e : Timeout Handler Ptr} {timeouts : Timeouts Handler Ptr}
    (he : s.timeouts.expire s.now = some (e, timeouts)) (hh : e.handler = .isotpInputErrorHandler)
    (ha : e.arg = .pcb p) (frame : CanFrame) (ret : Lwcanerr) :
    Moves cfg s (.timer frame ret)
      (({ s with timeouts } : Node).isotpInputErrorHandler (.pcb p)) := by
  obtain ⟨hpos, hv⟩ := view_popError (d := .input) he hh ha
  unfold isotpInputErrorHandler
  refine Moves.only_input p ?_ fun k' h => ?_
  · rw [view_fail_self, hv]
    exact .expire ⟨e, timeouts, he, hh, ha⟩ hpos
  · exact (view_fail_other _ _ _ h).trans (view_pop_of_ne (d := .input) he (Or.inr hh) ha h)

/-! ### Receiving -/

theorem view_storeSf (cfg : Config) (hh : HeapOk s) (p : Nat) (data : Nat → UInt8) :
    (s.storeSfData cfg p data).view (p, .input) = (s.view (p, .input)).storeSf cfg p data :=
  view_storeData_self hh p _ _ _

theorem view_storeFf (cfg : Config) (hh : HeapOk s) (p : Nat) (data : Nat → UInt8) (length : Nat) :
    (s.storeFfData cfg p data length).view (p, .input) =
      (s.view (p, .input)).storeFf cfg p data length := by
  unfold storeFfData View.storeFf View.ffOffset
  simp only
  rw [view_setFlow_self]
  · rw [view_storeData_self hh, u32_sub_u32]
    rfl
  · rfl

theorem view_storeCf (hh : HeapOk s) (p : Nat) (data : Nat → UInt8) (length : Nat) :
    (s.storeCfData p data length).view (p, .input) =
      (s.view (p, .input)).storeCf p data length := by
  have hcap := view_capacity s (p, .input)
  unfold storeCfData View.storeCf
  simp only
  rw [hcap]
  split
  · next hc =>
    have hn : View.cfCount (s.view (p, .input)).flow.remainingData length =
      (s.flow (p, .input)).remainingData := if_pos hc
    rw [view_setFlow_self]
    · rw [view_storeData_self hh, hn]
      rfl
    · rfl
  · next hc =>
    have hn : View.cfCount (s.view (p, .input)).flow.remainingData length =
      u32 ((length : Int) - cfDataOffset) := if_neg hc
    rw [view_setFlow_self]
    · rw [view_storeData_self hh, hn, u32_sub_u32]
      rfl
    · rfl

section Others

variable (hh : HeapOk s) (h : k' ≠ (p, .input))

include hh h

theorem view_storeSf_other (data : Nat → UInt8) :
    (s.storeSfData cfg p data).view k' = s.view k' :=
  view_storeData_other hh p _ _ _ h

theorem view_storeFf_other (data : Nat → UInt8) (length : Nat) :
    (s.storeFfData cfg p data length).view k' = s.view k' := by
  unfold storeFfData
  simp only
  rw [view_setFlow_other _ _ h, view_storeData_other hh p _ _ _ h]

theorem view_storeCf_other (data : Nat → UInt8) (length : Nat) :
    (s.storeCfData p data length).view k' = s.view k' := by
  unfold storeCfData
  simp only
  split <;> rw [view_setFlow_other _ _ h, view_storeData_other hh p _ _ _ h]

end Others

theorem view_deliver (s : Node) (p : Nat) :
    (s.deliver p).view (p, .input) = (s.view (p, .input)).deliver (s.pcb p) p := by
  unfold deliver View.deliver isotpReceived
  simp only
  have hh : s.head (p, .input) = (s.flow (p, .input)).buffer.head? := rfl
  cases hb : (s.flow (p, .input)).buffer with
  | nil =>
    have hc : (s.view (p, .input)).chain = [] := by simp [view, hb]
    rw [hh, hb, hc]
    simp
  | cons b bs =>
    have hc : (s.view (p, .input)).chain =
        (b, s.heap.buffer b) :: bs.map fun b => (b, s.heap.buffer b) := by simp [view, hb]
    rw [hh, hb, hc]
    simp only [List.head?_cons]
    -- a callback leaves the buffer in the list; without one the head is removed
    split
    · exact view_emit_self s rfl
    · have h := view_removeHead (s.emit (.released p b)) (p, .input)
      rw [view_emit_self (k := (p, .input)) s rfl] at h
      have hb' : (s.emit (.released p b)).head (p, .input) = some b := by
        show (s.flow (p, .input)).buffer.head? = some b
        rw [hb]
        rfl
      rwa [hb'] at h

theorem view_deliver_other (s : Node) (h : k' ≠ (p, .input)) :
    (s.deliver p).view k' = s.view k' := by
  unfold deliver isotpReceived
  simp only
  split
  · split
    · exact view_emit_other s (Ne.symm h)
    · rfl
  · split
    · next q b hq _ =>
      cases hq
      exact (view_isotpRemoveBuffer_other _ _ h).trans (view_emit_other s (Ne.symm h))
    · rfl

/-- A received frame opens a message: buffer `b` is linked at the head of the input flow. -/
def link (s : Node) (p b length : Nat) : Node :=
  s.setFlow (p, .input) { s.flow (p, .input) with
    buffer := b :: (s.flow (p, .input)).buffer, remainingData := length }

theorem view_link (s : Node) {p b length : Nat} (hl : (s.heap.buffer b).length = length) :
    (s.link p b length).view (p, .input) =
      (s.view (p, .input)).push b (s.heap.buffer b) (s.heap.buffer b).length := by
  unfold link
  rw [view_push, hl]
  · rfl
  · rfl

theorem view_link_other (s : Node) {p b length : Nat} (h : k' ≠ (p, .input)) :
    (s.link p b length).view k' = s.view k' :=
  view_setFlow_other s _ h

/-- What an allocation for an input flow gives. -/
theorem link_alloc (hh : HeapOk s) (hn : s.suspended = none) {length : Nat} {g : Grant}
    {heap : Heap} (p : Nat) (hg : g.Fresh s.heap.blocks)
    (hnew : s.heap.lwcanBufferNew length g = (some b, heap)) :
    HeapOk (({ s with heap } : Node).link p b length) ∧ b ∉ (s.flow (p, .input)).buffer ∧
      (heap.buffer b).length = length ∧ length ≠ 0 ∧
      ∀ k, ({ s with heap } : Node).view k = s.view k := by
  obtain ⟨hb, hl, hl0, hold⟩ := alloc_fresh hh hg hnew
  refine ⟨(hh.kept.push hg hnew (by rw [hn]; rfl) rfl (HeapOk.SameShape.refl _) rfl).holds, hb _,
    hl, hl0, fun k => view_heap s fun b' hb' => hold b' fun e => hb k (e ▸ hb')⟩

/-- An allocation that fails was not granted. -/
theorem not_granted {length : Nat} {g : Grant} {heap : Heap}
    (hn : s.heap.lwcanBufferNew length g = (none, heap)) : ¬ (length ≠ 0 ∧ g.granted) := by
  intro hg
  have := (Heap.lwcanBufferNew_isSome s.heap _ g).mpr hg
  rw [hn] at this
  cases this

theorem moves_receivedSf (hh : HeapOk s) (hn : s.suspended = none) {canif : Nat} {frame : CanFrame}
    {g : Grant} (hg : g.Fresh s.heap.blocks) (hp : s.findPcb canif frame = some p)
    (ht : frame.data 0 &&& frameTypeMask = sfType) :
    Moves cfg s (.input canif frame g) (s.receivedSf cfg p frame g) := by
  unfold receivedSf
  simp only
  split
  · exact .none fun _ => rfl
  · next hs =>
    rw [not_not] at hs
    split
    · next heap hnew =>
      -- no memory: the error callback, and nothing is taken
      rw [Heap.lwcanBufferNew_none hg hnew]
      refine Moves.only_input p ?_ fun k' h => view_callError_other _ _ _ h
      rw [view_callError_self]
      exact .sfMemory hp ht hs fun hg' => not_granted hnew hg'
    · next b heap hnew =>
      obtain ⟨hh₁, hb, hl, hl0, hview⟩ := link_alloc hh hn p hg hnew
      have hv := view_link { s with heap } (p := p) hl
      rw [hview] at hv
      -- the delivery reads the callback registered before the frame came
      have hreg :
          ((({ s with heap } : Node).link p b (isotpGetSfDl cfg frame.data)).pcb p).receive =
          (s.pcb p).receive ∧ ((({ s with heap } : Node).link p b
            (isotpGetSfDl cfg frame.data)).pcb p).callbackArg = (s.pcb p).callbackArg := by
        simp [link]
      have hh₂ := hh₁.emit (.opened p b frame.wire)
      have hfin := (view_deliver _ p).trans
        (congrArg (View.deliver · _ p) (view_storeSf cfg hh₂ p frame.data))
      rw [view_emit_self (k := (p, .input)) _ rfl, hv] at hfin
      refine Moves.only_input p ((congrArg (InputStep cfg s p _ _) hfin).mpr ?_) fun k' h => ?_
      · have hd := View.deliver_congr (((((s.view (p, .input)).push b (heap.buffer b)
          (heap.buffer b).length).emit (.opened p b frame.wire)).storeSf cfg p frame.data))
            (s.pcb p)
          (p := p) hreg.1 hreg.2
        exact (congrArg (InputStep cfg s p _ _) hd).mpr (.sf hp ht hs hb hl (hl.symm ▸ hl0))
      · exact ((view_deliver_other _ h).trans (view_storeSf_other hh₂ h _)).trans
          ((view_emit_other _ (Ne.symm h)).trans ((view_link_other _ h).trans (hview _)))

theorem view_receivedFfOutput (cfg : Config) (s : Node) (p : Nat) :
    (s.receivedFfOutput cfg p).view (p, .input) =
      (s.view (p, .input)).ffOutput cfg s.timeouts.slotFree := by
  unfold receivedFfOutput View.ffOutput
  rw [view_armIn, view_setFlow_self]
  · rfl
  · rfl

theorem view_receivedFfOutput_other (s : Node) (h : k' ≠ (p, .input)) :
    (s.receivedFfOutput cfg p).view k' = s.view k' := by
  unfold receivedFfOutput
  rw [view_armIn_other _ _ _ h, view_setFlow_other _ _ h]

theorem view_receivedFfStore (cfg : Config) {length : Nat} (hh : HeapOk (s.link p b length))
    (frame : CanFrame) (hl : (s.heap.buffer b).length = length) :
    (s.receivedFfStore cfg p frame b length).view (p, .input) =
      (s.view (p, .input)).ffStore cfg p frame b (s.heap.buffer b) s.timeouts.slotFree := by
  have hh₂ := hh.emit (.opened p b frame.wire)
  have hst := view_storeFf cfg hh₂ p frame.data frame.len
  rw [view_emit_self (k := (p, .input)) _ rfl, view_link s hl] at hst
  unfold View.ffStore
  simp only
  rw [← hst]
  refine (view_receivedFfOutput _ _ p).trans ?_
  rw [view_setFlow_self]
  · rfl
  · rfl

theorem view_receivedFfStore_other {length : Nat} (hh : HeapOk (s.link p b length))
    (frame : CanFrame) (h : k' ≠ (p, .input)) :
    (s.receivedFfStore cfg p frame b length).view k' = s.view k' := by
  have hh₂ := hh.emit (.opened p b frame.wire)
  unfold receivedFfStore
  simp only
  refine ((view_receivedFfOutput_other _ h).trans (view_setFlow_other _ _ h)).trans ?_
  exact (view_storeFf_other hh₂ h _ _).trans ((view_emit_other _ (Ne.symm h)).trans
    (view_link_other s h))

/-- A callback is called, and the function that called it waits: other flows see nothing of it. -/
theorem view_calls_other (hn : s.suspended = none) {s₁ : Node} {o : Obs} {f : Suspended}
    (ho : o.flow = k) (hf : f.flow = k) (h : k' ≠ k) (hv : s₁.view k' = s.view k')
    (hs : s₁.suspended = s.suspended) :
    ({ s₁.emit o with suspended := some f } : Node).view k' = s.view k' := by
  refine Eq.trans (view_suspended_other _ ?_ ?_) ((view_emit_other _ ?_).trans hv)
  · simp [emit, hs, hn]
  · simp [hf, Ne.symm h]
  · rw [ho]
    exact Ne.symm h

theorem moves_receivedFf (hh : HeapOk s) (hn : s.suspended = none) {canif : Nat} {frame : CanFrame}
    {g : Grant} (hg : g.Fresh s.heap.blocks) (hp : s.findPcb canif frame = some p)
    (ht : frame.data 0 &&& frameTypeMask = ffType) :
    Moves cfg s (.input canif frame g) (s.receivedFf cfg p frame g) := by
  unfold receivedFf
  simp only
  split
  -- a flow that is not idle passes the frame over
  · exact .none fun _ => rfl
  · next hs =>
    rw [not_not] at hs
    split
    · next heap hnew =>
      -- there is no memory: the flow control will say so
      rw [Heap.lwcanBufferNew_none hg hnew]
      have hv : (s.setFlow (p, .input) { s.flow (p, .input) with fs := fsOverflow }).view
        (p, .input) = (s.view (p, .input)).setFlow { s.flow (p, .input) with fs := fsOverflow } :=
        view_setFlow_self s rfl
      have ho : ∀ k', k' ≠ (p, .input) →
          (s.setFlow (p, .input) { s.flow (p, .input) with fs := fsOverflow }).view k' =
          s.view k' :=
        fun k' h => view_setFlow_other s _ h
      have herr :
          ((s.setFlow (p, .input) { s.flow (p, .input) with fs := fsOverflow }).pcb p).error =
          (s.pcb p).error := setFlow_error ..
      have harg : ((s.setFlow (p, .input) { s.flow (p, .input) with
          fs := fsOverflow }).pcb p).callbackArg = (s.pcb p).callbackArg := setFlow_callbackArg ..
      split
      · -- the error callback runs before the flow control is prepared
        refine Moves.only_input p ?_ fun k' h => ?_
        · rw [view_suspend_self (k := (p, .input)) _ rfl, view_emit_self (k := (p, .input)) _ rfl]
          refine (congrArg (fun v => InputStep cfg s p _ _
            { View.emit v _ with suspended := some (.receivedFfOutput p) }) hv).mpr ?_
          rw [harg]
          exact .ffMemoryCallback hp ht hs fun hg' => not_granted hnew hg'
        · exact view_calls_other hn rfl rfl h (ho k' h) rfl
      · next he =>
        have hfin := view_receivedFfOutput cfg
          (s.setFlow (p, .input) { s.flow (p, .input) with fs := fsOverflow }) p
        rw [hv] at hfin
        refine Moves.only_input p ((congrArg (InputStep cfg s p _ _) hfin).mpr ?_) fun k' h =>
          (view_receivedFfOutput_other _ h).trans (ho k' h)
        exact .ffMemory hp ht hs (fun hg' => not_granted hnew hg') (by rw [← herr]; simpa using he)
    · next b heap hnew =>
      -- the message has a buffer, which no flow shows before it is linked
      obtain ⟨hh₁, hb, hl, hl0, hview⟩ := link_alloc hh hn p hg hnew
      have hgr := ((Heap.lwcanBufferNew_isSome s.heap (isotpGetFfDl cfg frame.data) g).mp
        (by rw [hnew]; rfl)).2
      split
      · refine Moves.only_input p ?_ fun k' h => ?_
        · rw [view_suspend_self (k := (p, .input)) _ rfl, view_emit_self (k := (p, .input)) _ rfl,
            hview]
          exact .ffCallback hp ht hs hl0 hgr
        · exact view_calls_other hn rfl rfl h (hview k') rfl
      · next hr =>
        have hfin := view_receivedFfStore cfg hh₁ frame hl
        rw [hview] at hfin
        refine Moves.only_input p ((congrArg (InputStep cfg s p _ _) hfin).mpr ?_) fun k' h =>
          (view_receivedFfStore_other hh₁ frame h).trans (hview _)
        exact .ff hp ht hs hb hl (hl.symm ▸ hl0) hgr (by simpa using hr)

@[simp] theorem isotpRemoveBuffer_timeouts (s : Node) (k : FlowId) (buffer : Option Nat) :
    (s.isotpRemoveBuffer k buffer).timeouts = s.timeouts := by
  unfold isotpRemoveBuffer
  split
  · rfl
  · split <;> rfl

theorem storeCfData_parts (s : Node) (p : Nat) (data : Nat → UInt8) (length : Nat) :
    (s.storeCfData p data length).timeouts = s.timeouts ∧
      ((s.storeCfData p data length).pcb p).receive = (s.pcb p).receive ∧
        ((s.storeCfData p data length).pcb p).callbackArg = (s.pcb p).callbackArg := by
  unfold storeCfData
  simp only
  split
  · exact ⟨rfl, setFlow_receive .., setFlow_callbackArg ..⟩
  · exact ⟨rfl, setFlow_receive .., setFlow_callbackArg ..⟩

/-- A consecutive frame out of sequence: the message is given up, and an overflow is due. -/
theorem moves_cfWrong {s₁ : Node} {canif : Nat} {frame : CanFrame} {g : Grant}
    (hp : s.findPcb canif frame = some p) (ht : frame.data 0 &&& frameTypeMask = cfType)
    (hs : (s.flow (p, .input)).state = .waitCf)
    (hsn : (s.flow (p, .input)).cfSn ≠ (frame.data 0 &&& 0x0F).toNat)
    (hv : s₁.view (p, .input) = { s.view (p, .input) with err := (s.view (p, .input)).err - 1 }.emit
      (.consecutive p frame.wire))
    (ho : ∀ k', k' ≠ (p, .input) → s₁.view k' = s.view k')
    (hslot : s₁.timeouts.slotFree = s.slotAfterCancel (p, .input)) :
    Moves cfg s (.input canif frame g)
      (((s₁.dropHead (p, .input)).setFlow (p, .input)
        { (s₁.dropHead (p, .input)).flow (p, .input) with
          fs := fsOverflow }).receivedCfOutput p) := by
  unfold receivedCfOutput
  refine Moves.only_input p ?_ fun k' h => ?_
  · rw [view_armIn, view_setState_self, view_setFlow_self]
    · have hd := view_dropHead_self s₁ (p, .input)
      rw [hv] at hd
      have hslot' : (s₁.dropHead (p, .input)).timeouts.slotFree = s.slotAfterCancel
          (p, .input) := by
        rw [← hslot]
        simp [dropHead, emit]
      have hf : (s₁.dropHead (p, .input)).flow (p, .input) =
          ((s₁.dropHead (p, .input)).view (p, .input)).flow := rfl
      rw [hf, hd]
      -- the timer chunk is the one that the cancelled entry gave back
      refine (congrArg (fun c => InputStep cfg s p _ _ (View.armOutput _ c)) hslot').mpr ?_
      exact .cfWrong hp ht hs hsn
    · rfl
  · rw [view_armIn_other _ _ _ h, view_setState_other _ _ h, view_setFlow_other _ _ h,
      view_dropHead_other _ h, ho k' h]

section ConsecutiveFrame

-- `s₂` is the node when the bytes of a frame in sequence are stored, `w` its flow
variable {s₂ : Node} {w : View} {canif : Nat} {frame : CanFrame} {g : Grant}
  (hp : s.findPcb canif frame = some p) (ht : frame.data 0 &&& frameTypeMask = cfType)
  (hs : (s.flow (p, .input)).state = .waitCf)
  (hsn : (s.flow (p, .input)).cfSn = (frame.data 0 &&& 0x0F).toNat)
  (hw : w = ({ s.view (p, .input) with err := (s.view (p, .input)).err - 1 }.emit
    (.consecutive p frame.wire)).storeCf p frame.data frame.len)
  (hv : s₂.view (p, .input) = w) (ho : ∀ k', k' ≠ (p, .input) → s₂.view k' = s.view k')

include hp ht hs hsn hw hv ho

/-- The message is whole. -/
theorem moves_cfLast (hr : (s₂.flow (p, .input)).remainingData = 0)
    (hrec : (s₂.pcb p).receive = (s.pcb p).receive)
    (harg : (s₂.pcb p).callbackArg = (s.pcb p).callbackArg) :
    Moves cfg s (.input canif frame g) ((s₂.setState (p, .input) .idle).deliver p) := by
  have hf : s₂.flow (p, .input) = w.flow := congrArg View.flow hv
  rw [hf] at hr
  refine Moves.only_input p ?_ fun k' h => ?_
  · rw [view_deliver, view_setState_self, hv, View.deliver_congr _ (s.pcb p)
      (by simp [setState, hrec]) (by simp [setState, harg])]
    exact .cfLast hp ht hs hsn hw hr
  · rw [view_deliver_other _ h, view_setState_other _ _ h, ho k' h]

variable (hr : (s₂.flow (p, .input)).remainingData ≠ 0)
  (hslot : s₂.timeouts.slotFree = s.slotAfterCancel (p, .input))

include hr hslot

/-- The next frame of the block is awaited. -/
theorem moves_cfNext (hb : blockOpen (s₂.flow (p, .input)).bs (s₂.flow (p, .input)).cfSn) :
    Moves cfg s (.input canif frame g)
      (((s₂.setFlow (p, .input) { s₂.flow (p, .input) with
        cfSn := nextSn (s₂.flow (p, .input)).cfSn }).setState (p, .input) .waitCf).lwcanTimeout
          cfg.nCr .isotpInputErrorHandler (.pcb p)) := by
  have hf : s₂.flow (p, .input) = w.flow := congrArg View.flow hv
  have hsame : w.flow.cfSn = (s.flow (p, .input)).cfSn ∧ w.flow.bs = (s.flow (p, .input)).bs := by
    rw [hw]
    exact ⟨rfl, rfl⟩
  rw [hf] at hr
  rw [hf, hsame.1, hsame.2] at hb
  refine Moves.only_input p ?_ fun k' h => ?_
  · rw [view_armInError, view_setState_self, view_setFlow_self]
    · rw [hv, hf, hsame.1]
      refine (congrArg (fun c => InputStep cfg s p _ _ (View.armError _ c)) hslot).mpr ?_
      exact (InputStep.cf hp ht hs hsn hw hr hb :)
    · rfl
  · rw [view_armInError_other _ _ _ h, view_setState_other _ _ h, view_setFlow_other _ _ h,
      ho k' h]

/-- The block is complete, and flow control is due. -/
theorem moves_cfBlock (hb : ¬ blockOpen (s₂.flow (p, .input)).bs (s₂.flow (p, .input)).cfSn) :
    Moves cfg s (.input canif frame g)
      (((s₂.setFlow (p, .input) { s₂.flow (p, .input) with
        cfSn := nextSn (s₂.flow (p, .input)).cfSn }).setFlow (p, .input)
          { (s₂.setFlow (p, .input) { s₂.flow (p, .input) with
            cfSn := nextSn (s₂.flow (p, .input)).cfSn }).flow (p, .input) with
              fs := fsReady }).receivedCfOutput p) := by
  have hf : s₂.flow (p, .input) = w.flow := congrArg View.flow hv
  -- storing changes neither the number nor the block size
  have hsame : w.flow.cfSn = (s.flow (p, .input)).cfSn ∧ w.flow.bs = (s.flow (p, .input)).bs := by
    rw [hw]
    exact ⟨rfl, rfl⟩
  rw [hf] at hr
  rw [hf, hsame.1, hsame.2] at hb
  unfold receivedCfOutput
  refine Moves.only_input p ?_ fun k' h => ?_
  · rw [view_armIn, view_setState_self, view_setFlow_self]
    · rw [view_setFlow_self]
      · rw [flow_setFlow_self, hv, hf, hsame.1]
        refine (congrArg (fun c => InputStep cfg s p _ _ (View.armOutput _ c)) hslot).mpr ?_
        exact (InputStep.block hp ht hs hsn hw hr hb :)
      · rfl
    · rfl
  · rw [view_armIn_other _ _ _ h, view_setState_other _ _ h, view_setFlow_other _ _ h,
      view_setFlow_other _ _ h, ho k' h]

end ConsecutiveFrame

theorem moves_receivedCf (hh : HeapOk s) {canif : Nat} {frame : CanFrame} {g : Grant}
    (hp : s.findPcb canif frame = some p) (ht : frame.data 0 &&& frameTypeMask = cfType) :
    Moves cfg s (.input canif frame g) (s.receivedCf cfg p frame) := by
  unfold receivedCf
  simp only
  split
  -- a flow that waits for no consecutive frame passes it over
  · exact .none fun _ => rfl
  · next hs =>
    rw [not_not] at hs
    have hv₁ := view_noted s p .input (o := .consecutive p frame.wire) rfl
    have ho₁ := fun k' (h : k' ≠ (p, Dir.input)) =>
      view_noted_other s p (o := .consecutive p frame.wire) rfl h
    have hh₁ : HeapOk ((s.emit (.consecutive p frame.wire)).lwcanUntimeout .isotpInputErrorHandler
        (.pcb p)) := (hh.emit _).lwcanUntimeout _ _
    have hslot₁ : ((s.emit (.consecutive p frame.wire)).lwcanUntimeout .isotpInputErrorHandler
        (.pcb p)).timeouts.slotFree = s.slotAfterCancel (p, .input) := rfl
    have hfl : ((s.emit (.consecutive p frame.wire)).lwcanUntimeout .isotpInputErrorHandler
        (.pcb p)).flow (p, .input) = s.flow (p, .input) := rfl
    have hreg : ((((s.emit (.consecutive p frame.wire)).lwcanUntimeout .isotpInputErrorHandler
        (.pcb p)).pcb p).receive = (s.pcb p).receive) ∧
        (((s.emit (.consecutive p frame.wire)).lwcanUntimeout .isotpInputErrorHandler
          (.pcb p)).pcb p).callbackArg = (s.pcb p).callbackArg := ⟨rfl, rfl⟩
    simp only [errorHandler] at hv₁ ho₁
    -- `s₁` is the node when the frame is noted and the error timeout cancelled
    generalize (s.emit (.consecutive p frame.wire)).lwcanUntimeout .isotpInputErrorHandler
      (.pcb p) = s₁ at *
    split
    · next hsn =>
      -- the sequence number is wrong
      rw [hfl] at hsn
      exact moves_cfWrong hp ht hs hsn hv₁ ho₁ hslot₁
    · next hsn =>
      rw [hfl, not_not] at hsn
      -- the frame is stored; then the message is complete, or the block, or neither
      have hv₂ := view_storeCf hh₁ p frame.data frame.len
      rw [hv₁] at hv₂
      have ho₂ : ∀ k', k' ≠ (p, .input) →
          (s₁.storeCfData p frame.data frame.len).view k' = s.view k' := fun k' h =>
        (view_storeCf_other hh₁ h _ _).trans (ho₁ k' h)
      obtain ⟨htm, hrec, harg⟩ := storeCfData_parts s₁ p frame.data frame.len
      have hslot₂ : (s₁.storeCfData p frame.data frame.len).timeouts.slotFree =
          s.slotAfterCancel (p, .input) := by rw [htm, hslot₁]
      rw [hreg.1] at hrec
      rw [hreg.2] at harg
      split
      · next hr => exact moves_cfLast hp ht hs hsn rfl hv₂ ho₂ hr hrec harg
      · next hr =>
        split
        · next hb => exact moves_cfNext hp ht hs hsn rfl hv₂ ho₂ hr hslot₂ hb
        · next hb => exact moves_cfBlock hp ht hs hsn rfl hv₂ ho₂ hr hslot₂ hb

theorem moves_receivedFc {canif : Nat} {frame : CanFrame} {g : Grant}
    (hp : s.findPcb canif frame = some p) (ht : frame.data 0 &&& frameTypeMask = fcType) :
    Moves cfg s (.input canif frame g) (s.receivedFc cfg p frame) := by
  unfold receivedFc
  simp only
  split
  -- a flow that does not wait for flow control passes it over
  · exact .none fun _ => rfl
  · next hs =>
    rw [not_not] at hs
    generalize hfs : (frame.data 0 &&& 15).toNat = fs
    have hv₁ := view_noted s p .output
      (o := .flowControl p fs (frame.data 1).toNat (frame.data 2).toNat) rfl
    have ho₁ := fun k' (h : k' ≠ (p, Dir.output)) => view_noted_other s p
      (o := .flowControl p fs (frame.data 1).toNat (frame.data 2).toNat) rfl h
    simp only [errorHandler] at hv₁ ho₁
    have hslot :
        ((s.emit (.flowControl p fs (frame.data 1).toNat (frame.data 2).toNat)).lwcanUntimeout
        .isotpOutputErrorHandler (.pcb p)).timeouts.slotFree = s.slotAfterCancel (p, .output) := rfl
    have hpcb :
        ((s.emit (.flowControl p fs (frame.data 1).toNat (frame.data 2).toNat)).lwcanUntimeout
        .isotpOutputErrorHandler (.pcb p)).pcb = s.pcb := rfl
    have hfl :
        ((s.emit (.flowControl p fs (frame.data 1).toNat (frame.data 2).toNat)).lwcanUntimeout
        .isotpOutputErrorHandler (.pcb p)).flow (p, .output) = s.flow (p, .output) := rfl
    -- `s₁` is the node when the frame is noted and the error timeout cancelled
    generalize (s.emit (.flowControl p fs (frame.data 1).toNat (frame.data 2).toNat)).lwcanUntimeout
      .isotpOutputErrorHandler (.pcb p) = s₁ at *
    have hv₂ : (s₁.setFlow (p, .output) { s₁.flow (p, .output) with fs }).view (p, .output) =
        (s₁.view (p, .output)).setFlow { s.flow (p, .output) with fs } := by
      rw [hfl]
      exact view_setFlow_self s₁ (by rw [hfl])
    have hreg : ((s₁.setFlow (p, .output) { s₁.flow (p, .output) with fs }).pcb p).error =
          (s.pcb p).error ∧
        ((s₁.setFlow (p, .output) { s₁.flow (p, .output) with fs }).pcb p).callbackArg =
          (s.pcb p).callbackArg := by
      rw [setFlow_error, setFlow_callbackArg, hpcb]
      exact ⟨rfl, rfl⟩
    rw [flow_setFlow_self, hfl]
    simp only
    split
    · next hw =>
      -- the peer asks for more time, and may: its time starts anew
      obtain ⟨rfl, hn⟩ := hw
      refine Moves.only_output p ?_ fun k' h => ?_
      · rw [view_armOutError, view_setFlow_self]
        · rw [← hfl, hv₂, hv₁]
          refine (congrArg (fun c => OutputStep cfg s p _ _ (View.armError _ c)) hslot).mpr ?_
          rw [hfl]
          exact .wait hp hs hfs hn ht
        · rw [flow_setFlow_self]
      · rw [view_armOutError_other _ _ _ h, view_setFlow_other _ _ h, view_setFlow_other _ _ h,
          ho₁ k' h]
    · next hw =>
      split
      -- the peer asks once too often, or refuses: the message is given up
      · next hr =>
        refine Moves.only_output p ?_ fun k' h => ?_
        · rw [view_fail_self, ← hfl, hreg.1, hreg.2, hv₂, hv₁]
          subst hfs
          exact .abort hp hs hw hr ht
        · rw [view_fail_other _ _ _ h, view_setFlow_other _ _ h, ho₁ k' h]
      · next hr =>
        -- the peer is ready: the next frame is due
        rw [not_not] at hr
        subst hr
        refine Moves.only_output p ?_ fun k' h => ?_
        · rw [view_armOut, view_setFlow_self]
          · rw [← hfl, hv₂, hv₁]
            refine (congrArg (fun c => OutputStep cfg s p _ _ (View.armOutput _ c)) hslot).mpr ?_
            rw [hfl]
            exact .proceed hp hs hfs ht
          · rw [flow_setFlow_self]
        · rw [view_armOut_other _ _ _ h, view_setFlow_other _ _ h, view_setFlow_other _ _ h,
            ho₁ k' h]

theorem moves_isotpInput (hh : HeapOk s) (hn : s.suspended = none) (canif : Nat) (frame : CanFrame)
    {g : Grant} (hg : g.Fresh s.heap.blocks) :
    Moves cfg s (.input canif frame g) (s.isotpInput cfg canif frame g) := by
  unfold isotpInput
  split
  · exact .none fun _ => rfl
  · next p hp =>
    split
    · next ht => exact moves_receivedSf hh hn hg hp ht
    · split
      · next ht => exact moves_receivedFf hh hn hg hp ht
      · split
        · next ht => exact moves_receivedCf hh hp ht
        · split
          · next ht => exact moves_receivedFc hp ht
          · exact .none fun _ => rfl

/-! ### The application calls -/

/-- The copy of `isotp_send` puts the message into the new buffer and touches no other. -/
theorem copyTo_message (heap : Heap) (b : Nat) {d : List UInt8} (hd : d.length ≠ 0)
    (hl : (heap.buffer b).length = d.length) :
    ((heap.lwcanBufferCopyTo (some b) (fun i => d.getD i 0) d.length).2.buffer b).length =
        d.length ∧
      ((heap.lwcanBufferCopyTo (some b) (fun i => d.getD i 0) d.length).2.buffer b).bytes = d ∧
        ∀ b', b' ≠ b →
          (heap.lwcanBufferCopyTo (some b) (fun i => d.getD i 0) d.length).2.buffer b' =
          heap.buffer b' := by
  unfold Heap.lwcanBufferCopyTo Heap.lwcanBufferCopyToOffset LwcanBuffer.bytes
  simp only [hd, if_false, Function.update_self, hl]
  refine ⟨trivial, ?_, fun b' hb' => Function.update_of_ne hb' _ _⟩
  rw [Mem.slice_blit_self]
  refine List.ext_getElem (Mem.length_slice ..) fun i h₁ h₂ => ?_
  simp [Mem.slice, List.getD_eq_getElem?_getD, List.getElem?_eq_getElem h₂]

theorem moves_isotpSend (hh : HeapOk s) (pcb : Option Nat) (data : Option (List UInt8)) {g : Grant}
    (hg : g.Fresh s.heap.blocks) (hl : ∀ d ∈ data, d.length < 4294967296) :
    Moves cfg s (.call (.isotpSend pcb data g)) (s.isotpSend cfg pcb data g).2 := by
  unfold isotpSend
  split
  · next p d =>
    simp only
    split
    · exact .none fun _ => rfl
    · next hd =>
      split
      · exact .none fun _ => rfl
      · next hs =>
        rw [not_not] at hs
        split
        · next heap hnew =>
          rw [Heap.lwcanBufferNew_none hg hnew]
          exact .none fun _ => rfl
        · next b heap hnew =>
          obtain ⟨hb, hbl, -, hold⟩ := alloc_fresh hh hg hnew
          obtain ⟨hcl, hcb, hco⟩ := copyTo_message heap b hd hbl
          -- `heap'` holds the message in the new buffer, and is otherwise as before
          generalize (heap.lwcanBufferCopyTo (some b) (fun i => d.getD i 0) d.length).2 = heap' at *
          have hview : ∀ k, ({ s with heap := heap' } : Node).view k = s.view k := fun k =>
            view_heap s fun b' hb' => by
              have hne : b' ≠ b := fun e => hb k (e ▸ hb')
              rw [hco b' hne, hold b' hne]
          refine Moves.only_output p ?_ fun k' h => ?_
          · rw [view_armOut, view_emit_self (k := (p, .output)) _ rfl, view_push]
            · rw [hview]
              refine (congrArg (fun fl => OutputStep cfg s p _ _ (View.armOutput (View.emit
                { s.view (p, .output) with
                  flow := fl, chain := (b, heap'.buffer b) :: (s.view (p, .output)).chain } _) _))
                ?_).mpr (OutputStep.send hs hd (hl d rfl)
                  ((Heap.lwcanBufferNew_isSome ..).mp (by rw [hnew]; rfl)).2 (hb _) hcl hcb)
              unfold View.sendFlow
              split <;> rfl
            · split <;> rfl
          · rw [view_armOut_other _ _ _ h, view_emit_other _ (Ne.symm h), view_setFlow_other _ _ h,
              hview]
  · exact .none fun _ => rfl

theorem moves_isotpReceived (s : Node) (pcb buffer : Option Nat) :
    Moves cfg s (.call (.isotpReceived pcb buffer)) (s.isotpReceived pcb buffer).2 := by
  unfold isotpReceived
  split
  · next p b =>
    refine Moves.only_input p ?_ fun k' h => (view_isotpRemoveBuffer_other _ _ h).trans
      (view_emit_other s (Ne.symm h))
    have hv := view_emit_self (k := (p, .input)) s (o := .released p b) rfl
    have hfin : (((s.emit (.released p b)).isotpRemoveBuffer (p, .input) (some b)).view
        (p, .input)) = { s.view (p, .input) with
          flow := { s.flow (p, .input) with buffer := (s.flow (p, .input)).buffer.erase b }
          chain := (s.view (p, .input)).chain.eraseP (·.1 = b)
          log := (s.view (p, .input)).log ++ [.released p b] } := by
      -- erasing a buffer from the list and from the chain is the same
      have hch : ∀ l : List Nat, (l.erase b).map (fun b => (b, s.heap.buffer b)) =
          (l.map fun b => (b, s.heap.buffer b)).eraseP (·.1 = b) := by
        intro l
        induction l with
        | nil => rfl
        | cons a l ih =>
          by_cases ha : a = b
          · simp [ha]
          · simp [ha, ih]
      unfold isotpRemoveBuffer
      split
      · cases ‹_›
      · next b' he =>
        cases he
        split
        · refine (View.mk.injEq ..).mpr ⟨flow_setFlow_self .., ?_, rfl, rfl, rfl, rfl,
            congrArg View.log hv⟩
          refine Eq.trans ?_ (hch _)
          exact congrArg (fun fl : IsotpFlow => fl.buffer.map fun b => (b, s.heap.buffer b))
            (flow_setFlow_self (s.emit (.released p b)) (p, .input) _)
        · next hb =>
          have hb' : b ∉ (s.flow (p, .input)).buffer := hb
          rw [hv]
          have := hch (s.flow (p, .input)).buffer
          rw [List.erase_of_not_mem hb'] at this ⊢
          exact (View.mk.injEq ..).mpr ⟨rfl, this, rfl, rfl, rfl, rfl, rfl⟩
    exact (congrArg (InputStep cfg s p _ _) hfin).mpr .release
  · exact .none fun _ => rfl

theorem moves_isotpNew (s : Node) : Moves cfg s (.call .isotpNew) (s.isotpNew cfg).2 := by
  cases h : (s.isotpNew cfg).1 with
  | none =>
    have : (s.isotpNew cfg).2 = s := by
      unfold isotpNew at h ⊢
      split at h
      · next hc => rw [if_pos hc]
      · next hc =>
        rw [if_neg hc]
        split at h
        · rfl
        · cases h
    rw [this]
    exact .none fun _ => rfl
  | some p =>
    -- the chunk is cleared, and nothing else that a flow sees is touched
    have hp : (s.isotpNew cfg).2.pcb = Function.update s.pcb p {} ∧
        (s.isotpNew cfg).2.timeouts = s.timeouts ∧ (s.isotpNew cfg).2.heap = s.heap ∧
        (s.isotpNew cfg).2.confirms = s.confirms ∧ (s.isotpNew cfg).2.suspended = s.suspended ∧
        (s.isotpNew cfg).2.log = s.log := by
      unfold isotpNew at h ⊢
      split at h
      · cases h
      · next hc =>
        rw [if_neg hc]
        split at h
        · cases h
        · next hm =>
          cases h
          exact ⟨rfl, rfl, rfl, rfl, rfl, rfl⟩
    generalize hs' : (s.isotpNew cfg).2 = s' at hp
    obtain ⟨h₁, h₂, h₃, h₄, h₅, h₆⟩ := hp
    have hself : ∀ d, s'.view (p, d) = { s.view (p, d) with flow := {}, chain := [] } := by
      intro d
      unfold view flow
      rw [h₁, h₂, h₃, h₄, h₅, h₆]
      simp only [Function.update_self]
      cases d <;> rfl
    have hother : ∀ q d, q ≠ p → s'.view (q, d) = s.view (q, d) := by
      intro q d hq
      unfold view flow
      rw [h₁, h₂, h₃, h₄, h₅, h₆]
      simp [hq]
    refine ⟨fun q => ?_, fun q => ?_⟩
    · by_cases hq : q = p
      · subst hq
        rw [hself]
        exact Or.inr (.new h)
      · exact Or.inl (hother q _ hq)
    · by_cases hq : q = p
      · subst hq
        rw [hself]
        exact Or.inr (.new h)
      · exact Or.inl (hother q _ hq)

/-- A call that changes no flow, no timer of a flow and no buffer -/
theorem moves_updatePcb (s : Node) {p : Nat} {pcb : IsotpPcb} {e : Event}
    (hp : ∀ d, pcb.flow d = (s.pcb p).flow d) :
    Moves cfg s e { s with pcb := Function.update s.pcb p pcb } := by
  refine .none fun k => view_congr ?_ (fun _ _ => rfl) rfl rfl rfl rfl rfl
  unfold flow
  by_cases hk : k.1 = p
  · simp [hk, hp]
  · simp [hk]

theorem moves_call (hh : HeapOk s) {c : Call} (hc : s.Legal c) :
    Moves cfg s (.call c) (s.call cfg c) := by
  cases c with
  | isotpNew => exact moves_isotpNew s
  | isotpBind pcb addr =>
    unfold Node.call Node.isotpBind
    simp only
    split
    · split
      · exact .none fun _ => rfl
      · split
        · exact .none fun _ => rfl
        · exact moves_updatePcb s fun d => by cases d <;> rfl
    · exact .none fun _ => rfl
  | isotpRemove pcb =>
    unfold Node.call Node.isotpRemove
    simp only
    split
    · exact .none fun _ => rfl
    · split
      · exact .none fun _ => rfl
      · exact .none fun _ => rfl
  | isotpSetCallbacks p receive receiveFf sent error =>
    rw [Node.call_isotpSetCallbacks]
    exact moves_updatePcb s fun d => by cases d <;> rfl
  | isotpSetCallbackArg p arg => exact moves_updatePcb s fun d => by cases d <;> rfl
  | isotpSend pcb data g => exact moves_isotpSend hh pcb data hc.2.2 hc.2.1
  | isotpReceived pcb buffer => exact moves_isotpReceived s pcb buffer
  | canifAdd canif name init => exact .none fun _ => rfl
  | canifRemove canif => exact .none fun _ => rfl
  | lwcanTimeout timeMs n arg =>
    -- the timers of the application have handlers of their own
    refine .none fun k => view_lwcanTimeout_other s _ fun p d h => ?_
    cases d <;> simp [outputHandler, errorHandler] at h
  | lwcanUntimeout n arg =>
    refine .none fun k => view_lwcanUntimeout_other s fun p d h => ?_
    cases d <;> simp [outputHandler, errorHandler] at h

/-! ### A callback returns -/

theorem view_resumed (s : Node) {f : Suspended} (hf : f.flow = k) (hs : s.suspended = some f) :
    ({ s with suspended := none } : Node).view k = { s.view k with suspended := none } ∧
      ∀ k', k' ≠ k → ({ s with suspended := none } : Node).view k' = s.view k' := by
  refine ⟨rfl, fun k' h => view_suspended_other s ?_ rfl⟩
  simp [hs, hf, Ne.symm h]

theorem moves_resume (hh : HeapOk s) (hst : ∀ k : FlowId, k.2.uses (s.flow k).state) {f : Suspended}
    (hs : s.suspended = some f) :
    Moves cfg s .resume (({ s with suspended := none } : Node).resume cfg f) := by
  obtain ⟨hv, ho⟩ := view_resumed s rfl hs
  cases f with
  | receivedFf p frame b length =>
    have hl : (s.heap.buffer b).length = length := hh.opening hs
    have hb : b ∉ (s.flow (p, .input)).buffer := by
      have hnd := hh.nodup (p, .input)
      rw [owned_eq hs rfl] at hnd
      simp only [Option.elim_some, Suspended.owned, if_true, List.singleton_append,
        List.nodup_cons] at hnd
      exact hnd.1
    -- the buffer moves from the suspended function to the chain
    have hh₁ : HeapOk (({ s with suspended := none } : Node).link p b length) := by
      refine hh.transfer (fun k => ?_) rfl (HeapOk.SameShape.refl _) (by rintro _ ⟨⟩)
      unfold link
      rw [owned_eq rfl rfl, owned_eq hs rfl]
      by_cases hk : k = (p, .input)
      · subst hk
        rw [flow_setFlow_self]
        simp [Suspended.owned]
        rfl
      · rw [flow_setFlow_of_ne _ _ hk]
        simp [Suspended.owned, hk]
        rfl
    have hfin := view_receivedFfStore cfg hh₁ frame hl
    rw [show ({ s with suspended := none } : Node).view (p, .input) =
      { s.view (p, .input) with suspended := none } from hv] at hfin
    refine Moves.only_input p ((congrArg (InputStep cfg s p _ _) hfin).mpr ?_) fun k' h =>
      (view_receivedFfStore_other hh₁ frame h).trans (ho k' h)
    exact .resumeFf (hl.symm ▸ hs) hb
  | receivedFfOutput p =>
    refine Moves.only_input p ?_ fun k' h => (view_receivedFfOutput_other _ h).trans (ho k' h)
    refine (congrArg (InputStep cfg s p _ _) ((view_receivedFfOutput _ _ p).trans
      (congrArg (View.ffOutput cfg · _) hv))).mpr ?_
    exact .resumeFfMemory hs
  | isotpSent k =>
    obtain ⟨p, d⟩ := k
    cases d with
    | output =>
      refine Moves.only_output p (.resume hs ?_) fun k' h =>
        (switch_output_other cfg { s with suspended := none } (hst (p, .output)) h).trans (ho k' h)
      exact switch_output cfg { s with suspended := none } (hst (p, .output))
    | input =>
      refine Moves.only_input p (.resume hs ?_) fun k' h =>
        (switch_input_other cfg { s with suspended := none } (hst (p, .input)) h).trans (ho k' h)
      exact switch_input cfg { s with suspended := none } (hst (p, .input))

/-- **Every step** leaves a flow alone or is one of its transitions. -/
theorem moves_step (hh : HeapOk s) (hst : ∀ k : FlowId, k.2.uses (s.flow k).state) {e : Event}
    (h : step cfg s e = some s') : Moves cfg s e s' := by
  obtain ⟨he, rfl⟩ := step_eq_some.mp h
  cases e with
  | call c => exact moves_call hh he
  | input canif frame g =>
    exact moves_isotpInput hh (Option.isNone_iff_eq_none.mp he.1) canif frame he.2
  | timer frame ret =>
    unfold next
    simp only
    split
    · exact .none fun _ => rfl
    · next e timeouts hx =>
      -- a handler of a flow runs only for a pcb
      have hpop : (∀ p d, (e.handler = outputHandler d ∨ e.handler = errorHandler d) →
          e.arg ≠ .pcb p) → ∀ k, ({ s with timeouts } : Node).view k = s.view k :=
        fun hne k => view_pop_other hx fun p d hd ha => absurd ha (hne p d hd)
      unfold runHandler
      cases harg : e.arg with
      | pcb p =>
        split
        · next hh' => exact moves_outFlowOutput hst hx hh' harg frame ret
        · next hh' => exact moves_inFlowOutput hst hx hh' harg frame ret
        · next hh' => exact moves_outputErrorHandler hx hh' harg frame ret
        · next hh' => exact moves_inputErrorHandler hx hh' harg frame ret
        · next n hh' =>
          refine .none fun k => view_pop_other hx fun p d hd => ?_
          rw [hh'] at hd
          cases d <;> simp [outputHandler, errorHandler] at hd
      | null =>
        refine .none fun k => Eq.trans ?_ (hpop (fun p d _ => by simp [harg]) k)
        split <;> rfl
      | user a =>
        refine .none fun k => Eq.trans ?_ (hpop (fun p d _ => by simp [harg]) k)
        split <;> rfl
  | sent k err => exact moves_sent hst (Option.isNone_iff_eq_none.mp he) k err
  | resume =>
    unfold next
    simp only
    split
    · exact .none fun _ => rfl
    · next f hf => exact moves_resume hh hst hf
  | tick ms => exact .none fun _ => rfl

end Node
end Lwcan
