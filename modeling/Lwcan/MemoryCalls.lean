import Lwcan.Accounting
import Lwcan.CallbackArgs
import Lwcan.Provenance
import Lwcan.Reassembly
import Lwcan.Rollback

/-!
# What a step does to the memory

A step calls `lwcan_buffer_new` once or not at all (`asks`), then copies into the buffers that there
are, and then deletes some of them. This is read off the code once; what an allocator has to do for
a step follows from it.

* `asks` — the length for which a step asks for a buffer, if it does;
* `NoNew` — apart from that, no block is allocated, and no buffer gets another payload or length;
* `owned_step` — what a flow owns after a step, it owned before, or it is the new buffer;
* `copies` — where a step copies to, and `copies_inside` that it is inside a buffer, if the frames
  fit.
-/

namespace Lwcan

/-! ### The blocks -/

/-- No block is new, and every buffer keeps its payload block and its length. -/
structure NoNew (h h' : Heap) : Prop where
  blocks : h'.blocks ⊆ h.blocks
  shape : ∀ b, Node.HeapOk.SameShape h h' b

namespace NoNew

open Node

variable {cfg : Config} {s : Node} {k : FlowId} {p : Nat}

theorem refl (h : Heap) : NoNew h h := ⟨List.Subset.refl _, HeapOk.SameShape.refl h⟩

theorem trans {h h' h'' : Heap} (h₁ : NoNew h h') (h₂ : NoNew h' h'') : NoNew h h'' := by
  refine ⟨List.Subset.trans h₂.blocks h₁.blocks, fun b => ⟨?_, ?_⟩⟩
  · exact (h₂.shape b).1.trans (h₁.shape b).1
  · exact (h₂.shape b).2.trans (h₁.shape b).2

/-- A copy -/
theorem copyTo (h : Heap) (buffer : Option Nat) (source : Nat → UInt8) (length offset : Nat) :
    NoNew h (h.lwcanBufferCopyToOffset buffer source length offset).2 := by
  obtain ⟨hb, hs⟩ := HeapOk.copyTo_shape h buffer source length offset
  exact ⟨fun a ha => hb ▸ ha, hs⟩

theorem delete (h : Heap) (b : Nat) : NoNew h (h.lwcanBufferDelete b) := by
  refine ⟨?_, HeapOk.SameShape.refl h⟩
  intro a ha
  exact (List.mem_filter.mp (List.mem_filter.mp ha).1).1

theorem isotpRemoveBuffer (s : Node) (k : FlowId) (buffer : Option Nat) :
    NoNew s.heap (s.isotpRemoveBuffer k buffer).heap := by
  unfold Node.isotpRemoveBuffer
  split
  · exact refl _
  · split
    · exact delete _ _
    · exact refl _

theorem dropHead (s : Node) (k : FlowId) : NoNew s.heap (s.dropHead k).heap :=
  isotpRemoveBuffer (s.emit _) k _

theorem callError (s : Node) (k : FlowId) (arg : Ptr) (err : Lwcanerr) :
    (s.callError k arg err).heap = s.heap := by
  unfold Node.callError
  split <;> rfl

theorem canifOutput (s : Node) (k : FlowId) (canif : Nat) (frame : CanFrame) (timeout : Nat)
    (ret : Lwcanerr) : NoNew s.heap (s.canifOutput k canif frame timeout ret).heap := by
  unfold Node.canifOutput
  dsimp only
  split
  · exact refl _
  · rw [callError]
    exact dropHead (s.emit _) k

theorem runHandler (s : Node) (hd : Handler) (arg : Ptr) (frame : CanFrame) (ret : Lwcanerr) :
    NoNew s.heap (s.runHandler cfg hd arg frame ret).heap := by
  unfold Node.runHandler
  split
  · unfold isotpOutFlowOutput
    split
    · split
      · exact refl _
      · dsimp only
        split
        · exact canifOutput (s.setFlow _ _) _ _ _ _ _
        · exact canifOutput (s.setFlow _ _) _ _ _ _ _
        · exact canifOutput (s.setFlow _ _) _ _ _ _ _
        · exact refl _
    · exact refl _
  · unfold isotpInFlowOutput
    split
    · split
      · exact refl _
      · dsimp only
        split
        · exact canifOutput ..
        · exact refl _
    · exact refl _
  · unfold isotpOutputErrorHandler
    split
    · rw [callError]
      exact dropHead ..
    · exact refl _
  · unfold isotpInputErrorHandler
    split
    · rw [callError]
      exact dropHead ..
    · exact refl _
  · exact refl _

theorem isotpSentSwitch (s : Node) (k : FlowId) : NoNew s.heap (s.isotpSentSwitch cfg k).heap := by
  unfold Node.isotpSentSwitch
  split
  · unfold sentSf
    dsimp only
    split
    · exact isotpRemoveBuffer ..
    · exact isotpRemoveBuffer ..
  · unfold sentFf
    split
    · exact refl _
    · exact refl _
  · unfold sentCf
    dsimp only
    split
    · split
      · exact isotpRemoveBuffer ..
      · exact isotpRemoveBuffer ..
    · split
      · exact refl _
      · exact refl _
  · unfold sentFc
    split
    · rw [callError]
      exact refl _
    · exact refl _
  · exact refl _

theorem isotpSent (s : Node) (k : FlowId) (err : Lwcanerr) :
    NoNew s.heap (s.isotpSent cfg k err).heap := by
  unfold Node.isotpSent
  split
  · dsimp only
    split
    · exact dropHead ..
    · exact (dropHead s k).trans (isotpSentSwitch ((s.dropHead k).setState k .idle) k)
  · exact isotpSentSwitch s k

theorem isotpReceived (s : Node) (pcb buffer : Option Nat) :
    NoNew s.heap (s.isotpReceived pcb buffer).2.heap := by
  unfold Node.isotpReceived
  split
  · exact isotpRemoveBuffer (s.emit _) _ _
  · exact refl _

theorem deliver (s : Node) (p : Nat) : NoNew s.heap (s.deliver p).heap := by
  unfold Node.deliver
  dsimp only
  split
  · split
    · exact refl _
    · exact refl _
  · exact isotpReceived ..

theorem receivedFfStore (s : Node) (p : Nat) (frame : CanFrame) (b n : Nat) :
    NoNew s.heap (s.receivedFfStore cfg p frame b n).heap := by
  unfold Node.receivedFfStore storeFfData storeData
  exact copyTo ..

theorem resume (s : Node) (f : Suspended) : NoNew s.heap (s.resume cfg f).heap := by
  cases f with
  | receivedFf p frame b n => exact receivedFfStore s p frame b n
  | receivedFfOutput p => exact refl _
  | isotpSent k => exact isotpSentSwitch s k

theorem receivedCf (s : Node) (p : Nat) (frame : CanFrame) :
    NoNew s.heap (s.receivedCf cfg p frame).heap := by
  have hcopy : ∀ t : Node, NoNew t.heap (t.storeCfData p frame.data frame.len).heap := by
    intro t
    unfold storeCfData storeData
    dsimp only
    split
    · exact copyTo ..
    · exact copyTo ..
  unfold Node.receivedCf receivedCfOutput
  dsimp only
  generalize ht : (s.emit (.consecutive p frame.wire)).lwcanUntimeout .isotpInputErrorHandler
    (.pcb p) = t
  have hs : t.heap = s.heap := by rw [← ht]; rfl
  rw [← hs]
  split
  · rw [hs]
    exact refl _
  · split
    · exact dropHead ..
    · split
      · exact (hcopy t).trans (deliver ((t.storeCfData p frame.data frame.len).setState _ _) p)
      · split
        · exact hcopy t
        · exact hcopy t

theorem receivedFc (s : Node) (p : Nat) (frame : CanFrame) :
    NoNew s.heap (s.receivedFc cfg p frame).heap := by
  unfold Node.receivedFc
  dsimp only
  split
  · exact refl _
  · generalize ht : Node.setFlow _ (p, .output) _ = t
    have hs : t.heap = s.heap := by rw [← ht]; rfl
    rw [← hs]
    split
    · exact refl _
    · split
      · rw [callError]
        exact dropHead ..
      · exact refl _

theorem receivedSf (s : Node) (p : Nat) (frame : CanFrame) (g : Grant)
    (hs : (s.flow (p, .input)).state = .idle) :
    NoNew (s.heap.lwcanBufferNew (isotpGetSfDl cfg frame.data) g).2
      (s.receivedSf cfg p frame g).heap := by
  unfold Node.receivedSf
  dsimp only
  rw [if_neg (by simp [hs])]
  split
  · next heap hn =>
    rw [callError, hn]
    exact refl _
  · next b heap hn =>
    rw [hn]
    refine NoNew.trans (?_ : NoNew heap (Node.storeSfData ..).heap) (deliver _ p)
    exact copyTo ..

theorem receivedFf (s : Node) (p : Nat) (frame : CanFrame) (g : Grant)
    (hs : (s.flow (p, .input)).state = .idle) :
    NoNew (s.heap.lwcanBufferNew (isotpGetFfDl cfg frame.data) g).2
      (s.receivedFf cfg p frame g).heap := by
  unfold Node.receivedFf
  dsimp only
  rw [if_neg (by simp [hs])]
  split
  · next heap hn =>
    rw [hn]
    split
    · exact refl _
    · exact refl _
  · next b heap hn =>
    rw [hn]
    split
    · exact refl _
    · exact receivedFfStore { s with heap } p frame b _

end NoNew

/-- What the allocator answers in an event, if it is asked -/
def Event.grant : Event → Grant
  | .call (.isotpSend _ _ g) | .input _ _ g => g
  | .call .isotpNew | .call (.isotpBind _ _) | .call (.isotpRemove _)
  | .call (.isotpSetCallbacks _ _ _ _ _) | .call (.isotpSetCallbackArg _ _)
  | .call (.isotpReceived _ _) | .call (.canifAdd _ _ _) | .call (.canifRemove _)
  | .call (.lwcanTimeout _ _ _) | .call (.lwcanUntimeout _ _) | .timer _ _ | .sent _ _ | .resume
  | .tick _ => ⟨none, none, fun _ => 0⟩

namespace Node

variable {cfg : Config} {s s' : Node} {k : FlowId} {p b n : Nat} {e : Event}

/-- **The length for which a step calls `lwcan_buffer_new`**, if it does -/
def asks (cfg : Config) (s : Node) : Event → Option Nat
  | .call (.isotpSend pcb data _) => if s.asksForBuffer pcb data then data.map List.length else none
  | .input canif frame _ =>
    (s.findPcb canif frame).bind fun p =>
      if (s.flow (p, .input)).state ≠ .idle then none
      else if frame.data 0 &&& frameTypeMask = sfType then some (isotpGetSfDl cfg frame.data)
      else if frame.data 0 &&& frameTypeMask = ffType then some (isotpGetFfDl cfg frame.data)
      else none
  | _ => none

/-- What `lwcan_buffer_new` returns in a step, and the heap then -/
def bufferNew (cfg : Config) (s : Node) (e : Event) : Option Nat × Heap :=
  match s.asks cfg e with
  | none => (none, s.heap)
  | some n => s.heap.lwcanBufferNew n e.grant

theorem bufferNew_of_none (h : s.asks cfg e = none) : s.bufferNew cfg e = (none, s.heap) := by
  unfold bufferNew
  rw [h]

theorem bufferNew_of_some (h : s.asks cfg e = some n) :
    s.bufferNew cfg e = s.heap.lwcanBufferNew n e.grant := by
  unfold bufferNew
  rw [h]

section Asks

variable {canif : Nat} {frame : CanFrame} {d : List UInt8} {g : Grant}

theorem asks_send (hd : d.length ≠ 0) (hs : (s.flow (p, .output)).state = .idle) :
    s.asks cfg (.call (.isotpSend (some p) (some d) g)) = some d.length :=
  if_pos (by simpa [asksForBuffer, hs] using hd)

theorem asks_sf (hp : s.findPcb canif frame = some p) (hs : (s.flow (p, .input)).state = .idle)
    (ht : frame.data 0 &&& frameTypeMask = sfType) :
    s.asks cfg (.input canif frame g) = some (isotpGetSfDl cfg frame.data) := by
  show (s.findPcb canif frame).bind _ = _
  rw [hp, Option.bind_some, if_neg (by simp [hs]), if_pos ht]

theorem asks_ff (hp : s.findPcb canif frame = some p) (hs : (s.flow (p, .input)).state = .idle)
    (ht : frame.data 0 &&& frameTypeMask = ffType) :
    s.asks cfg (.input canif frame g) = some (isotpGetFfDl cfg frame.data) := by
  show (s.findPcb canif frame).bind _ = _
  rw [hp, Option.bind_some, if_neg (by simp [hs]), ht]
  rfl

/-- A frame for which a buffer is asked -/
theorem asks_input_some (h : s.asks cfg (.input canif frame g) = some n) :
    ∃ p, s.findPcb canif frame = some p ∧ (s.flow (p, .input)).state = .idle ∧
      (frame.data 0 &&& frameTypeMask = sfType ∧ isotpGetSfDl cfg frame.data = n ∨
        frame.data 0 &&& frameTypeMask = ffType ∧ isotpGetFfDl cfg frame.data = n) := by
  obtain ⟨p, hp, h⟩ := Option.bind_eq_some_iff.mp h
  refine ⟨p, hp, ?_⟩
  split at h
  · cases h
  · next hs =>
    refine ⟨not_not.mp hs, ?_⟩
    split at h
    · next ht => exact Or.inl ⟨ht, Option.some.inj h⟩
    · split at h
      · next ht => exact Or.inr ⟨ht, Option.some.inj h⟩
      · cases h

/-- A frame opens no message but in an idle flow, and only if it is a single frame or a first
frame. -/
theorem asks_input_none (h : ∀ p, s.findPcb canif frame = some p →
    (s.flow (p, .input)).state ≠ .idle ∨ (frame.data 0 &&& frameTypeMask ≠ sfType ∧
      frame.data 0 &&& frameTypeMask ≠ ffType)) : s.asks cfg (.input canif frame g) = none := by
  show (s.findPcb canif frame).bind _ = none
  cases hp : s.findPcb canif frame with
  | none => rfl
  | some p =>
    rw [Option.bind_some]
    rcases h p hp with hs | ⟨hsf, hff⟩
    · rw [if_pos hs]
    · rw [if_neg hsf, if_neg hff, ite_self]

theorem isotpSend_noNew (pcb : Option Nat) (data : Option (List UInt8)) (g : Grant) :
    NoNew (s.bufferNew cfg (.call (.isotpSend pcb data g))).2
      (s.isotpSend cfg pcb data g).2.heap := by
  cases pcb with
  | none => exact NoNew.refl _
  | some p =>
    cases data with
    | none => exact NoNew.refl _
    | some d =>
      have hnone (ha : s.asksForBuffer (some p) (some d) = false) :
          s.bufferNew cfg (.call (.isotpSend (some p) (some d) g)) = (none, s.heap) :=
        bufferNew_of_none (if_neg (by simp [ha]))
      unfold isotpSend
      dsimp only
      by_cases hd : d.length = 0
      · rw [if_pos hd, hnone (by simp [asksForBuffer, hd])]
        exact NoNew.refl _
      -- only a call on an idle flow gets as far as the allocator
      by_cases hs : (s.flow (p, .output)).state = .idle
      · rw [if_neg hd, if_neg (by simp [hs]), bufferNew_of_some (asks_send hd hs)]
        show NoNew (s.heap.lwcanBufferNew d.length g).2 _
        split
        · next heap hn =>
          rw [hn]
          exact NoNew.refl _
        · next b heap hn =>
          rw [hn]
          exact NoNew.copyTo ..
      · rw [if_neg hd, if_pos hs, hnone (by simp [asksForBuffer, hs])]
        exact NoNew.refl _

theorem isotpInput_noNew (canif : Nat) (frame : CanFrame) (g : Grant) :
    NoNew (s.bufferNew cfg (.input canif frame g)).2 (s.isotpInput cfg canif frame g).heap := by
  cases hp : s.findPcb canif frame with
  | none =>
    rw [isotpInput_none hp, bufferNew_of_none (asks_input_none fun p h => by rw [hp] at h; cases h)]
    exact NoNew.refl _
  | some p =>
    -- only a single or first frame for an idle flow asks for a buffer
    have hnone (h : (s.flow (p, .input)).state ≠ .idle ∨ (frame.data 0 &&& frameTypeMask ≠ sfType ∧
        frame.data 0 &&& frameTypeMask ≠ ffType)) :
        s.bufferNew cfg (.input canif frame g) = (none, s.heap) := by
      refine bufferNew_of_none (asks_input_none fun q hq => ?_)
      obtain rfl : p = q := Option.some.inj (hp.symm.trans hq)
      exact h
    by_cases t₁ : frame.data 0 &&& frameTypeMask = sfType
    · rw [isotpInput_sf hp t₁]
      by_cases hs : (s.flow (p, .input)).state = .idle
      · rw [bufferNew_of_some (asks_sf hp hs t₁)]
        exact NoNew.receivedSf s p frame g hs
      · rw [hnone (Or.inl hs), receivedSf, if_pos hs]
        exact NoNew.refl _
    by_cases t₂ : frame.data 0 &&& frameTypeMask = ffType
    · rw [isotpInput_ff hp t₂]
      by_cases hs : (s.flow (p, .input)).state = .idle
      · rw [bufferNew_of_some (asks_ff hp hs t₂)]
        exact NoNew.receivedFf s p frame g hs
      · rw [hnone (Or.inl hs), receivedFf, if_pos hs]
        exact NoNew.refl _
    rw [hnone (Or.inr ⟨t₁, t₂⟩)]
    by_cases t₃ : frame.data 0 &&& frameTypeMask = cfType
    · rw [isotpInput_cf hp t₃]
      exact NoNew.receivedCf s p frame
    by_cases t₄ : frame.data 0 &&& frameTypeMask = fcType
    · rw [isotpInput_fc hp t₄]
      exact NoNew.receivedFc s p frame
    · rw [isotpInput_unknown hp t₁ t₂ t₃ t₄]
      exact NoNew.refl _

end Asks

/-- **A step allocates the buffer that it asks for**, and no other block. -/
theorem noNew_step (hst : Node.step cfg s e = some s') : NoNew (s.bufferNew cfg e).2 s'.heap := by
  obtain ⟨-, rfl⟩ := step_eq_some.mp hst
  cases e with
  | call c =>
    cases c with
    | isotpSend pcb data g => exact isotpSend_noNew pcb data g
    | isotpReceived pcb buffer => exact NoNew.isotpReceived s pcb buffer
    | isotpNew =>
      show NoNew s.heap (s.isotpNew cfg).2.heap
      unfold isotpNew
      split
      · exact NoNew.refl _
      · split
        · exact NoNew.refl _
        · exact NoNew.refl _
    | isotpBind pcb addr =>
      show NoNew s.heap (s.isotpBind pcb addr).2.heap
      unfold isotpBind
      split
      · split
        · exact NoNew.refl _
        · split
          · exact NoNew.refl _
          · exact NoNew.refl _
      · exact NoNew.refl _
    | isotpRemove pcb =>
      show NoNew s.heap (s.isotpRemove pcb).heap
      unfold isotpRemove
      split
      · exact NoNew.refl _
      · split
        · exact NoNew.refl _
        · exact NoNew.refl _
    | isotpSetCallbacks | isotpSetCallbackArg | canifAdd | canifRemove | lwcanTimeout
    | lwcanUntimeout => exact NoNew.refl _
  | input canif frame g => exact isotpInput_noNew canif frame g
  | timer frame ret =>
    show NoNew s.heap _
    unfold next
    dsimp only
    split
    · exact NoNew.refl _
    · next x timeouts _ => exact NoNew.runHandler { s with timeouts } _ _ _ _
  | sent k err => exact NoNew.isotpSent { s with confirms := s.confirms.erase k } k err
  | resume =>
    show NoNew s.heap _
    unfold next
    dsimp only
    split
    · exact NoNew.refl _
    · next f _ => exact NoNew.resume { s with suspended := none } f
  | tick ms => exact NoNew.refl _

end Node

/-! ### The buffers of a flow -/

/-- What a function that waits and a chain hold for a flow -/
def heldBy (k : FlowId) (f : Option Suspended) (l : List Nat) : List Nat :=
  f.elim [] (·.owned k) ++ l

/-- What is held after, was held before or is among `B`. -/
theorem heldBy_subset {k : FlowId} {f f' : Option Suspended} {l l' B : List Nat} (hl : l' ⊆ B ++ l)
    (hf : ∀ x ∈ f', f = some x ∨ x.owned k ⊆ B) : heldBy k f' l' ⊆ B ++ heldBy k f l := by
  intro b hb
  rcases List.mem_append.mp hb with hb | hb
  · cases hf' : f' with
    | none =>
      rw [hf'] at hb
      cases hb
    | some x =>
      rw [hf'] at hb
      rcases hf x hf' with rfl | hB
      · exact List.mem_append_right _ (List.mem_append_left _ hb)
      · exact List.mem_append_left _ (hB hb)
  · rcases List.mem_append.mp (hl hb) with hb | hb
    · exact List.mem_append_left _ hb
    · exact List.mem_append_right _ (List.mem_append_right _ hb)

/-- A function that waits holds a buffer for its own flow only. -/
theorem Suspended.owned_of_ne {f : Suspended} {k : FlowId} (h : f.flow ≠ k) : f.owned k = [] := by
  cases f with
  | receivedFf p frame b n => exact if_neg fun hk => h hk.symm
  | receivedFfOutput | isotpSent => rfl

/-- The buffers that belong to a flow, as it sees them -/
def View.held (v : View) (k : FlowId) : List Nat := heldBy k v.suspended v.flow.buffer

theorem View.held_subset {v v' : View} {k : FlowId} (hb : v'.flow.buffer ⊆ v.flow.buffer)
    (hs : ∀ f ∈ v'.suspended, v.suspended = some f ∨ f.owned k ⊆ []) : v'.held k ⊆ v.held k :=
  heldBy_subset (B := []) hb hs

theorem View.held_subset_same {v v' : View} {k : FlowId} (hb : v'.flow.buffer ⊆ v.flow.buffer)
    (hs : v'.suspended = v.suspended) : v'.held k ⊆ v.held k :=
  held_subset hb fun _ hf => Or.inl (hs ▸ hf)

namespace Node

variable {cfg : Config} {s s' : Node} {k : FlowId} {p b n : Nat} {e : Event}

theorem owned_view (s : Node) (k : FlowId) : s.owned k = (s.view k).held k := by
  unfold owned View.held
  refine congrArg (· ++ (s.flow k).buffer) ?_
  cases hs : s.suspended with
  | none => rw [view_not_suspended hs]
  | some f =>
    by_cases hk : f.flow = k
    · rw [view_suspended hs hk]
    · rw [show (s.view k).suspended = none from by simp [view, hs, hk]]
      exact f.owned_of_ne hk

/-- What a transition of an output flow other than `isotp_send` leaves it, it had. -/
theorem held_output {v v' : View} (hm : OutputStep cfg s p v e v')
    (he : ∀ pcb data g, e ≠ .call (.isotpSend pcb data g)) :
    v'.held (p, .output) ⊆ v.held (p, .output) := by
  have hfail : ∀ (w : View) (k : FlowId) (c : Bool) (arg : Ptr) (err : Lwcanerr),
      (w.fail k c arg err).held (p, .output) ⊆ w.held (p, .output) := by
    intro w k c arg err
    apply View.held_subset_same
    · rw [View.fail_buffer]
      exact (List.tail_sublist _).subset
    · rw [View.fail, View.emitIf_suspended]
      rfl
  have hswitch : ∀ {slot : Bool} {w w' : View}, OutputSwitch (s.pcb p) p slot w w' →
      w'.held (p, .output) ⊆ w.held (p, .output) := by
    intro slot w w' hw
    cases hw with
    | complete =>
      apply View.held_subset_same
      · rw [View.emitIf_flow]
        exact (List.tail_sublist _).subset
      · rw [View.emitIf_suspended]
        rfl
    | skip | ff | cf | block => exact List.Subset.refl _
  -- only a send brings a buffer
  cases hm with
  | send => exact absurd rfl (he _ _ _)
  | output _ _ _ hfl =>
    refine View.held_subset_same ?_ rfl
    show _ ⊆ v.flow.buffer
    rw [← isotpFill_buffer hfl]
    exact List.Subset.refl _
  | reject _ _ _ hfl =>
    refine List.Subset.trans (hfail _ _ _ _ _) (View.held_subset_same ?_ rfl)
    show _ ⊆ v.flow.buffer
    rw [← isotpFill_buffer hfl]
    exact List.Subset.refl _
  | expire | abort => exact hfail ..
  | confirm _ hw =>
    have hsub := hswitch hw
    exact hsub
  | refuse =>
    apply View.held_subset
    · rw [View.refused_flow]
      exact (List.tail_sublist _).subset
    · intro f hf
      rcases View.refused_suspended_cases hf with rfl | hf
      · exact Or.inr (List.Subset.refl _)
      · exact Or.inl hf
  | resume _ hw =>
    refine List.Subset.trans (hswitch hw) (View.held_subset (List.Subset.refl _) ?_)
    rintro f ⟨⟩
  | skip | wait | proceed => exact List.Subset.refl _
  | new => exact View.held_subset_same (List.nil_subset _) rfl

/-- What a transition of an input flow leaves it, it had, unless a single frame or a first frame
comes. -/
theorem held_input {v v' : View} (hm : InputStep cfg s p v e v') (hv : v = s.view (p, .input))
    (he : ∀ canif frame g, e = .input canif frame g →
      frame.data 0 &&& frameTypeMask ≠ sfType ∧ frame.data 0 &&& frameTypeMask ≠ ffType) :
    v'.held (p, .input) ⊆ v.held (p, .input) := by
  -- the buffer goes to the application
  have hdeliver : ∀ w : View, (w.deliver (s.pcb p) p).held (p, .input) ⊆ w.held (p, .input) := by
    intro w
    refine View.held_subset_same ?_ (View.deliver_suspended ..)
    unfold View.deliver
    split
    · exact List.Subset.refl _
    · split
      · exact List.Subset.refl _
      · exact (List.tail_sublist _).subset
  -- giving up unlinks the buffer at the head
  have hfail : ∀ (w : View) (k : FlowId) (c : Bool) (arg : Ptr) (err : Lwcanerr),
      (w.fail k c arg err).held (p, .input) ⊆ w.held (p, .input) := by
    intro w k c arg err
    apply View.held_subset_same
    · rw [View.fail_buffer]
      exact (List.tail_sublist _).subset
    · rw [View.fail, View.emitIf_suspended]
      rfl
  have hswitch : ∀ {slot : Bool} {w w' : View}, InputSwitch (s.pcb p) p slot w w' →
      w'.held (p, .input) ⊆ w.held (p, .input) := by
    intro slot w w' hw
    cases hw with
    | abort =>
      apply View.held_subset_same
      · rw [View.emitIf_flow]
        exact List.Subset.refl _
      · rw [View.emitIf_suspended]
        rfl
    | skip | ready => exact List.Subset.refl _
  have hidle : ∀ w : View, View.held { w with suspended := none } (p, .input) ⊆ w.held
    (p, .input) := by
    intro w
    refine View.held_subset (List.Subset.refl _) ?_
    rintro f ⟨⟩
  -- only a single or a first frame brings a buffer, and this is none
  cases hm with
  | sfMemory _ ht | sf _ ht => exact absurd ht (he _ _ _ rfl).1
  | ffMemory _ ht | ffMemoryCallback _ ht | ff _ ht | ffCallback _ ht =>
    exact absurd ht (he _ _ _ rfl).2
  | resumeFf hs =>
    -- the buffer moves from the function to the chain
    intro b hb
    have hsus := view_suspended (k := (p, .input)) hs rfl
    rw [hv, View.held, heldBy, hsus]
    have hmem : b ∈ _ :: v.flow.buffer := hb
    rcases List.mem_cons.mp hmem with rfl | hmem
    · exact List.mem_append_left _ (by simp [Suspended.owned])
    · exact List.mem_append_right _ (hv ▸ hmem)
  | resumeFfMemory => exact hidle v
  | cfWrong => exact View.held_subset_same ((List.tail_sublist _).subset) rfl
  | cfLast _ _ _ _ hv' =>
    subst hv'
    exact hdeliver ..
  | cf _ _ _ _ hv' | block _ _ _ _ hv' =>
    subst hv'
    exact List.Subset.refl _
  | reject => exact hfail ..
  | expire => exact hfail ..
  | confirm _ hw =>
    have hsub := hswitch hw
    exact hsub
  | refuse =>
    apply View.held_subset
    · rw [View.refused_flow]
      exact (List.tail_sublist _).subset
    · intro f hf
      rcases View.refused_suspended_cases hf with rfl | hf
      · exact Or.inr (List.Subset.refl _)
      · exact Or.inl hf
  | resume _ hw => exact List.Subset.trans (hswitch hw) (hidle v)
  | release => exact View.held_subset_same (List.erase_subset) rfl
  | skip | output => exact List.Subset.refl _
  | new => exact View.held_subset_same (List.nil_subset _) rfl

/-! ### The new buffer -/

/-- What a flow owns after, it owned before or is among `B`. -/
theorem owned_subset {B : List Nat} (hb : (s'.flow k).buffer ⊆ B ++ (s.flow k).buffer)
    (hs : ∀ f ∈ s'.suspended, s.suspended = some f ∨ f.owned k ⊆ B) : s'.owned k ⊆ B ++ s.owned k :=
  heldBy_subset hb hs

/-- A buffer is linked at the head of a chain. -/
theorem buffer_push {t : Node} {j : FlowId} {fl : IsotpFlow} (ht : ∀ k, t.flow k = s.flow k)
    (hfl : fl.buffer = b :: (s.flow j).buffer) (k : FlowId) :
    ((t.setFlow j fl).flow k).buffer ⊆ [b] ++ (s.flow k).buffer := by
  by_cases hk : k = j
  · subst hk
    rw [flow_setFlow_self, hfl]
    exact List.Subset.refl _
  · rw [flow_setFlow_of_ne _ _ hk, ht]
    exact List.subset_append_right _ _

theorem owned_isotpSend {d : List UInt8} {g : Grant} (hd : d.length ≠ 0)
    (hs : (s.flow (p, .output)).state = .idle) :
    (s.isotpSend cfg (some p) (some d) g).2.owned k ⊆
      (s.heap.lwcanBufferNew d.length g).1.toList ++ s.owned k := by
  unfold isotpSend
  dsimp only
  rw [if_neg hd, if_neg (by simp [hs])]
  split
  · next heap hn =>
    rw [hn]
    exact List.Subset.refl _
  · next b heap hn =>
    rw [hn]
    refine owned_subset ?_ fun f hf => Or.inl hf
    refine buffer_push (fun _ => rfl) ?_ k
    split <;> rfl

/-- Handing a message over gives the flow no buffer. -/
theorem owned_deliver (t : Node) (p : Nat) : (t.deliver p).owned k ⊆ t.owned k := by
  have hremove : ∀ (t : Node) (j : FlowId) (buffer : Option Nat),
      (t.isotpRemoveBuffer j buffer).owned k ⊆ t.owned k := by
    intro t j buffer
    unfold isotpRemoveBuffer
    split
    · exact List.Subset.refl _
    · split
      · refine owned_subset (B := []) ?_ fun f hf => Or.inl hf
        show (Node.flow (t.setFlow j _) k).buffer ⊆ (t.flow k).buffer
        by_cases hk : k = j
        · subst hk
          rw [flow_setFlow_self]
          exact List.erase_subset
        · rw [flow_setFlow_of_ne _ _ hk]
          exact List.Subset.refl _
      · exact List.Subset.refl _
  unfold deliver isotpReceived
  dsimp only
  split
  · split
    · exact List.Subset.refl _
    · exact List.Subset.refl _
  · split
    · exact hremove (t.emit _) _ _
    · exact List.Subset.refl _

theorem owned_receivedSf (frame : CanFrame) {g : Grant} (hs : (s.flow (p, .input)).state = .idle) :
    (s.receivedSf cfg p frame g).owned k ⊆
      (s.heap.lwcanBufferNew (isotpGetSfDl cfg frame.data) g).1.toList ++ s.owned k := by
  unfold receivedSf
  dsimp only
  rw [if_neg (by simp [hs])]
  split
  · next heap hn =>
    rw [hn]
    unfold callError
    split
    · exact List.Subset.refl _
    · exact List.Subset.refl _
  · next b heap hn =>
    rw [hn]
    refine List.Subset.trans (owned_deliver _ p) (owned_subset ?_ fun f hf => Or.inl hf)
    exact buffer_push (j := (p, .input)) (fun _ => rfl) rfl k

/-- Assigning to a flow leaves the chains alone. -/
theorem buffer_assign {t : Node} {B : List Nat} {j : FlowId} {fl : IsotpFlow}
    (ht : ∀ k, (t.flow k).buffer ⊆ B ++ (s.flow k).buffer) (hfl : fl.buffer = (t.flow j).buffer)
    (k : FlowId) : ((t.setFlow j fl).flow k).buffer ⊆ B ++ (s.flow k).buffer := by
  by_cases hk : k = j
  · subst hk
    rw [flow_setFlow_self, hfl]
    exact ht k
  · rw [flow_setFlow_of_ne _ _ hk]
    exact ht k

/-- `received_ff` from the return of the callback on links the buffer, and no assignment after that
touches the chain. -/
theorem owned_receivedFfStore (s : Node) (p : Nat) (frame : CanFrame) (b n : Nat) :
    (s.receivedFfStore cfg p frame b n).owned k ⊆ [b] ++ s.owned k := by
  refine owned_subset ?_ fun f hf => Or.inl ?_
  swap
  · rwa [receivedFfStore_suspended] at hf
  have hheap : ∀ (t : Node) (heap : Heap), ({ t with heap } : Node).flow = t.flow := fun _ _ => rfl
  unfold receivedFfStore storeFfData receivedFfOutput storeData
  by_cases hk : k = (p, .input)
  · subst hk
    simp only [lwcanTimeout_flow, flow_setFlow_self, emit_flow]
    exact List.Subset.refl _
  · simp only [lwcanTimeout_flow, flow_setFlow_of_ne _ _ hk, emit_flow, hheap]
    exact List.subset_append_right _ _

theorem owned_receivedFf (frame : CanFrame) {g : Grant} (hs : (s.flow (p, .input)).state = .idle) :
    (s.receivedFf cfg p frame g).owned k ⊆
      (s.heap.lwcanBufferNew (isotpGetFfDl cfg frame.data) g).1.toList ++ s.owned k := by
  have hsame : ∀ k, (s.flow k).buffer ⊆ [] ++ (s.flow k).buffer := fun k => List.Subset.refl _
  unfold receivedFf
  dsimp only
  rw [if_neg (by simp [hs])]
  split
  · next heap hn =>
    rw [hn]
    split
    · refine owned_subset (B := []) ?_ ?_
      · refine buffer_assign (t := { s with heap }) hsame ?_ k
        rfl
      · rintro f ⟨⟩
        exact Or.inr (List.Subset.refl _)
    · refine owned_subset (B := []) ?_ fun f hf => Or.inl hf
      refine buffer_assign (buffer_assign (t := { s with heap }) hsame ?_) ?_ k
      · rfl
      · rfl
  · next b heap hn =>
    rw [hn]
    split
    -- the callback runs first: the buffer is held by what is suspended
    · refine owned_subset (List.subset_append_right _ _) ?_
      rintro f ⟨⟩
      refine Or.inr ?_
      show (if k = (p, .input) then [b] else []) ⊆ [b]
      split
      · exact List.Subset.refl _
      · exact List.nil_subset _
    · exact owned_receivedFfStore { s with heap } p frame b _

/-- A step that asks for no buffer gives no flow one. -/
theorem owned_quiet (hs : Sound s) (hu : Unused cfg s) (hst : Node.step cfg s e = some s')
    (hsend : ∀ pcb data g, e ≠ .call (.isotpSend pcb data g))
    (hopen : ∀ canif frame g, e = .input canif frame g →
      frame.data 0 &&& frameTypeMask ≠ sfType ∧ frame.data 0 &&& frameTypeMask ≠ ffType)
        (k : FlowId) :
    s'.owned k ⊆ s.owned k := by
  rw [owned_view, owned_view]
  obtain ⟨p, d⟩ := k
  cases d with
  | output =>
    rcases output_moves hs hu hst p with hv | ⟨-, hm⟩
    · rw [hv]
      exact List.Subset.refl _
    · exact held_output hm hsend
  | input =>
    rcases input_moves hs hu hst p with hv | ⟨-, hm⟩
    · rw [hv]
      exact List.Subset.refl _
    · exact held_input hm rfl hopen

/-- **What a flow owns after a step**, it owned before, or it is the buffer that the step asked
for. -/
theorem owned_step (hs : Sound s) (hu : Unused cfg s) (hst : Node.step cfg s e = some s')
    (k : FlowId) : s'.owned k ⊆ (s.bufferNew cfg e).1.toList ++ s.owned k := by
  have hquiet := owned_quiet hs hu hst
  have hnext := (step_eq_some.mp hst).2.symm
  have hsame (h : s' = s) : s'.owned k ⊆ (s.bufferNew cfg e).1.toList ++ s.owned k := by
    rw [h]
    exact List.subset_append_right _ _
  cases e with
  | call c =>
    cases c with
    | isotpSend pcb data g =>
      cases pcb with
      | none => exact hsame hnext
      | some p =>
        cases data with
        | none => exact hsame hnext
        | some d =>
          change s' = (s.isotpSend cfg (some p) (some d) g).2 at hnext
          by_cases hd : d.length = 0
          · exact hsame (hnext.trans (by simp [isotpSend, hd]))
          -- a busy flow refuses, and nothing changes
          by_cases hi : (s.flow (p, .output)).state = .idle
          · rw [hnext, bufferNew_of_some (asks_send hd hi)]
            exact owned_isotpSend hd hi
          · refine hsame (hnext.trans ?_)
            rw [isotpSend, if_neg hd, if_pos hi]
    | _ =>
      refine List.Subset.trans (hquiet ?_ ?_ k) (List.subset_append_right _ _)
      · rintro _ _ _ ⟨⟩
      · rintro _ _ _ ⟨⟩
  | input canif frame g =>
    change s' = s.isotpInput cfg canif frame g at hnext
    cases hp : s.findPcb canif frame with
    | none => exact hsame (hnext.trans (isotpInput_none hp))
    | some p =>
      by_cases t₁ : frame.data 0 &&& frameTypeMask = sfType
      · rw [isotpInput_sf hp t₁] at hnext
        by_cases hi : (s.flow (p, .input)).state = .idle
        · rw [hnext, bufferNew_of_some (asks_sf hp hi t₁)]
          exact owned_receivedSf frame hi
        · exact hsame (hnext.trans (if_pos hi))
      by_cases t₂ : frame.data 0 &&& frameTypeMask = ffType
      · rw [isotpInput_ff hp t₂] at hnext
        by_cases hi : (s.flow (p, .input)).state = .idle
        · rw [hnext, bufferNew_of_some (asks_ff hp hi t₂)]
          exact owned_receivedFf frame hi
        · exact hsame (hnext.trans (if_pos hi))
      -- consecutive frames and flow control ask for nothing
      refine List.Subset.trans (hquiet ?_ ?_ k) (List.subset_append_right _ _)
      · rintro _ _ _ ⟨⟩
      · rintro _ _ _ ⟨⟩
        exact ⟨t₁, t₂⟩
  | _ =>
    refine List.Subset.trans (hquiet ?_ ?_ k) (List.subset_append_right _ _)
    · rintro _ _ _ ⟨⟩
    · rintro _ _ _ ⟨⟩

end Node

/-! ### The copies -/

/-- The offset and the number of bytes of a copy that the log tells of -/
def Obs.copy : Obs → Option (Nat × Nat)
  | .store _ off n _ => some (off, n)
  | .send _ d => some (0, d.length)
  | _ => none

/-- The buffer of a message that is opened -/
def Obs.openedBuffer : Obs → Option Nat
  | .opened _ b _ => some b
  | _ => none

namespace View

/-- What the log says of the copies in a transition of an input flow: each goes to the message that
the transition opens, whose length is what was asked for, or to the one at the head. -/
structure Copies (cfg : Config) (s : Node) (p : Nat) (e : Event) (v v' : View) (l : List Obs) :
  Prop where
  log : v'.log = v.log ++ l
  store : ∀ q off n cap, .store q off n cap ∈ l →
    (l.findSome? Obs.openedBuffer = none ∧ cap = v.capacity) ∨
      ∃ b w, l.findSome? Obs.openedBuffer = some b ∧ .opened p b w ∈ l ∧
        ((∃ canif frame g, e = .input canif frame g ∧ s.asks cfg e = some cap) ∨
          ∃ frame, s.suspended = some (.receivedFf p frame b cap))

end View

namespace Node

variable {cfg : Config} {s s' : Node} {k : FlowId} {p b n : Nat} {e : Event}

/-- A transition that copies nothing -/
theorem copies_none {v v' : View} {l : List Obs} (hl : v'.log = v.log ++ l)
    (h : ∀ o ∈ l, o.fills = false) : ∃ l, v.Copies cfg s p e v' l := by
  refine ⟨l, hl, fun q off n cap hmem => ?_⟩
  cases h _ hmem

/-- Handing a message over adds one entry, which says that it was handed over or released. -/
theorem deliver_log (v : View) (pcb : IsotpPcb) (p : Nat) :
    ∃ l, (v.deliver pcb p).log = v.log ++ l ∧ ∀ o ∈ l, o.fills = false := by
  unfold View.deliver
  split
  · exact ⟨[], (List.append_nil _).symm, by simp⟩
  · split
    · exact ⟨_, rfl, by simp [Obs.fills]⟩
    · exact ⟨_, rfl, by simp [Obs.fills]⟩

theorem openedBuffer_of_fills {o : Obs} (h : o.fills = false) : o.openedBuffer = none := by
  cases o with
  | opened => cases h
  | _ => rfl

theorem copies_step {v v' : View} (hm : InputStep cfg s p v e v') (hv : v = s.view (p, .input)) :
    ∃ l, v.Copies cfg s p e v' l := by
  have hif : ∀ (c : Bool) (o : Obs), o.fills = false →
      ∀ x ∈ (if c then [o] else []), x.fills = false := by
    intro c o ho x hx
    split at hx
    · rwa [List.mem_singleton.mp hx]
    · cases hx
  have hfail : ∀ (w : View) (c : Bool) (arg : Ptr) (err : Lwcanerr),
      ∃ l, (w.fail (p, .input) c arg err).log = w.log ++ l ∧ ∀ o ∈ l, o.fills = false := by
    intro w c arg err
    refine ⟨_, View.fail_log .., fun o ho => ?_⟩
    rcases List.mem_cons.mp ho with rfl | ho
    · rfl
    · exact hif c _ rfl o ho
  -- what the switch of `isotp_sent` logs is no copy
  have hswitch : ∀ {slot : Bool} {w w' : View}, InputSwitch (s.pcb p) p slot w w' → w.log = v.log →
      ∃ l, v.Copies cfg s p e w' l := by
    intro slot w w' hw hlog
    cases hw with
    | skip | ready => exact copies_none (l := []) (hlog.trans (List.append_nil _).symm) (by simp)
    | abort =>
      refine copies_none ((View.emitIf_log ..).trans (congrArg (· ++ _) hlog)) (hif _ _ ?_)
      rfl
  -- a message that is opened is filled at once
  have hopen : ∀ {w : View} {b off m cap : Nat} {wire : List UInt8} {l : List Obs},
      w.log = v.log ++ (.opened p b wire :: .store p off m cap :: l) → (∀ o ∈ l, o.fills = false) →
      ((∃ canif frame g, e = .input canif frame g ∧ s.asks cfg e = some cap) ∨
        ∃ frame, s.suspended = some (.receivedFf p frame b cap)) →
      ∃ l, v.Copies cfg s p e w l := by
    intro w b off m cap wire l hl hq hc
    refine ⟨_, hl, fun q off' n cap' hmem => Or.inr ⟨b, wire, rfl, List.mem_cons_self, ?_⟩⟩
    rcases List.mem_cons.mp hmem with h | hmem
    · cases h
    rcases List.mem_cons.mp hmem with h | hmem
    · cases h
      exact hc
    · cases hq _ hmem
  -- a consecutive frame goes to the message at the head
  have hcf : ∀ {w : View} {off m : Nat} {wire : List UInt8} {l : List Obs},
      w.log = v.log ++ (.consecutive p wire :: .store p off m v.capacity :: l) →
      (∀ o ∈ l, o.fills = false) → ∃ l, v.Copies cfg s p e w l := by
    intro w off m wire l hl hq
    refine ⟨_, hl, fun q off' n cap' hmem => Or.inl ⟨?_, ?_⟩⟩
    · rw [List.findSome?_eq_none_iff]
      intro o ho
      rcases List.mem_cons.mp ho with rfl | ho
      · rfl
      rcases List.mem_cons.mp ho with rfl | ho
      · rfl
      · exact openedBuffer_of_fills (hq o ho)
    · rcases List.mem_cons.mp hmem with h | hmem
      · cases h
      rcases List.mem_cons.mp hmem with h | hmem
      · cases h
        rfl
      · cases hq _ hmem
  have happend : ∀ (o o' : Obs) (l : List Obs), (v.log ++ [o] ++ [o']) ++ l =
      v.log ++ (o :: o' :: l) := by
    simp
  have hidle (hs : v.flow.state = .idle) : (s.flow (p, .input)).state = .idle := by
    rwa [hv] at hs
  have hquiet : ∀ {w w' : View}, w.log = v.log →
      (∃ l, w'.log = w.log ++ l ∧ ∀ o ∈ l, o.fills = false) → ∃ l, v.Copies cfg s p e w' l := by
    rintro w w' hw ⟨l, hl, hq⟩
    rw [hw] at hl
    exact copies_none hl hq
  -- a single frame, a first frame and a consecutive one store something, and nothing else does
  cases hm with
  | sfMemory =>
    refine copies_none (View.emitIf_log ..) (hif _ _ ?_)
    rfl
  | sf hp ht hs hb hl =>
    obtain ⟨l, hlog, hq⟩ := deliver_log (View.storeSf cfg _ p _) (s.pcb p) p
    exact hopen (hlog.trans (happend _ _ l)) hq
      (Or.inl ⟨_, _, _, rfl, (asks_sf hp (hidle hs) ht).trans (congrArg some hl.symm)⟩)
  | ff hp ht hs hb hl =>
    exact hopen (l := []) (List.append_assoc v.log [_] [_]) (by simp)
      (Or.inl ⟨_, _, _, rfl, (asks_ff hp (hidle hs) ht).trans (congrArg some hl.symm)⟩)
  | resumeFf hs =>
    exact hopen (l := []) (List.append_assoc v.log [_] [_]) (by simp) (Or.inr ⟨_, hs⟩)
  | cfWrong => exact copies_none (List.append_assoc _ [_] [_]) (by simp [Obs.fills])
  | cfLast _ _ _ _ hv' =>
    obtain ⟨l, hlog, hq⟩ := deliver_log (View.setState _ .idle) (s.pcb p) p
    subst hv'
    exact hcf (hlog.trans (happend _ _ l)) hq
  | cf _ _ _ _ hv' | block _ _ _ _ hv' =>
    subst hv'
    exact hcf (l := []) (List.append_assoc v.log [_] [_]) (by simp)
  | reject =>
    obtain ⟨l, hl, hq⟩ := hfail (View.emit _ _) (s.pcb p).error (s.pcb p).callbackArg _
    refine copies_none (hl.trans (List.append_assoc _ [_] l)) fun o ho => ?_
    rcases List.mem_cons.mp ho with rfl | ho
    · rfl
    · exact hq o ho
  | expire => exact hquiet rfl (hfail _ _ _ _)
  | confirm _ hw => exact hswitch hw rfl
  | refuse =>
    refine copies_none (View.refused_log ..) fun o ho => ?_
    rcases List.mem_cons.mp ho with rfl | ho
    · rfl
    · exact hif _ _ rfl o ho
  | resume _ hw => exact hswitch hw rfl
  | ffMemory | resumeFfMemory | skip | new =>
    exact copies_none (l := []) (List.append_nil _).symm (by simp)
  | ffMemoryCallback | ffCallback | output | release => exact copies_none rfl (by simp [Obs.fills])

/-! ### The message that is opened -/

/-- What the log of a flow gains in a step -/
theorem added_of_log {l : List Obs} (h : (s'.view k).log = (s.view k).log ++ l) :
    s.added s' k = l := by
  show ((s'.view k).log).drop ((s.view k).log).length = l
  rw [h, List.drop_left]

/-- `t` comes from `s`, and a message that is opened on the way is in the buffer `b`. -/
def Opens (b : Option Nat) (s t : Node) : Prop :=
  ∃ l, t.log = s.log ++ l ∧ ∀ q a wire, .opened q a wire ∈ l → b = some a

namespace Opens

variable {t t' : Node} {B : Option Nat}

theorem refl : Opens B s s := ⟨[], (List.append_nil _).symm, by simp⟩

theorem congr (h : Opens B s t) (hl : t'.log = t.log) : Opens B s t' := by
  obtain ⟨l, hlog, hq⟩ := h
  exact ⟨l, hl.trans hlog, hq⟩

theorem emit (h : Opens B s t) {o : Obs} (ho : ∀ a, o.openedBuffer = some a → B = some a) :
    Opens B s (t.emit o) := by
  obtain ⟨l, hlog, hq⟩ := h
  refine ⟨l ++ [o], ?_, fun q a wire hmem => ?_⟩
  · rw [← List.append_assoc, ← hlog]
    rfl
  · rcases List.mem_append.mp hmem with hmem | hmem
    · exact hq q a wire hmem
    · exact ho a (List.mem_singleton.mp hmem ▸ rfl)

theorem isotpRemoveBuffer (h : Opens B s t) (j : FlowId) (buffer : Option Nat) :
    Opens B s (t.isotpRemoveBuffer j buffer) := by
  refine h.congr ?_
  unfold Node.isotpRemoveBuffer
  split
  · rfl
  · split <;> rfl

theorem deliver (h : Opens B s t) (p : Nat) : Opens B s (t.deliver p) := by
  unfold Node.deliver isotpReceived
  dsimp only
  split
  · split
    · exact h.emit (by simp [Obs.openedBuffer])
    · exact h
  · split
    · exact (h.emit (by simp [Obs.openedBuffer])).isotpRemoveBuffer _ _
    · exact h

theorem receivedSf (frame : CanFrame) {g : Grant} (hs : (s.flow (p, .input)).state = .idle) :
    Opens (s.heap.lwcanBufferNew (isotpGetSfDl cfg frame.data) g).1 s
      (s.receivedSf cfg p frame g) := by
  unfold Node.receivedSf
  dsimp only
  rw [if_neg (by simp [hs])]
  split
  · unfold callError
    split
    · exact refl.emit (by simp [Obs.openedBuffer])
    · exact refl
  · next b heap hn =>
    rw [hn]
    refine Opens.deliver ?_ p
    refine Opens.congr (Opens.emit (o := .store p 0 _ _) (Opens.emit (o := .opened p b frame.wire)
      refl ?_) (by simp [Obs.openedBuffer])) rfl
    simp [Obs.openedBuffer]

theorem receivedFf (frame : CanFrame) {g : Grant} (hs : (s.flow (p, .input)).state = .idle) :
    Opens (s.heap.lwcanBufferNew (isotpGetFfDl cfg frame.data) g).1 s
      (s.receivedFf cfg p frame g) := by
  unfold Node.receivedFf
  dsimp only
  rw [if_neg (by simp [hs])]
  split
  · split
    · exact refl.emit (by simp [Obs.openedBuffer])
    · exact refl
  · next b heap hn =>
    rw [hn]
    split
    · exact refl.emit (by simp [Obs.openedBuffer])
    · unfold receivedFfStore storeFfData receivedFfOutput
      refine Opens.congr (Opens.emit (o := .store p 0 _ _) (Opens.emit (o := .opened p b frame.wire)
        refl ?_) (by simp [Obs.openedBuffer])) rfl
      simp [Obs.openedBuffer]

/-- What the log of a flow gains -/
theorem added (h : Opens B s t) {q : Nat} {wire : List UInt8}
    (ho : .opened q b wire ∈ s.added t k) : B = some b := by
  obtain ⟨l, hlog, hq⟩ := h
  have hview : (t.view k).log = (s.view k).log ++ l.filter (·.flow = k) := by
    show t.log.filter _ = s.log.filter _ ++ _
    rw [hlog, List.filter_append]
  rw [added_of_log hview] at ho
  exact hq q b wire (List.mem_filter.mp ho).1

end Opens

/-- The message that a single frame or a first frame opens is in the buffer that was asked for. -/
theorem opened_new {canif q : Nat} {frame : CanFrame} {g : Grant} {wire : List UInt8}
    (ha : s.asks cfg (.input canif frame g) = some n)
    (h : .opened q b wire ∈ s.added (s.isotpInput cfg canif frame g) k) :
    (s.bufferNew cfg (.input canif frame g)).1 = some b := by
  rw [bufferNew_of_some ha]
  obtain ⟨p, hp, hs, ⟨ht, rfl⟩ | ⟨ht, rfl⟩⟩ := asks_input_some ha
  · rw [isotpInput_sf hp ht] at h
    exact (Opens.receivedSf frame hs).added h
  · rw [isotpInput_ff hp ht] at h
    exact (Opens.receivedFf frame hs).added h

/-! ### Where a step copies to -/

/-- The buffer that a step's copies for a flow go to: that of the message that is accepted for
sending, that of the one that is opened, or the one at the head -/
def written (s s' : Node) (k : FlowId) : Option Nat :=
  match k.2 with
  | .output => s'.head k
  | .input => ((s.added s' k).findSome? Obs.openedBuffer).or (s.head k)

/-- **What a step copies for a flow**: the address and the number of bytes -/
def copies (s s' : Node) (k : FlowId) : List (Nat × Nat) :=
  (s.written s' k).elim [] fun b => (s.added s' k).filterMap fun o =>
    o.copy.map fun x => ((s'.heap.buffer b).payload + x.1, x.2)

/-- In a transition of an output flow, only a message that is accepted is copied, to a buffer of its
length. -/
theorem sends_step {v v' : View} (hm : OutputStep cfg s p v e v') : ∃ l, v'.log = v.log ++ l ∧
    ∀ o ∈ l, ∀ x ∈ o.copy, x.1 = 0 ∧ ∃ b buf rest, v'.chain = (b, buf) :: rest ∧
      buf.length = x.2 := by
  -- most transitions copy nothing
  have hquiet : ∀ {w : View}, (∃ l, w.log = v.log ++ l ∧ ∀ o ∈ l, o.copy = none) →
      ∃ l, w.log = v.log ++ l ∧
        ∀ o ∈ l, ∀ x ∈ o.copy, x.1 = 0 ∧ ∃ b buf rest, w.chain = (b, buf) :: rest ∧
          buf.length = x.2 := by
    rintro w ⟨l, hl, hq⟩
    refine ⟨l, hl, fun o ho x hx => ?_⟩
    rw [hq o ho] at hx
    cases hx
  have hif : ∀ {w u : View} (c : Bool)
      (o : Obs), (∃ l, w.log = v.log ++ l ∧ ∀ o ∈ l, o.copy = none) →
      o.copy = none → u.log = w.log ++ (if c then [o] else []) →
      ∃ l, u.log = v.log ++ l ∧ ∀ o ∈ l, o.copy = none := by
    rintro w u c o ⟨l, hl, hq⟩ ho hu
    refine ⟨_, hu.trans ((congrArg (· ++ _) hl).trans (List.append_assoc ..)), fun x hx => ?_⟩
    rcases List.mem_append.mp hx with hx | hx
    · exact hq x hx
    · split at hx
      · rwa [List.mem_singleton.mp hx]
      · cases hx
  have hone : ∀ {w u : View} (o : Obs), (∃ l, w.log = v.log ++ l ∧ ∀ o ∈ l, o.copy = none) →
      o.copy = none → u.log = w.log ++ [o] → ∃ l, u.log = v.log ++ l ∧ ∀ o ∈ l, o.copy = none :=
    fun o hw ho hu => hif true o hw ho hu
  have hrefl : ∀ {w : View}, w.log = v.log → ∃ l, w.log = v.log ++ l ∧ ∀ o ∈ l, o.copy = none :=
    fun hw => ⟨[], hw.trans (List.append_nil _).symm, by simp⟩
  have hfail : ∀ (w : View) (c : Bool) (arg : Ptr) (err : Lwcanerr),
      (∃ l, w.log = v.log ++ l ∧ ∀ o ∈ l, o.copy = none) →
      ∃ l, (w.fail (p, .output) c arg err).log = v.log ++ l ∧ ∀ o ∈ l, o.copy = none := by
    intro w c arg err hw
    exact hif c (.error (p, .output) arg err)
      (hone (u := w.drop (p, .output)) (.dropped (p, .output) _)
      hw rfl rfl) rfl (View.emitIf_log ..)
  have hswitch : ∀ {slot : Bool} {w w' : View}, OutputSwitch (s.pcb p) p slot w w' → w.log = v.log →
      ∃ l, w'.log = v.log ++ l ∧ ∀ o ∈ l, o.copy = none := by
    intro slot w w' hw hlog
    cases hw with
    | skip | cf => exact hrefl hlog
    | complete => exact hif _ _ (hrefl hlog) rfl (View.emitIf_log ..)
    | ff | block => exact hone (.waitFc p) (hrefl hlog) rfl rfl
  cases hm with
  | @send d g b buf hs hd hl hg hb hbl =>
    -- the message is copied from its first byte on into the buffer that is now at the head
    refine ⟨[.send p d], rfl, fun o ho x hx => ?_⟩
    obtain rfl := List.mem_singleton.mp ho
    obtain rfl := Option.some.inj hx
    exact ⟨rfl, b, buf, v.chain, rfl, hbl⟩
  | skip | new => exact hquiet (hrefl rfl)
  | output => exact hquiet (hone (.output ..) (hrefl rfl) rfl rfl)
  | reject => exact hquiet (hfail _ _ _ _ (hone (.output ..) (hrefl rfl) rfl rfl))
  | expire => exact hquiet (hfail _ _ _ _ (hrefl rfl))
  | confirm _ hw => exact hquiet (hswitch hw rfl)
  | refuse =>
    refine hquiet
      (hif _ _ (hone (u := View.drop _ (p, .output)) (.dropped (p, .output) _) (hrefl rfl) rfl
      rfl) ?_ ((View.refused_log ..).trans (List.append_cons ..)))
    rfl
  | resume _ hw => exact hquiet (hswitch hw rfl)
  | wait | proceed => exact hquiet (hone (.flowControl ..) (hrefl rfl) rfl rfl)
  | abort => exact hquiet (hfail _ _ _ _ (hone (.flowControl ..) (hrefl rfl) rfl rfl))

/-! ### The copies are inside -/

/-- What the allocator answers is fresh. -/
theorem Enabled.fresh (he : s.Enabled e) : e.grant.Fresh s.heap.blocks := by
  have hnone : Grant.Fresh ⟨none, none, fun _ => 0⟩ s.heap.blocks := ⟨nofun, nofun⟩
  cases e with
  | call c =>
    cases c with
    | isotpSend => exact he.2.2
    | _ => exact hnone
  | input => exact he.2
  | _ => exact hnone

/-- **The new buffer** has the payload that was granted, and the length that was asked for. -/
theorem bufferNew_some (hn : (s.bufferNew cfg e).1 = some b) :
    ∃ n payload, s.asks cfg e = some n ∧ n ≠ 0 ∧ e.grant.header = some b ∧
      e.grant.payload = some payload ∧
      (s.bufferNew cfg e).2.blocks = payload :: b :: s.heap.blocks ∧
      (s.bufferNew cfg e).2.buffer = Function.update s.heap.buffer b
      ⟨payload, n, e.grant.garbage⟩ := by
  cases ha : s.asks cfg e with
  | none =>
    rw [bufferNew_of_none ha] at hn
    cases hn
  | some n =>
    rw [bufferNew_of_some ha] at hn ⊢
    unfold Heap.lwcanBufferNew at hn ⊢
    by_cases hz : n = 0
    · rw [if_pos hz] at hn
      cases hn
    rw [if_neg hz] at hn ⊢
    -- a refused first block ends it, a refused second one gives the first back
    cases hh : e.grant.header with
    | none =>
      rw [hh] at hn
      cases hn
    | some a =>
      cases hp : e.grant.payload with
      | none =>
        rw [hh, hp] at hn
        cases hn
      | some payload =>
        rw [hh, hp] at hn
        obtain rfl : a = b := Option.some.inj hn
        exact ⟨n, payload, rfl, hz, rfl, rfl, rfl, rfl⟩

/-- Without a new buffer, the heap is as before. -/
theorem bufferNew_none (he : s.Enabled e) (hn : (s.bufferNew cfg e).1 = none) :
    (s.bufferNew cfg e).2 = s.heap := by
  cases ha : s.asks cfg e with
  | none => rw [bufferNew_of_none ha]
  | some n =>
    rw [bufferNew_of_some ha] at hn ⊢
    exact Heap.lwcanBufferNew_none he.fresh (Prod.ext hn rfl)

/-- A buffer that was owned before keeps its payload and its length. -/
theorem buffer_old (hh : HeapOk s) (hst : Node.step cfg s e = some s') (hb : b ∈ s.owned k) :
    HeapOk.SameShape s.heap s'.heap b := by
  have he := (step_eq_some.mp hst).1
  have hsame : (s.bufferNew cfg e).2.buffer b = s.heap.buffer b := by
    cases hn : (s.bufferNew cfg e).1 with
    | none => rw [bufferNew_none he hn]
    | some a =>
      obtain ⟨n, payload, -, -, hhd, -, -, hbuf⟩ := bufferNew_some hn
      rw [hbuf, Function.update_of_ne]
      rintro rfl
      exact (he.fresh.1 b hhd).1 (hh.header hb)
  have hshape := (noNew_step hst).shape b
  unfold HeapOk.SameShape at hshape ⊢
  rwa [hsame] at hshape

theorem buffer_new (hst : Node.step cfg s e = some s') (hn : (s.bufferNew cfg e).1 = some b) :
    ∃ n payload, s.asks cfg e = some n ∧ e.grant.payload = some payload ∧
      (s'.heap.buffer b).payload = payload ∧ (s'.heap.buffer b).length = n := by
  obtain ⟨n, payload, ha, -, -, hp, -, hbuf⟩ := bufferNew_some hn
  obtain ⟨hpay, hlen⟩ := (noNew_step hst).shape b
  rw [hbuf, Function.update_self] at hpay hlen
  exact ⟨n, payload, ha, hp, hpay, hlen⟩

/-- A copy goes to the buffer that the step writes to. -/
theorem exists_written {r : Nat × Nat} (h : r ∈ s.copies s' k) : ∃ b, s.written s' k = some b := by
  unfold copies at h
  cases hw : s.written s' k with
  | none =>
    rw [hw] at h
    cases h
  | some b => exact ⟨b, rfl⟩

/-- **Copies stay inside.** A step copies into the payload of a buffer that the flow owned before,
or of the new one. -/
theorem copies_inside (hs : Sound s) (hu : Unused cfg s) (hst : Node.step cfg s e = some s')
    (hc : ∀ p, Contained cfg (s'.view (p, .input))) {a m : Nat} (h : (a, m) ∈ s.copies s' k)
    (hw : s.written s' k = some b) : (b ∈ s.owned k ∨ (s.bufferNew cfg e).1 = some b) ∧
      (s'.heap.buffer b).payload ≤ a ∧
      a + m ≤ (s'.heap.buffer b).payload + (s'.heap.buffer b).length := by
  -- the region comes from an entry that the step has added to the log
  unfold copies at h
  rw [hw] at h
  obtain ⟨o, ho, hmap⟩ := List.mem_filterMap.mp h
  obtain ⟨x, hx, hax⟩ := Option.map_eq_some_iff.mp hmap
  obtain ⟨rfl, rfl⟩ := Prod.mk.inj hax
  clear hmap hax
  obtain ⟨p, d⟩ := k
  cases d with
  | output =>
    -- an output flow is written to when a message is sent, and then from its first byte on
    rcases output_moves hs hu hst p with hv | ⟨-, hm⟩
    · rw [added_of_log (l := []) (by rw [hv, List.append_nil])] at ho
      cases ho
    · obtain ⟨l, hl, hcopy⟩ := sends_step hm
      rw [added_of_log hl] at ho
      obtain ⟨hzero, b', buf, rest, hchain, hlen⟩ := hcopy o ho x hx
      obtain ⟨c, cs, hbuf, hpair, -⟩ := List.map_eq_cons_iff.mp hchain
      obtain ⟨rfl, rfl⟩ := Prod.mk.inj hpair
      -- the buffer written to is the one at the head
      have hhead : s'.head (p, .output) = some c := by
        unfold head
        rw [show (s'.flow (p, .output)).buffer = c :: cs from hbuf]
        rfl
      obtain rfl : c = b := Option.some.inj (hhead.symm.trans hw)
      have hmem : c ∈ s'.owned (p, .output) :=
        mem_owned_of_mem (by rw [show (s'.flow (p, .output)).buffer = c :: cs from hbuf]; simp)
      refine ⟨?_, ?_, ?_⟩
      · rcases List.mem_append.mp (owned_step hs hu hst _ hmem) with hnew | hold
        · exact Or.inr (Option.mem_toList.mp hnew)
        · exact Or.inl hold
      · exact Nat.le_add_right _ _
      · rw [hzero, hlen]
        exact le_refl _
  | input =>
    -- an input flow is written to by what the peer sends
    rcases input_moves hs hu hst p with hv | ⟨-, hm⟩
    · rw [added_of_log (l := []) (by rw [hv, List.append_nil])] at ho
      cases ho
    · obtain ⟨l, hl, hstore⟩ := copies_step hm rfl
      have hadded := added_of_log hl
      rw [hadded] at ho
      have hmem : o ∈ s'.log.filter (·.flow = (p, .input)) := by
        show o ∈ (s'.view (p, .input)).log
        rw [hl]
        exact List.mem_append_right _ ho
      have hflow : o.flow = (p, .input) := by simpa using (List.mem_filter.mp hmem).2
      cases o with
      | store q off n cap =>
        obtain rfl := Option.some.inj hx
        have hin := (hc p).copies q off n cap hmem
        have hbound : cap ≤ (s'.heap.buffer b).length →
            (s'.heap.buffer b).payload ≤ (s'.heap.buffer b).payload + off ∧
              (s'.heap.buffer b).payload + off + n ≤
                (s'.heap.buffer b).payload + (s'.heap.buffer b).length := by
          intro hle
          omega
        have htarget : ((s.added s' (p, .input)).findSome? Obs.openedBuffer).or
            (s.head (p, .input)) =
          some b := hw
        rw [hadded] at htarget
        rcases hstore q off n cap ho with ⟨hnone, hcap⟩ | ⟨b', wire, hsome, hopened, hfrom⟩
        · -- to the message at the head
          rw [hnone, Option.none_or] at htarget
          have hown : b ∈ s.owned (p, .input) := mem_owned_of_mem (List.mem_of_mem_head? htarget)
          refine ⟨Or.inl hown, hbound ?_⟩
          rw [(buffer_old hs.heap hst hown).2, hcap, view_capacity, headBuffer, htarget]
          exact le_refl _
        · rw [hsome, Option.some_or] at htarget
          obtain rfl : b' = b := Option.some.inj htarget
          rcases hfrom with ⟨canif, frame, g, rfl, ha⟩ | ⟨frame, hsus⟩
          · -- to a message that a frame has just opened
            have hop : .opened p b' wire ∈ s.added (s.isotpInput cfg canif frame g)
                (p, .input) := by
              rw [show s.isotpInput cfg canif frame g = s' from (step_eq_some.mp hst).2, hadded]
              exact hopened
            have hnew := opened_new ha hop
            obtain ⟨n', payload, ha', -, -, hlen⟩ := buffer_new hst hnew
            refine ⟨Or.inr hnew, hbound ?_⟩
            rw [hlen, Option.some.inj (ha.symm.trans ha')]
          · -- to a message that was opened before its first-frame callback
            have hown : b' ∈ s.owned (p, .input) := by
              rw [owned, hsus]
              exact List.mem_append_left _ (by simp [Suspended.owned])
            refine ⟨Or.inl hown, hbound ?_⟩
            rw [(buffer_old hs.heap hst hown).2, hs.heap.opening hsus]
      | send => cases hflow
      | _ => cases hx

end Node
end Lwcan
