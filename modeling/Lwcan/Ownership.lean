import Lwcan.System

/-!
# Who owns which buffer

Every buffer on a flow's chain, and the buffer a suspended `received_ff` holds, is two allocated
blocks that belong to it alone. The statement is `HeapOk`, and it holds of every run of a node
(`HeapOk.run`), whatever the peer, the drivers and the application do: `isotp_remove_buffer` deletes
a buffer only after it has found it on the chain.

Three things can happen to the heap, and each has its rule: nothing changes hands
(`HeapOk.transfer`), a new buffer goes to a flow (`HeapOk.alloc`), a buffer is deleted
(`HeapOk.isotpRemoveBuffer`).
-/

namespace Lwcan

/-- The buffer a suspended function holds for a flow. -/
def Suspended.owned : Suspended → FlowId → List Nat
  | .receivedFf p _ b _, k => if k = (p, .input) then [b] else []
  | .receivedFfOutput _, _ | .isotpSent _, _ => []

namespace Node

variable {cfg : Config} {s s' : Node} {k k' : FlowId} {p b : Nat}

/-! ### Reading the parts of a node -/

@[simp] theorem flow_setFlow_self (s : Node) (k : FlowId) (fl : IsotpFlow) :
    (s.setFlow k fl).flow k = fl := by
  simp [flow, setFlow]

theorem flow_setFlow_of_ne (s : Node) (fl : IsotpFlow) (h : k' ≠ k) :
    (s.setFlow k fl).flow k' = s.flow k' := by
  unfold flow setFlow
  by_cases hp : k'.1 = k.1
  · rw [hp]
    simp only [Function.update_self]
    exact IsotpPcb.flow_setFlow_of_ne _ _ fun hd => h (Prod.ext hp hd)
  · simp [hp]

@[simp] theorem emit_flow (s : Node) (o : Obs) : (s.emit o).flow k = s.flow k := rfl
@[simp] theorem emit_heap (s : Node) (o : Obs) : (s.emit o).heap = s.heap := rfl
@[simp] theorem emit_suspended (s : Node) (o : Obs) : (s.emit o).suspended = s.suspended := rfl
@[simp] theorem setFlow_heap (s : Node) (fl : IsotpFlow) : (s.setFlow k fl).heap = s.heap := rfl
@[simp] theorem setFlow_suspended (s : Node) (fl : IsotpFlow) :
    (s.setFlow k fl).suspended = s.suspended := rfl
@[simp] theorem lwcanTimeout_flow (s : Node) (n : Nat) (h : Handler) (a : Ptr) :
    (s.lwcanTimeout n h a).flow k = s.flow k := rfl
@[simp] theorem lwcanUntimeout_flow (s : Node) (h : Handler) (a : Ptr) :
    (s.lwcanUntimeout h a).flow k = s.flow k := rfl

@[simp] theorem isotpRemoveBuffer_suspended (s : Node) (k : FlowId) (buffer : Option Nat) :
    (s.isotpRemoveBuffer k buffer).suspended = s.suspended := by
  unfold isotpRemoveBuffer
  split
  · rfl
  · split <;> rfl

/-- The buffers that belong to a flow. -/
def owned (s : Node) (k : FlowId) : List Nat :=
  s.suspended.elim [] (·.owned k) ++ (s.flow k).buffer

theorem owned_eq {f : Option Suspended} {l : List Nat} (hs : s.suspended = f)
    (hl : (s.flow k).buffer = l) : s.owned k = f.elim [] (·.owned k) ++ l := by
  rw [owned, hs, hl]

theorem mem_owned_of_mem (h : b ∈ (s.flow k).buffer) : b ∈ s.owned k :=
  List.mem_append_right _ h

/-- **Ownership.** The buffers of the flows are allocated, and no two share a block. -/
structure HeapOk (s : Node) : Prop where
  nodup : ∀ k, (s.owned k).Nodup
  unique : ∀ {k k' b}, b ∈ s.owned k → b ∈ s.owned k' → k = k'
  header : ∀ {k b}, b ∈ s.owned k → b ∈ s.heap.blocks
  payload : ∀ {k b}, b ∈ s.owned k → (s.heap.buffer b).payload ∈ s.heap.blocks
  apart : ∀ {k k' b b'}, b ∈ s.owned k → b' ∈ s.owned k' → (s.heap.buffer b).payload ≠ b'
  payload_inj : ∀ {k k' b b'}, b ∈ s.owned k → b' ∈ s.owned k' →
    (s.heap.buffer b).payload = (s.heap.buffer b').payload → b = b'
  opening : ∀ {p frame b n}, s.suspended = some (.receivedFf p frame b n) →
    (s.heap.buffer b).length = n

namespace HeapOk

theorem initial (cfg : Config) : HeapOk (lwcanInit cfg) := by
  have hn : ∀ {k b}, b ∉ (lwcanInit cfg).owned k := by
    rintro ⟨p, d⟩ b
    cases d <;> exact List.not_mem_nil
  constructor
  · rintro ⟨p, d⟩
    cases d <;> exact List.nodup_nil
  · exact fun h => absurd h hn
  · exact fun h => absurd h hn
  · exact fun h => absurd h hn
  · exact fun h => absurd h hn
  · exact fun h => absurd h hn
  · intro p frame b n h
    cases h

/-- The buffer at an address keeps its payload block and its length. -/
def SameShape (h h' : Heap) (b : Nat) : Prop :=
  (h'.buffer b).payload = (h.buffer b).payload ∧ (h'.buffer b).length = (h.buffer b).length

/-- **Nothing changes hands.** Flows may lose buffers from sight, and buffers may be written to. -/
theorem transfer (h : HeapOk s) (ho : ∀ k, (s'.owned k).Sublist (s.owned k))
    (hb : s'.heap.blocks = s.heap.blocks)
    (hs : ∀ b, SameShape s.heap s'.heap b)
    (hf : ∀ f, s'.suspended = some f → s.suspended = some f ∨ ∀ k, f.owned k = []) : HeapOk s' := by
  -- what a flow owns it owned before
  have hm : ∀ {k b}, b ∈ s'.owned k → b ∈ s.owned k := fun hb => (ho _).subset hb
  constructor
  · exact fun k => (h.nodup k).sublist (ho k)
  · exact fun h₁ h₂ => h.unique (hm h₁) (hm h₂)
  · exact fun h₁ => hb ▸ h.header (hm h₁)
  · intro k b h₁
    rw [hb, (hs b).1]
    exact h.payload (hm h₁)
  · intro k k' b b' h₁ h₂
    rw [(hs b).1]
    exact h.apart (hm h₁) (hm h₂)
  · intro k k' b b' h₁ h₂ he
    rw [(hs b).1, (hs b').1] at he
    exact h.payload_inj (hm h₁) (hm h₂) he
  · intro p frame b n hsus
    rcases hf _ hsus with hsus | hsus
    · rw [(hs b).2]
      exact h.opening hsus
    · simpa [Suspended.owned] using hsus (p, .input)

theorem SameShape.refl (h : Heap) (b : Nat) : SameShape h h b := ⟨rfl, rfl⟩

/-- A copy into a buffer keeps every block and every buffer's shape. -/
theorem copyTo_shape (h : Heap) (buffer : Option Nat) (source : Nat → UInt8) (length offset : Nat) :
    (h.lwcanBufferCopyToOffset buffer source length offset).2.blocks = h.blocks ∧
      ∀ b, SameShape h (h.lwcanBufferCopyToOffset buffer source length offset).2 b := by
  unfold Heap.lwcanBufferCopyToOffset
  split
  · exact ⟨rfl, SameShape.refl h⟩
  · next a =>
    split
    · exact ⟨rfl, SameShape.refl h⟩
    · refine ⟨rfl, fun b => ?_⟩
      by_cases hb : b = a
      · subst hb
        simp [SameShape]
      · simp [SameShape, hb]

/-- **A new buffer** goes to one flow. -/
theorem alloc (h : HeapOk s) {length : Nat} {g : Grant} {heap : Heap}
    (hg : g.Fresh s.heap.blocks) (hn : s.heap.lwcanBufferNew length g = (some b, heap))
    (ho : s'.owned k = b :: s.owned k) (ho' : ∀ k', k' ≠ k → s'.owned k' = s.owned k')
    (hb : s'.heap.blocks = heap.blocks) (hs : ∀ b, SameShape heap s'.heap b)
    (hf : ∀ p frame b' n, s'.suspended = some (.receivedFf p frame b' n) →
      s.suspended = some (.receivedFf p frame b' n) ∨ b' = b ∧ n = length) : HeapOk s' := by
  obtain ⟨pl, -, hb₁, hp₁, hne, rfl⟩ := Heap.lwcanBufferNew_some hg hn
  have hnb : ∀ {k'}, b ∉ s.owned k' := fun hm => hb₁ (h.header hm)
  -- what is owned is the new buffer, or was owned before
  have hold : ∀ {k' b'}, b' ∈ s'.owned k' → (k' = k ∧ b' = b) ∨ b' ∈ s.owned k' := by
    intro k' b' hm
    by_cases hk : k' = k
    · subst hk
      rw [ho] at hm
      exact (List.mem_cons.mp hm).imp (fun e => ⟨rfl, e⟩) id
    · exact Or.inr (ho' _ hk ▸ hm)
  have hpb : (s'.heap.buffer b).payload = pl := by rw [(hs b).1]; simp
  -- and those owned before keep their blocks
  have hpo : ∀ {k' b'}, b' ∈ s.owned k' →
      (s'.heap.buffer b').payload = (s.heap.buffer b').payload ∧
        (s'.heap.buffer b').length = (s.heap.buffer b').length := by
    intro k' b' hm
    have : b' ≠ b := fun e => hnb (e ▸ hm)
    rw [(hs b').1, (hs b').2]
    simp [this]
  constructor
  · intro k'
    by_cases hk : k' = k
    · subst hk
      rw [ho]
      exact List.nodup_cons.mpr ⟨hnb, h.nodup _⟩
    · rw [ho' _ hk]
      exact h.nodup _
  · intro k₁ k₂ b' h₁ h₂
    rcases hold h₁ with ⟨rfl, rfl⟩ | h₁ <;> rcases hold h₂ with ⟨rfl, he⟩ | h₂
    · rfl
    · exact absurd h₂ hnb
    · exact absurd (he ▸ h₁) hnb
    · exact h.unique h₁ h₂
  · intro k' b' h₁
    rw [hb]
    rcases hold h₁ with ⟨rfl, rfl⟩ | h₁
    · simp
    · simp [h.header h₁]
  · intro k' b' h₁
    rw [hb]
    rcases hold h₁ with ⟨rfl, rfl⟩ | h₁
    · simp [hpb]
    · rw [(hpo h₁).1]
      simp [h.payload h₁]
  · intro k₁ k₂ b₁ b₂ h₁ h₂ he
    rcases hold h₁ with ⟨rfl, rfl⟩ | h₁ <;> rcases hold h₂ with ⟨rfl, rfl⟩ | h₂
    · exact hne (hpb ▸ he).symm
    · rw [hpb] at he
      exact hp₁ (he ▸ h.header h₂)
    · rw [(hpo h₁).1] at he
      exact hb₁ (he ▸ h.payload h₁)
    · rw [(hpo h₁).1] at he
      exact h.apart h₁ h₂ he
  · intro k₁ k₂ b₁ b₂ h₁ h₂ he
    rcases hold h₁ with ⟨rfl, rfl⟩ | h₁ <;> rcases hold h₂ with ⟨rfl, rfl⟩ | h₂
    · rfl
    · rw [hpb, (hpo h₂).1] at he
      exact absurd (he ▸ h.payload h₂) hp₁
    · rw [hpb, (hpo h₁).1] at he
      exact absurd (he ▸ h.payload h₁) hp₁
    · rw [(hpo h₁).1, (hpo h₂).1] at he
      exact h.payload_inj h₁ h₂ he
  · intro p frame b' n hsus
    rcases hf p frame b' n hsus with hsus | ⟨rfl, rfl⟩
    · have hm : b' ∈ s.owned (p, .input) := by
        simp [owned, hsus, Suspended.owned]
      rw [(hpo hm).2]
      exact h.opening hsus
    · rw [(hs b').2]
      simp

/-- **A buffer is deleted** once it is off its chain. -/
theorem isotpRemoveBuffer (h : HeapOk s) (k : FlowId) (buffer : Option Nat) :
    HeapOk (s.isotpRemoveBuffer k buffer) := by
  unfold Node.isotpRemoveBuffer
  split
  · exact h
  · next b =>
    split
    · next hb =>
      have hbo : b ∈ s.owned k := mem_owned_of_mem hb
      generalize hs' : ({ s.setFlow k { s.flow k with buffer := (s.flow k).buffer.erase b } with
        heap := s.heap.lwcanBufferDelete b } : Node) = s'
      have hheap : s'.heap = s.heap.lwcanBufferDelete b := by rw [← hs']
      have hself : s'.owned k = s.suspended.elim [] (·.owned k) ++ (s.flow k).buffer.erase b := by
        rw [← hs']
        exact congrArg _ (congrArg IsotpFlow.buffer (flow_setFlow_self s k _))
      have hother : ∀ k', k' ≠ k → s'.owned k' = s.owned k' := by
        intro k' hk
        rw [← hs']
        exact congrArg _ (congrArg IsotpFlow.buffer (flow_setFlow_of_ne s _ hk))
      have hsub : ∀ k', (s'.owned k').Sublist (s.owned k') := by
        intro k'
        by_cases hk : k' = k
        · subst hk
          rw [hself]
          exact List.Sublist.append (List.Sublist.refl _) List.erase_sublist
        · rw [hother k' hk]
      -- the deleted buffer is on no chain any more
      have hgone : ∀ {k'}, b ∉ s'.owned k' := by
        intro k' hm
        obtain rfl : k' = k := h.unique ((hsub _).subset hm) hbo
        rw [hself, List.mem_append] at hm
        have hnd := h.nodup k'
        unfold owned at hnd
        rw [List.nodup_append] at hnd
        rcases hm with hm | hm
        · exact hnd.2.2 b hm b hb rfl
        · exact (List.Nodup.mem_erase_iff hnd.2.1).mp hm |>.1 rfl
      have hne : ∀ {k' b'}, b' ∈ s'.owned k' → b' ≠ b := fun hm e => hgone (e ▸ hm)
      have hbuf : s'.heap.buffer = s.heap.buffer := by rw [hheap]; rfl
      have hm : ∀ {k' b'}, b' ∈ s'.owned k' → b' ∈ s.owned k' := fun hm => (hsub _).subset hm
      have hblk : ∀ x, x ∈ s'.heap.blocks ↔
          x ∈ s.heap.blocks ∧ x ≠ (s.heap.buffer b).payload ∧ x ≠ b := by
        intro x
        rw [hheap]
        simp [Heap.lwcanBufferDelete, Heap.lwcanFree, and_comm]
      constructor
      · exact fun k' => (h.nodup k').sublist (hsub k')
      · exact fun h₁ h₂ => h.unique (hm h₁) (hm h₂)
      · intro k' b' h₁
        exact (hblk _).mpr ⟨h.header (hm h₁), fun e => h.apart hbo (hm h₁) e.symm, hne h₁⟩
      · intro k' b' h₁
        rw [hbuf]
        exact (hblk _).mpr ⟨h.payload (hm h₁), fun e => hne h₁ (h.payload_inj (hm h₁) hbo e),
          h.apart (hm h₁) hbo⟩
      · intro k₁ k₂ b₁ b₂ h₁ h₂
        rw [hbuf]
        exact h.apart (hm h₁) (hm h₂)
      · intro k₁ k₂ b₁ b₂ h₁ h₂ he
        rw [hbuf] at he
        exact h.payload_inj (hm h₁) (hm h₂) he
      · intro p frame b' n hsus
        rw [hbuf]
        exact h.opening (by rw [← hs'] at hsus; exact hsus)
    · exact h

end HeapOk

/-! ### What follows the three rules -/

/-- **An invariant of the heap**: it is kept while nothing changes hands, when a new buffer goes to
one flow, and when a buffer is deleted. -/
structure HeapRules (I : Node → Prop) : Prop where
  transfer : ∀ {s s' : Node}, I s → (∀ k, s'.owned k = s.owned k) →
    s'.heap.blocks = s.heap.blocks → (∀ b, HeapOk.SameShape s.heap s'.heap b) →
    (∀ f, s'.suspended = some f → s.suspended = some f ∨ ∀ k, f.owned k = []) → I s'
  alloc : ∀ {s s' : Node} {k : FlowId} {b length : Nat} {g : Grant} {heap : Heap}, I s →
    g.Fresh s.heap.blocks → s.heap.lwcanBufferNew length g = (some b, heap) →
    s'.owned k = b :: s.owned k → (∀ k', k' ≠ k → s'.owned k' = s.owned k') →
    s'.heap.blocks = heap.blocks → (∀ b, HeapOk.SameShape heap s'.heap b) →
    (∀ p frame b' n, s'.suspended = some (.receivedFf p frame b' n) →
      s.suspended = some (.receivedFf p frame b' n) ∨ b' = b ∧ n = length) → I s'
  isotpRemoveBuffer : ∀ {s : Node}, I s → ∀ k buffer, I (s.isotpRemoveBuffer k buffer)

/-- An invariant of the heap that holds of a node. -/
structure Kept (I : Node → Prop) (s : Node) : Prop where
  rules : HeapRules I
  holds : I s

namespace Kept

variable {I : Node → Prop}

theorem transfer (h : Kept I s) (ho : ∀ k, s'.owned k = s.owned k)
    (hb : s'.heap.blocks = s.heap.blocks) (hs : ∀ b, HeapOk.SameShape s.heap s'.heap b)
    (hf : ∀ f, s'.suspended = some f → s.suspended = some f ∨ ∀ k, f.owned k = []) : Kept I s' :=
  ⟨h.rules, h.rules.transfer h.holds ho hb hs hf⟩

theorem alloc (h : Kept I s) {length : Nat} {g : Grant} {heap : Heap}
    (hg : g.Fresh s.heap.blocks) (hn : s.heap.lwcanBufferNew length g = (some b, heap))
    (ho : s'.owned k = b :: s.owned k) (ho' : ∀ k', k' ≠ k → s'.owned k' = s.owned k')
    (hb : s'.heap.blocks = heap.blocks) (hs : ∀ b, HeapOk.SameShape heap s'.heap b)
    (hf : ∀ p frame b' n, s'.suspended = some (.receivedFf p frame b' n) →
      s.suspended = some (.receivedFf p frame b' n) ∨ b' = b ∧ n = length) : Kept I s' :=
  ⟨h.rules, h.rules.alloc h.holds hg hn ho ho' hb hs hf⟩

theorem isotpRemoveBuffer (h : Kept I s) (k : FlowId) (buffer : Option Nat) :
    Kept I (s.isotpRemoveBuffer k buffer) :=
  ⟨h.rules, h.rules.isotpRemoveBuffer h.holds k buffer⟩

/-- A step that touches neither buffers nor chains nor the suspended function. -/
theorem congr (h : Kept I s) (hfl : ∀ k, (s'.flow k).buffer = (s.flow k).buffer)
    (hh : s'.heap = s.heap) (hs : s'.suspended = s.suspended) : Kept I s' := by
  refine h.transfer (fun k => ?_) (by rw [hh])
    (fun b => by rw [hh]; exact HeapOk.SameShape.refl _ b) (fun f hf => Or.inl (hs ▸ hf))
  unfold owned
  rw [hfl, hs]

theorem emit (h : Kept I s) (o : Obs) : Kept I (s.emit o) :=
  h.congr (fun _ => rfl) rfl rfl

theorem lwcanTimeout (h : Kept I s) (n : Nat) (hd : Handler) (a : Ptr) :
    Kept I (s.lwcanTimeout n hd a) :=
  h.congr (fun _ => rfl) rfl rfl

theorem lwcanUntimeout (h : Kept I s) (hd : Handler) (a : Ptr) : Kept I (s.lwcanUntimeout hd a) :=
  h.congr (fun _ => rfl) rfl rfl

/-- A flow may be replaced by one with the same chain. -/
theorem setFlow (h : Kept I s) {fl : IsotpFlow} (hb : fl.buffer = (s.flow k).buffer) :
    Kept I (s.setFlow k fl) := by
  refine h.congr (fun k' => ?_) rfl rfl
  by_cases hk : k' = k
  · subst hk
    rw [flow_setFlow_self, hb]
  · rw [flow_setFlow_of_ne _ _ hk]

theorem setState (h : Kept I s) (k : FlowId) (st : IsotpState) : Kept I (s.setState k st) :=
  h.setFlow rfl

/-- A function that waits for a callback and holds no buffer. -/
theorem suspend (h : Kept I s) {f : Suspended} (hn : s.suspended = none)
    (hf : ∀ k, f.owned k = []) : Kept I { s with suspended := some f } := by
  refine h.transfer (fun k => ?_) rfl (HeapOk.SameShape.refl _) (fun f' hf' => Or.inr ?_)
  · have ho : Node.owned { s with suspended := some f } k = s.owned k := by
      show f.owned k ++ (s.flow k).buffer = s.owned k
      simp [hf, owned, hn]
    rw [ho]
  · obtain rfl := Option.some.inj hf'
    exact hf

/-! ### The functions of the library -/

theorem setSuspended (h : Kept I s) {f : Suspended} (hn : s.suspended = none)
    (hf : ∀ k, f.owned k = []) (o : Obs) : Kept I { s.emit o with suspended := some f } :=
  (h.emit o).suspend hn hf

theorem callError (h : Kept I s) (k : FlowId) (arg : Ptr) (err : Lwcanerr) :
    Kept I (s.callError k arg err) := by
  unfold Node.callError
  split
  · exact h.emit _
  · exact h

theorem dropHead (h : Kept I s) (k : FlowId) : Kept I (s.dropHead k) :=
  (h.emit _).isotpRemoveBuffer _ _

theorem canifOutput (h : Kept I s) (k : FlowId) (canif : Nat) (frame : CanFrame) (timeout : Nat)
    (ret : Lwcanerr) : Kept I (s.canifOutput k canif frame timeout ret) := by
  unfold Node.canifOutput
  simp only
  split
  · exact h.congr (fun _ => rfl) rfl rfl
  · exact (((h.emit _).dropHead k).setState _ _).callError _ _ _

theorem isotpOutputErrorHandler (h : Kept I s) (arg : Ptr) :
    Kept I (s.isotpOutputErrorHandler arg) := by
  unfold Node.isotpOutputErrorHandler
  split
  · exact ((h.dropHead _).setState _ _).callError _ _ _
  · exact h

theorem isotpInputErrorHandler (h : Kept I s) (arg : Ptr) :
    Kept I (s.isotpInputErrorHandler arg) := by
  unfold Node.isotpInputErrorHandler
  split
  · exact ((h.dropHead _).setState _ _).callError _ _ _
  · exact h

theorem fill_buffer (cfg : Config) (b : Option LwcanBuffer) (fl : IsotpFlow) (f : CanFrame) :
    (isotpFillSf cfg b fl f).1.buffer = fl.buffer ∧ (isotpFillFf cfg b fl f).1.buffer = fl.buffer ∧
      (isotpFillCf cfg b fl f).1.buffer = fl.buffer := by
  refine ⟨rfl, rfl, ?_⟩
  unfold isotpFillCf
  simp only
  split <;> rfl

theorem isotpOutFlowOutput (h : Kept I s) (arg : Ptr) (frame : CanFrame) (ret : Lwcanerr) :
    Kept I (s.isotpOutFlowOutput cfg arg frame ret) := by
  unfold Node.isotpOutFlowOutput
  split
  · split
    · exact h
    · simp only
      split
      · exact (h.setFlow (fill_buffer ..).1).canifOutput _ _ _ _ _
      · exact (h.setFlow (fill_buffer ..).2.1).canifOutput _ _ _ _ _
      · exact (h.setFlow (fill_buffer ..).2.2).canifOutput _ _ _ _ _
      · exact h
  · exact h

theorem isotpInFlowOutput (h : Kept I s) (arg : Ptr) (frame : CanFrame) (ret : Lwcanerr) :
    Kept I (s.isotpInFlowOutput cfg arg frame ret) := by
  unfold Node.isotpInFlowOutput
  split
  · split
    · exact h
    · simp only
      split
      · exact h.canifOutput _ _ _ _ _
      · exact h
  · exact h

theorem isotpSentSwitch (h : Kept I s) (k : FlowId) : Kept I (s.isotpSentSwitch cfg k) := by
  -- A message that is complete gives its buffer back; no other case touches the heap.
  unfold Node.isotpSentSwitch
  split
  · unfold sentSf
    simp only
    split
    · exact ((h.isotpRemoveBuffer _ _).setState _ _).emit _
    · exact (h.isotpRemoveBuffer _ _).setState _ _
  · unfold sentFf
    split
    · exact h
    · exact ((h.setState _ _).emit _).lwcanTimeout _ _ _
  · unfold sentCf
    simp only
    split
    · split
      · exact ((h.isotpRemoveBuffer _ _).setState _ _).emit _
      · exact (h.isotpRemoveBuffer _ _).setState _ _
    · have h' : Kept I (s.setFlow (k.1, .output)
          { s.flow (k.1, .output) with cfSn := nextSn (s.flow (k.1, .output)).cfSn }) :=
        h.setFlow rfl
      split
      · exact (h'.setState _ _).lwcanTimeout _ _ _
      · exact ((h'.setState _ _).emit _).lwcanTimeout _ _ _
  · unfold sentFc
    split
    · exact (h.setState _ _).callError _ _ _
    · exact (h.setState _ _).lwcanTimeout _ _ _
  · exact h

theorem isotpSent (h : Kept I s) (hn : s.suspended = none) (k : FlowId) (err : Lwcanerr) :
    Kept I (s.isotpSent cfg k err) := by
  unfold Node.isotpSent
  split
  · have h' : Kept I ((s.dropHead k).setState k .idle) := (h.dropHead k).setState _ _
    simp only
    split
    · refine h'.setSuspended ?_ (fun _ => rfl) _
      simpa [Node.dropHead, Node.setState] using hn
    · exact h'.isotpSentSwitch k
  · exact h.isotpSentSwitch k

theorem storeData (h : Kept I s) (p : Nat) (source : Nat → UInt8) (length offset : Nat) :
    Kept I (s.storeData p source length offset) := by
  refine h.transfer (fun _ => rfl) ?_ (fun b => ?_) (fun f hf => Or.inl hf)
  · exact (HeapOk.copyTo_shape ..).1
  · exact (HeapOk.copyTo_shape ..).2 b

theorem isotpReceived (h : Kept I s) (pcb buffer : Option Nat) :
    Kept I (s.isotpReceived pcb buffer).2 := by
  unfold Node.isotpReceived
  split
  · next p b => exact (h.emit (.released p b)).isotpRemoveBuffer (p, .input) (some b)
  · exact h

theorem deliver (h : Kept I s) (p : Nat) : Kept I (s.deliver p) := by
  unfold Node.deliver
  simp only
  split
  · split
    · exact h.emit _
    · exact h
  · exact h.isotpReceived _ _

theorem storeSfData (h : Kept I s) (p : Nat) (data : Nat → UInt8) :
    Kept I (s.storeSfData cfg p data) :=
  h.storeData _ _ _ _

theorem storeFfData (h : Kept I s) (p : Nat) (data : Nat → UInt8) (length : Nat) :
    Kept I (s.storeFfData cfg p data length) := by
  unfold Node.storeFfData
  exact (h.storeData _ _ _ _).setFlow rfl

theorem storeCfData (h : Kept I s) (p : Nat) (data : Nat → UInt8) (length : Nat) :
    Kept I (s.storeCfData p data length) := by
  unfold Node.storeCfData
  simp only
  split
  · exact (h.storeData _ _ _ _).setFlow rfl
  · exact (h.storeData _ _ _ _).setFlow rfl

theorem receivedFfOutput (h : Kept I s) (p : Nat) : Kept I (s.receivedFfOutput cfg p) := by
  unfold Node.receivedFfOutput
  refine Kept.lwcanTimeout (h.setFlow ?_) _ _ _
  rfl

/-- A new buffer is linked at the head of a flow's chain. -/
theorem push (h : Kept I s) {length : Nat} {g : Grant} {heap heap' : Heap}
    (hg : g.Fresh s.heap.blocks) (hn : s.heap.lwcanBufferNew length g = (some b, heap))
    (hk : s.suspended.elim [] (·.owned k) = []) (hb : heap'.blocks = heap.blocks)
    (hs : ∀ b, HeapOk.SameShape heap heap' b) {fl : IsotpFlow}
    (hfl : fl.buffer = b :: (s.flow k).buffer) :
    Kept I (({ s with heap := heap' } : Node).setFlow k fl) := by
  refine h.alloc (k := k) hg hn ?_ (fun k' hne => ?_) hb hs (fun _ _ _ _ hsus => Or.inl hsus)
  · show s.suspended.elim [] (·.owned k) ++ (Node.flow (Node.setFlow _ k fl) k).buffer = _
    rw [flow_setFlow_self, hfl, owned, hk]
    rfl
  · show s.suspended.elim [] (·.owned k') ++ (Node.flow (Node.setFlow _ k fl) k').buffer = _
    rw [flow_setFlow_of_ne _ _ hne]
    rfl

theorem isotpSend (h : Kept I s) (pcb : Option Nat) (data : Option (List UInt8)) {g : Grant}
    (hg : g.Fresh s.heap.blocks) : Kept I (s.isotpSend cfg pcb data g).2 := by
  unfold Node.isotpSend
  split
  · next p d =>
    simp only
    split
    · exact h
    · split
      · exact h
      · split
        · next heap hn =>
          -- without memory the message is refused
          rw [Heap.lwcanBufferNew_none hg hn]
          exact h
        · next b heap hn =>
          -- the new message is put in front, filled, and the first frame is armed
          refine Kept.lwcanTimeout (Kept.emit (h.push hg hn ?_ ?_ ?_ ?_) _) _ _ _
          · cases s.suspended with
            | none => rfl
            | some f => cases f <;> simp [Suspended.owned]
          · exact (HeapOk.copyTo_shape ..).1
          · exact fun b => (HeapOk.copyTo_shape ..).2 b
          · split <;> rfl
  · exact h

theorem receivedSf (h : Kept I s) (hs : s.suspended = none) (p : Nat) (frame : CanFrame) {g : Grant}
    (hg : g.Fresh s.heap.blocks) : Kept I (s.receivedSf cfg p frame g) := by
  unfold Node.receivedSf
  simp only
  split
  · exact h
  · split
    · next heap hn =>
      rw [Heap.lwcanBufferNew_none hg hn]
      exact h.callError _ _ _
    · next b heap hn =>
      -- the message has a buffer of its own until it is delivered
      refine Kept.deliver (Kept.storeSfData (Kept.emit (h.push hg hn ?_ rfl (fun b => ?_) rfl)
        _) _ _) _
      · rw [hs]
        rfl
      · exact HeapOk.SameShape.refl _ b

/-- `received_ff` from the return of the callback on, once the buffer is linked. -/
theorem receivedFfStore {frame : CanFrame} {length : Nat}
    (h : Kept I (s.setFlow (p, .input)
      { s.flow (p, .input) with
        buffer := b :: (s.flow (p, .input)).buffer, remainingData := length })) :
    Kept I (s.receivedFfStore cfg p frame b length) := by
  unfold Node.receivedFfStore
  refine Kept.receivedFfOutput (Kept.setFlow ((Kept.emit h _).storeFfData _ _ _) ?_) _
  rfl

theorem receivedFf (h : Kept I s) (hs : s.suspended = none) (p : Nat) (frame : CanFrame) {g : Grant}
    (hg : g.Fresh s.heap.blocks) : Kept I (s.receivedFf cfg p frame g) := by
  unfold Node.receivedFf
  simp only
  split
  · exact h
  · split
    · next heap hn =>
      rw [Heap.lwcanBufferNew_none hg hn]
      have h' : Kept I (s.setFlow (p, .input) { s.flow (p, .input) with fs := fsOverflow }) :=
        h.setFlow rfl
      split
      · exact h'.setSuspended hs (fun _ => rfl) _
      · exact h'.receivedFfOutput p
    · next b heap hn =>
      split
      · -- the suspended function owns the new buffer
        refine h.alloc (k := (p, .input)) hg hn ?_ (fun k' hne => ?_) rfl (HeapOk.SameShape.refl _)
          (fun p' frame' b' n hsus => ?_)
        · rw [owned_eq rfl rfl, owned_eq hs rfl]
          simp [Suspended.owned]
          rfl
        · rw [owned_eq rfl rfl, owned_eq hs rfl]
          simp [Suspended.owned, hne]
          rfl
        · refine Or.inr ?_
          simp only [Option.some.injEq, Suspended.receivedFf.injEq] at hsus
          exact ⟨hsus.2.2.1.symm, hsus.2.2.2.symm⟩
      · refine Kept.receivedFfStore (h.push hg hn ?_ rfl (HeapOk.SameShape.refl _) rfl)
        rw [hs]
        rfl

theorem receivedCf (h : Kept I s) (p : Nat) (frame : CanFrame) :
    Kept I (s.receivedCf cfg p frame) := by
  unfold Node.receivedCf
  simp only
  split
  · exact h
  · have h₁ : Kept I ((s.emit (.consecutive p frame.wire)).lwcanUntimeout .isotpInputErrorHandler
        (.pcb p)) := (h.emit _).lwcanUntimeout _ _
    split
    · -- a wrong serial number
      refine Kept.lwcanTimeout (Kept.setState (Kept.setFlow (h₁.dropHead _) ?_) _ _) _ _ _
      rfl
    · have h₂ := h₁.storeCfData p frame.data frame.len
      split
      · exact (h₂.setState _ _).deliver p
      · split
        · refine Kept.lwcanTimeout (Kept.setState (h₂.setFlow ?_) _ _) _ _ _
          rfl
        · refine Kept.lwcanTimeout (Kept.setState (Kept.setFlow (h₂.setFlow ?_) ?_) _ _) _ _ _
          · rfl
          · rfl

theorem receivedFc (h : Kept I s) (p : Nat) (frame : CanFrame) :
    Kept I (s.receivedFc cfg p frame) := by
  unfold Node.receivedFc
  simp only
  split
  · exact h
  · generalize hs₁ : Node.setFlow _ (p, .output) _ = s₁
    have h₁ : Kept I s₁ := by
      rw [← hs₁]
      refine Kept.setFlow ((h.emit _).lwcanUntimeout _ _) ?_
      rfl
    split
    · refine Kept.lwcanTimeout (h₁.setFlow ?_) _ _ _
      rfl
    · split
      · exact ((h₁.dropHead _).setState _ _).callError _ _ _
      · refine Kept.lwcanTimeout (h₁.setFlow ?_) _ _ _
        rfl

theorem isotpInput (h : Kept I s) (hs : s.suspended = none) (canif : Nat) (frame : CanFrame)
    {g : Grant} (hg : g.Fresh s.heap.blocks) : Kept I (s.isotpInput cfg canif frame g) := by
  unfold Node.isotpInput
  split
  · exact h
  · next p _ =>
    split
    · exact h.receivedSf hs p frame hg
    · split
      · exact h.receivedFf hs p frame hg
      · split
        · exact h.receivedCf p frame
        · split
          · exact h.receivedFc p frame
          · exact h

/-- Fields of a pcb outside its flows may be assigned. -/
theorem updatePcb (h : Kept I s) {p : Nat} {pcb : IsotpPcb}
    (hp : ∀ d, pcb.flow d = (s.pcb p).flow d) :
    Kept I { s with pcb := Function.update s.pcb p pcb } := by
  refine h.congr (fun k => ?_) rfl rfl
  unfold flow
  by_cases hk : k.1 = p
  · simp [hk, hp]
  · simp [hk]

theorem call (h : Kept I s) {c : Call} (hc : s.Legal c) (hnew : c ≠ .isotpNew) :
    Kept I (s.call cfg c) := by
  cases c with
  | isotpNew => exact absurd rfl hnew
  | isotpBind pcb addr =>
    unfold Node.call Node.isotpBind
    simp only
    split
    · split
      · exact h
      · split
        · exact h
        · exact h.updatePcb fun d => by cases d <;> rfl
    · exact h
  | isotpRemove pcb =>
    unfold Node.call Node.isotpRemove
    simp only
    split
    · exact h
    · split
      · -- the chunk goes back to the pool; no flow and no block changes
        exact h.congr (fun _ => rfl) rfl rfl
      · exact h
  | isotpSetCallbacks p receive receiveFf sent error =>
    rw [call_isotpSetCallbacks]
    exact h.updatePcb fun d => by cases d <;> rfl
  | isotpSetCallbackArg p arg => exact h.updatePcb fun d => by cases d <;> rfl
  | isotpSend pcb data g => exact h.isotpSend pcb data hc.2.2
  | isotpReceived pcb buffer => exact h.isotpReceived pcb buffer
  | canifAdd canif name init => exact h.congr (fun _ => rfl) rfl rfl
  | canifRemove canif => exact h.congr (fun _ => rfl) rfl rfl
  | lwcanTimeout timeMs n arg => exact h.lwcanTimeout _ _ _
  | lwcanUntimeout n arg => exact h.lwcanUntimeout _ _

theorem resume (h : Kept I s) {f : Suspended} (hs : s.suspended = some f) :
    Kept I (({ s with suspended := none } : Node).resume cfg f) := by
  have h₀ : (∀ k, f.owned k = []) → Kept I { s with suspended := none } := by
    intro hf
    refine h.transfer (fun k => ?_) rfl (HeapOk.SameShape.refl _) (by rintro _ ⟨⟩)
    rw [owned_eq hs rfl, owned_eq rfl rfl]
    simp [hf, flow]
  cases f with
  | receivedFf p frame b length =>
    -- the buffer moves from the suspended function to the chain
    refine Kept.receivedFfStore (h.transfer (fun k => ?_) rfl (HeapOk.SameShape.refl _)
      (by rintro _ ⟨⟩))
    rw [owned_eq rfl rfl, owned_eq hs rfl]
    by_cases hk : k = (p, .input)
    · subst hk
      rw [flow_setFlow_self]
      simp [Suspended.owned]
      rfl
    · rw [flow_setFlow_of_ne _ _ hk]
      simp [Suspended.owned, hk]
      rfl
  | receivedFfOutput p => exact (h₀ fun _ => rfl).receivedFfOutput p
  | isotpSent k => exact (h₀ fun _ => rfl).isotpSentSwitch k

/-- **An invariant of the heap is kept** by every step but `isotp_new`. -/
theorem step {e : Event} (h : Kept I s) (hnew : e ≠ .call .isotpNew)
    (hst : Node.step cfg s e = some s') : Kept I s' := by
  obtain ⟨he, rfl⟩ := step_eq_some.mp hst
  cases e with
  | call c => exact h.call he fun hc => hnew (congrArg Event.call hc)
  | input canif frame g =>
    exact h.isotpInput (Option.isNone_iff_eq_none.mp he.1) canif frame he.2
  | timer frame ret =>
    unfold next
    simp only
    split
    · exact h
    · next e timeouts _ =>
      -- the invariant does not speak of the timer list
      have h₁ : Kept I { s with timeouts } := h.congr (fun _ => rfl) rfl rfl
      unfold runHandler
      split
      · exact h₁.isotpOutFlowOutput _ _ _
      · exact h₁.isotpInFlowOutput _ _ _
      · exact h₁.isotpOutputErrorHandler _
      · exact h₁.isotpInputErrorHandler _
      · exact h₁
  | sent k err =>
    have h₁ : Kept I { s with confirms := s.confirms.erase k } := h.congr (fun _ => rfl) rfl rfl
    exact h₁.isotpSent (Option.isNone_iff_eq_none.mp he) k err
  | resume =>
    unfold next
    simp only
    split
    · exact h
    · next f hf => exact h.resume hf
  | tick ms => exact h.congr (fun _ => rfl) rfl rfl

end Kept

/-! ### Ownership in every run -/

namespace HeapOk

theorem rules : HeapRules HeapOk where
  transfer h ho hb hs hf := h.transfer (fun k => ho k ▸ List.Sublist.refl _) hb hs hf
  alloc h := h.alloc
  isotpRemoveBuffer h := h.isotpRemoveBuffer

theorem kept (h : HeapOk s) : Kept HeapOk s := ⟨rules, h⟩

theorem emit (h : HeapOk s) (o : Obs) : HeapOk (s.emit o) := (h.kept.emit o).holds

theorem lwcanUntimeout (h : HeapOk s) (hd : Handler) (a : Ptr) : HeapOk (s.lwcanUntimeout hd a) :=
  (h.kept.lwcanUntimeout hd a).holds

/-- `isotp_new` clears a pcb: what it owned is out of sight. -/
theorem isotpNew (h : HeapOk s) : HeapOk (s.isotpNew cfg).2 := by
  unfold Node.isotpNew
  split
  · exact h
  · split
    · exact h
    · next p pool _ =>
      refine h.transfer (fun k => ?_) rfl (SameShape.refl _) (fun f hf => Or.inl hf)
      rw [owned_eq rfl rfl, owned_eq rfl rfl]
      refine List.Sublist.append (List.Sublist.refl _) ?_
      show (((Function.update s.pcb p {}) k.1).flow k.2).buffer.Sublist
        ((s.pcb k.1).flow k.2).buffer
      by_cases hk : k.1 = p
      · rw [hk, Function.update_self]
        cases k.2 <;> exact List.nil_sublist _
      · rw [Function.update_of_ne hk]

/-- **Ownership is kept** by every step. -/
theorem step {e : Event} (h : HeapOk s) (hst : Node.step cfg s e = some s') : HeapOk s' := by
  by_cases hnew : e = .call .isotpNew
  · subst hnew
    obtain ⟨-, rfl⟩ := step_eq_some.mp hst
    exact h.isotpNew
  · exact (h.kept.step hnew hst).holds

/-- **Ownership holds in every run.** -/
theorem run {es : List Event} (hr : Run cfg es s) : HeapOk s :=
  Runs.run_inv (C := fun _ _ => True) (fun _ _ _ h _ hs => h.step hs) (initial cfg)
    (Runs.Along.trivial _ _) hr

end HeapOk
end Node
end Lwcan
