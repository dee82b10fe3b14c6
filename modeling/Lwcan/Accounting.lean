import Lwcan.Reachable

/-!
# Every block is accounted for

`HeapOk` says that what a flow owns is allocated. In runs without `isotp_remove` the converse holds
as well: what is allocated is the header or the payload of a buffer that some flow owns. A new
buffer goes to a flow as it is allocated, and `isotp_remove_buffer` takes a buffer off its chain as
it frees the two blocks, so nothing is lost between them.

* `Accounted` — the invariant, kept by the three rules of the heap;
* `OneAtMost` — the chain of an output flow: empty if the flow is idle, one buffer otherwise;
* `blocksOwned_run` — the allocated blocks are those of the buffers that the pcbs in use own.
-/

namespace Lwcan
namespace Node

variable {cfg : Config} {s s' : Node} {p : Nat} {e : Event} {es : List Event}

/-! ### The heap -/

/-- **Every allocated block is accounted for**: it is allocated once, and is the header or the
payload of a buffer that belongs to a flow. -/
structure Accounted (s : Node) : Prop where
  heap : HeapOk s
  nodup : s.heap.blocks.Nodup
  owner : ∀ a ∈ s.heap.blocks, ∃ k, ∃ b ∈ s.owned k, a = b ∨ a = (s.heap.buffer b).payload

namespace Accounted

theorem initial (cfg : Config) : Accounted (lwcanInit cfg) :=
  ⟨HeapOk.initial cfg, List.nodup_nil, fun _ h => absurd h List.not_mem_nil⟩

/-- While nothing changes hands -/
theorem transfer (h : Accounted s) (ho : ∀ k, s'.owned k = s.owned k)
    (hb : s'.heap.blocks = s.heap.blocks) (hs : ∀ b, HeapOk.SameShape s.heap s'.heap b)
    (hf : ∀ f, s'.suspended = some f → s.suspended = some f ∨ ∀ k, f.owned k = []) :
    Accounted s' := by
  refine ⟨HeapOk.rules.transfer h.heap ho hb hs hf, hb ▸ h.nodup, ?_⟩
  intro a ha
  obtain ⟨k, b, hmem, hab⟩ := h.owner a (hb ▸ ha)
  refine ⟨k, b, ?_, ?_⟩
  · rw [ho]
    exact hmem
  · rw [(hs b).1]
    exact hab

/-- **A new buffer** brings two blocks and an owner for both. -/
theorem alloc (h : Accounted s) {k : FlowId} {b length : Nat} {g : Grant} {heap : Heap}
    (hg : g.Fresh s.heap.blocks) (hn : s.heap.lwcanBufferNew length g = (some b, heap))
    (ho : s'.owned k = b :: s.owned k) (ho' : ∀ k', k' ≠ k → s'.owned k' = s.owned k')
    (hb : s'.heap.blocks = heap.blocks) (hs : ∀ b, HeapOk.SameShape heap s'.heap b)
    (hf : ∀ p frame b' n, s'.suspended = some (.receivedFf p frame b' n) →
      s.suspended = some (.receivedFf p frame b' n) ∨ b' = b ∧ n = length) : Accounted s' := by
  have hheap := HeapOk.rules.alloc h.heap hg hn ho ho' hb hs hf
  obtain ⟨pl, -, hb₁, hp₁, hne, rfl⟩ := Heap.lwcanBufferNew_some hg hn
  have hpl : (s'.heap.buffer b).payload = pl := by
    rw [(hs b).1]
    simp
  have hnew : b ∈ s'.owned k := ho ▸ List.mem_cons_self
  refine ⟨hheap, ?_, ?_⟩
  · rw [hb]
    refine List.nodup_cons.mpr ⟨?_, List.nodup_cons.mpr ⟨hb₁, h.nodup⟩⟩
    intro hmem
    rcases List.mem_cons.mp hmem with he | hmem
    · exact hne he.symm
    · exact hp₁ hmem
  · intro a ha
    rw [hb] at ha
    rcases List.mem_cons.mp ha with rfl | ha
    · exact ⟨k, b, hnew, Or.inr hpl.symm⟩
    rcases List.mem_cons.mp ha with rfl | ha
    · exact ⟨k, a, hnew, Or.inl rfl⟩
    · -- a block that was allocated before keeps its owner
      obtain ⟨k', b', hmem, hab⟩ := h.owner a ha
      have hb' : b' ≠ b := fun he => hb₁ (he ▸ h.heap.header hmem)
      refine ⟨k', b', ?_, ?_⟩
      · by_cases hk : k' = k
        · subst hk
          rw [ho]
          exact List.mem_cons_of_mem _ hmem
        · rw [ho' k' hk]
          exact hmem
      · rw [(hs b').1]
        simpa [hb'] using hab

/-- **A buffer that is deleted** is taken off its chain, and both of its blocks are freed. -/
theorem isotpRemoveBuffer (h : Accounted s) (k : FlowId) (buffer : Option Nat) :
    Accounted (s.isotpRemoveBuffer k buffer) := by
  have hheap := HeapOk.rules.isotpRemoveBuffer h.heap k buffer
  cases buffer with
  | none => exact h
  | some b =>
    by_cases hb : b ∈ (s.flow k).buffer
    swap
    · have hsame : s.isotpRemoveBuffer k (some b) = s := if_neg hb
      rw [hsame]
      exact h
    have hrem : s.isotpRemoveBuffer k (some b) =
        { s.setFlow k { s.flow k with buffer := (s.flow k).buffer.erase b } with
          heap := s.heap.lwcanBufferDelete b } := if_pos hb
    rw [hrem] at hheap ⊢
    refine ⟨hheap, ?_, ?_⟩
    · exact (h.nodup.filter _).filter _
    · intro a ha
      have ha' : a ∈ s.heap.blocks ∧ a ≠ (s.heap.buffer b).payload ∧ a ≠ b := by
        simpa [Heap.lwcanBufferDelete, Heap.lwcanFree, and_comm, and_assoc] using ha
      obtain ⟨k', b', hmem, hab⟩ := h.owner a ha'.1
      -- its owner is another buffer, and that one stays where it is
      have hne : b' ≠ b := by
        rintro rfl
        rcases hab with rfl | rfl
        · exact ha'.2.2 rfl
        · exact ha'.2.1 rfl
      refine ⟨k', b', ?_, hab⟩
      unfold owned at hmem ⊢
      rcases List.mem_append.mp hmem with hmem | hmem
      · exact List.mem_append_left _ hmem
      · refine List.mem_append_right _ ?_
        show b' ∈ (Node.flow (s.setFlow k _) k').buffer
        by_cases hk : k' = k
        · subst hk
          rw [flow_setFlow_self]
          exact (List.mem_erase_of_ne hne).mpr hmem
        · rw [flow_setFlow_of_ne _ _ hk]
          exact hmem

theorem rules : HeapRules Accounted where
  transfer := transfer
  alloc h := h.alloc
  isotpRemoveBuffer := isotpRemoveBuffer

/-- `isotp_new` clears a pcb that owns nothing. -/
theorem isotpNew (h : Accounted s) (hu : Unused cfg s) : Accounted (s.isotpNew cfg).2 := by
  cases hp : (s.isotpNew cfg).1 with
  | none =>
    have hsame : (s.isotpNew cfg).2 = s := by
      unfold Node.isotpNew at hp ⊢
      split
      · rfl
      · split
        · rfl
        · next hnum _ _ _ hm => simp [hnum, hm] at hp
    rw [hsame]
    exact h
  | some p =>
    -- the chunk handed out belongs to no pcb, so its flows are empty already
    have hfree := fun d => hu.view_notMem (hu.isotpNew_notMem hp) d
    unfold Node.isotpNew at hp ⊢
    split
    · exact h
    · split
      · exact h
      · next hnum _ q pool hm =>
        obtain rfl : q = p := by simpa [hnum, hm] using hp
        refine h.transfer ?_ rfl (HeapOk.SameShape.refl _) (fun f hf => Or.inl hf)
        rintro ⟨p', d⟩
        rw [owned_eq rfl rfl, owned_eq rfl rfl]
        refine congrArg _ (congrArg IsotpFlow.buffer ?_)
        show (Function.update s.pcb q {} p').flow d = (s.pcb p').flow d
        by_cases hp' : p' = q
        · rw [hp', Function.update_self]
          exact Eq.trans (by cases d <;> rfl) (hfree d).symm
        · rw [Function.update_of_ne hp']

/-- **One step** loses no block. -/
theorem step (h : Accounted s) (hu : Unused cfg s) (hst : Node.step cfg s e = some s') :
    Accounted s' := by
  by_cases hnew : e = .call .isotpNew
  · subst hnew
    obtain ⟨-, rfl⟩ := step_eq_some.mp hst
    exact h.isotpNew hu
  · exact (Kept.step ⟨rules, h⟩ hnew hst).holds

end Accounted

/-! ### Output chains -/

/-- **An output flow holds one buffer at most**, and none exactly if it is idle. -/
structure OneAtMost (v : View) : Prop where
  idle : v.flow.state = .idle ↔ v.flow.buffer = []
  length : v.flow.buffer.length ≤ 1

/-- What fills a frame leaves the chain alone. -/
theorem isotpFill_buffer {b : Option LwcanBuffer} {fl : IsotpFlow} {f : CanFrame}
    {filled : IsotpFlow × CanFrame} {n : Nat} (h : isotpFill cfg b fl f = some (filled, n)) :
    filled.1.buffer = fl.buffer := by
  unfold isotpFill at h
  split at h <;> cases h
  · exact (Kept.fill_buffer ..).1
  · exact (Kept.fill_buffer ..).2.1
  · exact (Kept.fill_buffer ..).2.2

namespace OneAtMost

variable {v v' w : View}

/-- The chain and whether the flow is idle stay. -/
theorem same (h : OneAtMost v) (hb : w.flow.buffer = v.flow.buffer)
    (hs : w.flow.state = .idle ↔ v.flow.state = .idle) : OneAtMost w :=
  ⟨by rw [hs, hb, h.idle], by rw [hb]; exact h.length⟩

/-- A frame or a flow control leaves the chain, and the flow is busy before and after. -/
theorem busy (h : OneAtMost v) (hb : w.flow.buffer = v.flow.buffer) (hv : v.flow.state ≠ .idle)
    (hw : w.flow.state ≠ .idle) : OneAtMost w :=
  h.same hb (iff_of_false hw hv)

/-- The message is given up or done with. -/
theorem finish (h : OneAtMost v) (hb : w.flow.buffer = v.flow.buffer.tail)
    (hs : w.flow.state = .idle) : OneAtMost w := by
  have hnil : w.flow.buffer = [] := by
    rw [hb]
    apply List.eq_nil_of_length_eq_zero
    have := h.length
    rw [List.length_tail]
    omega
  exact ⟨iff_of_true hs hnil, by rw [hnil]; exact Nat.zero_le 1⟩

theorem outputSwitch {pcb : IsotpPcb} {slot : Bool} (h : OneAtMost v)
    (hw : OutputSwitch pcb p slot v v') : OneAtMost v' := by
  cases hw with
  | skip => exact h
  | complete => exact h.finish (by rw [View.emitIf_flow]; rfl) (by rw [View.emitIf_flow]; rfl)
  | ff hst => exact h.busy rfl (by rw [hst]; rintro ⟨⟩) (by rintro ⟨⟩)
  | cf hst => exact h.busy rfl (by rw [hst]; rintro ⟨⟩) (by rintro ⟨⟩)
  | block hst => exact h.busy rfl (by rw [hst]; rintro ⟨⟩) (by rintro ⟨⟩)

/-- **One transition** -/
theorem step (h : OneAtMost v) (hn : e ≠ .call .isotpNew) (hm : OutputStep cfg s p v e v') :
    OneAtMost v' := by
  cases hm with
  | send hs =>
    -- the flow was idle, so its chain was empty
    have hnil := h.idle.mp hs
    unfold View.sendFlow
    refine ⟨?_, ?_⟩
    · show (if _ then _ else _ : IsotpFlow).state = _ ↔ (if _ then _ else _ : IsotpFlow).buffer = _
      split <;> exact iff_of_false (by rintro ⟨⟩) (List.cons_ne_nil _ _)
    · show (if _ then _ else _ : IsotpFlow).buffer.length ≤ 1
      split <;> simp [hnil]
  | skip => exact h.same rfl Iff.rfl
  | output _ _ _ hfl =>
    refine h.same (isotpFill_buffer hfl) ?_
    rw [← isotpFill_state hfl]
    rfl
  | reject _ _ _ hfl =>
    refine h.finish ?_ (View.fail_state ..)
    rw [View.rejected, View.fail_buffer]
    exact congrArg List.tail (isotpFill_buffer hfl)
  | expire => exact h.finish (View.fail_buffer ..) (View.fail_state ..)
  | confirm _ hw =>
    have h' : OneAtMost { v with confirms := v.confirms - 1 } := h.same rfl Iff.rfl
    exact h'.outputSwitch hw
  | refuse => exact h.finish (by rw [View.refused_flow]) (by rw [View.refused_flow])
  | resume _ hw =>
    have h' : OneAtMost { v with suspended := none } := h.same rfl Iff.rfl
    exact h'.outputSwitch hw
  | wait _ hs => exact h.same rfl Iff.rfl
  | abort => exact h.finish (View.fail_buffer ..) (View.fail_state ..)
  | proceed _ hs => exact h.busy rfl (by rw [hs]; rintro ⟨⟩) (by rintro ⟨⟩)
  | new => exact absurd rfl hn

end OneAtMost

/-! ### Runs -/

theorem accounted_run (hr : Run cfg es s) (hk : RunAlong cfg KeepsPcbs es) : Accounted s :=
  (kept_inv (C := fun _ _ => True) (Accounted.initial cfg) (fun _ hu _ h hst => h.step hu hst) hr hk
    (Runs.Along.trivial _ _)).2

/-- The chain of an output flow, in every run that keeps its pcbs -/
theorem oneAtMost_run (hr : Run cfg es s) (hk : RunAlong cfg KeepsPcbs es) (p : Nat) :
    OneAtMost (s.view (p, .output)) :=
  output_inv (C := fun _ _ => True) p ⟨iff_of_true rfl rfl, Nat.zero_le 1⟩
    (fun _ _ _ hn h hm => h.step hn hm) hr hk (Runs.Along.trivial _ _)

/-- **What the blocks are there for.** The allocated blocks are the headers and payloads of the
buffers that the flows of the pcbs in use own, each buffer belongs to one flow and once, and no two
buffers share a block. What a flow owns are the buffers on its chain; only while `received_ff` waits
for the first-frame callback, the buffer it will link next is owned as well. The chain of an output
flow is empty if the flow is idle and has one buffer otherwise. -/
structure BlocksOwned (s : Node) : Prop where
  blocks : ∀ a, a ∈ s.heap.blocks ↔ ∃ p ∈ s.isotpPcbList, ∃ d, ∃ b ∈ s.owned (p, d),
    a = b ∨ a = (s.heap.buffer b).payload
  chains : s.suspended = none → ∀ k, s.owned k = (s.flow k).buffer
  allocated : s.heap.blocks.Nodup
  linked : ∀ k, (s.owned k).Nodup
  owner : ∀ k k' b, b ∈ s.owned k → b ∈ s.owned k' → k = k'
  apart : ∀ k k' b b', b ∈ s.owned k → b' ∈ s.owned k' → (s.heap.buffer b).payload ≠ b' ∧
    ((s.heap.buffer b).payload = (s.heap.buffer b').payload → b = b')
  output : ∀ p, ((s.flow (p, .output)).buffer ≠ [] ↔ (s.flow (p, .output)).state ≠ .idle) ∧
    (s.flow (p, .output)).buffer.length ≤ 1

/-- **Every block is accounted for**, in a run that keeps its pcbs. -/
theorem blocksOwned_run (hr : Run cfg es s) (hk : RunAlong cfg KeepsPcbs es) : BlocksOwned s := by
  have h := accounted_run hr hk
  have hu := (kept_run hr hk).2
  refine ⟨?_, ?_, h.nodup, fun k => h.heap.nodup k, ?_, ?_, ?_⟩
  · intro a
    constructor
    · intro ha
      obtain ⟨⟨p, d⟩, b, hb, hab⟩ := h.owner a ha
      refine ⟨p, ?_, d, b, hb, hab⟩
      -- a pcb that is not in use owns nothing
      by_contra hp
      rcases List.mem_append.mp hb with hheld | hchain
      · cases hs : s.suspended with
        | none => simp [hs] at hheld
        | some f =>
          have hf := hu.suspended f hs
          cases f with
          | receivedFf q frame b' n =>
            have hq : (p, d) = (q, Dir.input) := by
              by_contra hne
              simp [hs, Suspended.owned, hne] at hheld
            obtain ⟨rfl, -⟩ := Prod.mk.inj hq
            exact hp hf
          | receivedFfOutput | isotpSent => simp [hs, Suspended.owned] at hheld
      · rw [hu.view_notMem hp] at hchain
        cases hchain
    · rintro ⟨p, -, d, b, hb, rfl | rfl⟩
      · exact h.heap.header hb
      · exact h.heap.payload hb
  · intro hn k
    exact owned_eq hn rfl
  · intro k k' b hb hb'
    exact h.heap.unique hb hb'
  · intro k k' b b' hb hb'
    exact ⟨h.heap.apart hb hb', h.heap.payload_inj hb hb'⟩
  · intro p
    have hone := oneAtMost_run hr hk p
    exact ⟨(not_congr hone.idle).symm, hone.length⟩

end Node
end Lwcan
