import Lwcan.FlowTimers
import Lwcan.Primitives
import Lwcan.Wakeup

/-!
# A flow by itself

A second node in which nothing but one flow moves. `Solo k s s'` says that flow `k` finds in `s'`
what it finds in `s`: its state, its buffers with their contents, its timers with their deadlines,
its confirmations, its part of the log, and the setup. The other flows of `s'` do nothing, so all
timers there are the flow's.

Whatever the library does for the flow it does in both nodes alike: one lemma for each function.
Where a function arms a timer, it has to find a free chunk in `s`, and the flow may have no other
timer pending.
-/

namespace Lwcan

/-- A copy makes no difference between two heaps that agree on the buffer it goes to. -/
theorem Heap.copyToOffset_agree {h h' : Heap} {buffer : Option Nat} {c : Nat} (source : Nat → UInt8)
    (length offset : Nat) (hb : ∀ b ∈ buffer, h'.buffer b = h.buffer b)
    (hc : h'.buffer c = h.buffer c) :
    (h'.lwcanBufferCopyToOffset buffer source length offset).2.buffer c =
      (h.lwcanBufferCopyToOffset buffer source length offset).2.buffer c := by
  unfold Heap.lwcanBufferCopyToOffset
  cases buffer with
  | none => exact hc
  | some b =>
    dsimp only
    split
    · exact hc
    · show Function.update h'.buffer b _ c = Function.update h.buffer b _ c
      rw [Function.update_apply, Function.update_apply, hb b rfl, hc]

/-- The calls that set connections and interfaces up -/
def Call.setsUp : Call → Bool
  | .isotpNew | .isotpBind _ _ | .isotpSetCallbacks _ _ _ _ _ | .isotpSetCallbackArg _ _
  | .canifAdd _ _ _ | .canifRemove _ => true
  | .isotpRemove _ | .isotpSend _ _ _ | .isotpReceived _ _ | .lwcanTimeout _ _ _
  | .lwcanUntimeout _ _ => false

namespace Node

/-- **Flow `k` of `s` by itself**, in `s'` -/
structure Solo (k : FlowId) (s s' : Node) : Prop where
  now : s'.now = s.now
  setup : SameSetup s s'
  num : s'.isotpPcbNum = s.isotpPcbNum
  flow : s'.flow k = s.flow k
  buffer : ∀ b ∈ (s.flow k).buffer, s'.heap.buffer b = s.heap.buffer b
  held : ∀ f ∈ s.suspended, ∀ b ∈ f.owned k, s'.heap.buffer b = s.heap.buffer b
  entries : s'.timeouts.entries k = s.timeouts.entries k
  confirms : s'.confirms.count k = s.confirms.count k
  suspended : s'.suspended = s.suspended.filter (·.flow = k)
  log : s'.logOf k = s.logOf k
  alone : ∀ e ∈ s'.timeouts.nextTimeout, e.ofFlow k
  tidy : s'.timeouts.Tidy
  room : s'.timeouts.room = s.timeouts.room

variable {cfg : Config} {s s' : Node} {k : FlowId} {p n : Nat}

theorem storeFfData_timeouts (s : Node) (p : Nat) (data : Nat → UInt8) (n : Nat) :
    (s.storeFfData cfg p data n).timeouts = s.timeouts := by
  unfold storeFfData
  rfl

namespace Solo

/-! ### What both nodes agree on -/

theorem proj (h : Solo k s s') {α : Type*} (f : IsotpPcb → α)
    (hf : ∀ pcb, f (IsotpPcb.setup pcb) = f pcb) (p : Nat) : f (s'.pcb p) = f (s.pcb p) :=
  h.setup.proj f hf p

theorem error (h : Solo k s s') (p : Nat) : (s'.pcb p).error = (s.pcb p).error :=
  h.proj IsotpPcb.error (fun _ => rfl) p

theorem sent (h : Solo k s s') (p : Nat) : (s'.pcb p).sent = (s.pcb p).sent :=
  h.proj IsotpPcb.sent (fun _ => rfl) p

theorem receive (h : Solo k s s') (p : Nat) : (s'.pcb p).receive = (s.pcb p).receive :=
  h.proj IsotpPcb.receive (fun _ => rfl) p

theorem receiveFf (h : Solo k s s') (p : Nat) : (s'.pcb p).receiveFf = (s.pcb p).receiveFf :=
  h.proj IsotpPcb.receiveFf (fun _ => rfl) p

theorem callbackArg (h : Solo k s s') (p : Nat) : (s'.pcb p).callbackArg = (s.pcb p).callbackArg :=
  h.proj IsotpPcb.callbackArg (fun _ => rfl) p

theorem canif (h : Solo k s s') (p : Nat) : s'.canifs.canifGetByIndex (s'.pcb p).ifIndex =
    s.canifs.canifGetByIndex (s.pcb p).ifIndex := by
  rw [h.setup.canifs, h.proj IsotpPcb.ifIndex (fun _ => rfl) p]

theorem address (h : Solo k s s') (p : Nat) (frame : CanFrame) :
    s'.address cfg p frame = s.address cfg p frame := by
  unfold Node.address
  rw [h.proj IsotpPcb.txId (fun _ => rfl) p]

theorem head (h : Solo k s s') : s'.head k = s.head k := by
  unfold Node.head
  rw [h.flow]

theorem headBuffer (h : Solo k s s') : s'.headBuffer k = s.headBuffer k := by
  unfold Node.headBuffer
  rw [h.head]
  cases hb : s.head k with
  | none => rfl
  | some b => exact congrArg some (h.buffer b (List.mem_of_head? hb))

/-- **The flow sees the same.** -/
theorem view (h : Solo k s s') : s'.view k = s.view k := by
  have hnil : ∀ hd, hd = outputHandler k.2 ∨ hd = errorHandler k.2 →
      s'.timeouts.pending hd (.pcb k.1) = s.timeouts.pending hd (.pcb k.1) := by
    intro hd hhd
    rw [Timeouts.pending_eq_count hhd, Timeouts.pending_eq_count hhd, h.entries]
  refine view_congr h.flow h.buffer (hnil _ (Or.inl rfl)) (hnil _ (Or.inr rfl)) h.confirms ?_ h.log
  rw [h.suspended, Option.filter_filter]
  simp

/-- **Without a timer of its own** the flow finds every chunk free. -/
theorem slotFree (h : Solo k s s') (he : s.timeouts.entries k = []) (hs : s.timeouts.slotFree) :
    s'.timeouts.slotFree := by
  apply h.tidy.slotFree
  · rw [← h.entries] at he
    unfold Timeouts.entries at he
    rw [List.filter_eq_self.mpr h.alone] at he
    exact List.map_eq_nil_iff.mp he
  · rw [h.room]
    exact Timeouts.room_pos hs

/-! ### The primitives -/

theorem emit (h : Solo k s s') (o : Obs) : Solo k (s.emit o) (s'.emit o) := by
  refine { h with
    setup := ⟨h.setup.list, h.setup.pool, h.setup.canifs, h.setup.pcb⟩
    log := ?_ }
  have hlog := h.log
  unfold logOf at hlog ⊢
  unfold Node.emit
  simp only [List.filter_append]
  rw [hlog]

theorem setFlow (h : Solo k s s') {fl : IsotpFlow}
    (hb : ∀ b ∈ fl.buffer, s'.heap.buffer b = s.heap.buffer b) :
    Solo k (s.setFlow k fl) (s'.setFlow k fl) := by
  have hset : ∀ s : Node, ∀ p, ((s.setFlow k fl).pcb p).setup = (s.pcb p).setup :=
    fun s p => setFlow_pcb_proj IsotpPcb.setup (fun _ d _ => IsotpPcb.setup_setFlow _ d _) s k fl p
  refine { h with
    setup := ⟨h.setup.list, h.setup.pool, h.setup.canifs, fun p => ?_⟩
    flow := by rw [flow_setFlow_self, flow_setFlow_self]
    buffer := by
      rw [flow_setFlow_self]
      exact hb }
  rw [hset, hset]
  exact h.setup.pcb p

/-- An assignment that keeps the chain -/
theorem assign (h : Solo k s s') (fl : IsotpFlow) (hb : fl.buffer = (s.flow k).buffer) :
    Solo k (s.setFlow k fl) (s'.setFlow k fl) :=
  h.setFlow fun b hm => h.buffer b (hb ▸ hm)

theorem setState (h : Solo k s s') (st : IsotpState) :
    Solo k (s.setState k st) (s'.setState k st) := by
  unfold Node.setState
  rw [h.flow]
  exact h.assign _ rfl

theorem heap (h : Solo k s s') {heap heap' : Heap} (hb : ∀ b, s'.heap.buffer b = s.heap.buffer b →
    heap'.buffer b = heap.buffer b) : Solo k { s with heap } { s' with heap := heap' } :=
  { h with
    setup := ⟨h.setup.list, h.setup.pool, h.setup.canifs, h.setup.pcb⟩
    buffer := fun b hm => hb b (h.buffer b hm)
    held := fun f hf b hm => hb b (h.held f hf b hm) }

theorem isotpRemoveBuffer (h : Solo k s s') (buffer : Option Nat) :
    Solo k (s.isotpRemoveBuffer k buffer) (s'.isotpRemoveBuffer k buffer) := by
  unfold Node.isotpRemoveBuffer
  cases buffer with
  | none => exact h
  | some b =>
    dsimp only
    rw [h.flow]
    split
    · have hset : Solo k (s.setFlow k { s.flow k with buffer := (s.flow k).buffer.erase b })
          (s'.setFlow k { s.flow k with buffer := (s.flow k).buffer.erase b }) :=
        h.setFlow fun b' hm => h.buffer b' (List.mem_of_mem_erase hm)
      exact hset.heap fun _ he => he
    · exact h

theorem dropHead (h : Solo k s s') : Solo k (s.dropHead k) (s'.dropHead k) := by
  unfold Node.dropHead
  rw [h.head]
  exact (h.emit _).isotpRemoveBuffer _

theorem callError (h : Solo k s s') (arg : Ptr) (err : Lwcanerr) :
    Solo k (s.callError k arg err) (s'.callError k arg err) := by
  unfold Node.callError
  rw [h.error]
  split
  · exact h.emit _
  · exact h

/-- **Every error path** -/
theorem fail (h : Solo k s s') (arg : Ptr) (err : Lwcanerr) :
    Solo k (((s.dropHead k).setState k .idle).callError k arg err)
      (((s'.dropHead k).setState k .idle).callError k arg err) :=
  (h.dropHead.setState .idle).callError arg err

/-- **Arming** a timer of the flow -/
theorem lwcanTimeout (h : Solo k s s') {hd : Handler} {a : Ptr} (hk : armsFor k hd a)
    (he : s.timeouts.entries k = []) (hs : s.timeouts.slotFree) :
    Solo k (s.lwcanTimeout n hd a) (s'.lwcanTimeout n hd a) := by
  have hs' := h.slotFree he hs
  refine { h with
    setup := ⟨h.setup.list, h.setup.pool, h.setup.canifs, h.setup.pcb⟩
    entries := ?_
    alone := ?_
    tidy := h.tidy.lwcanTimeout a
    room := ?_ }
  · -- alone the flow has no entry either, and the clock is the same
    have he' := he
    rw [← h.entries] at he'
    show (s'.timeouts.lwcanTimeout s'.now n hd a).entries k =
      (s.timeouts.lwcanTimeout s.now n hd a).entries k
    rw [Timeouts.entries_lwcanTimeout_self hs he hk, Timeouts.entries_lwcanTimeout_self hs' he' hk,
      h.now]
  · intro e hmem
    rcases Timeouts.lwcanTimeout_cases s'.timeouts s'.now n hd a with ⟨-, heq⟩ |
      ⟨mem, pool, -, -, heq⟩
    · unfold Node.lwcanTimeout at hmem
      rw [heq] at hmem
      exact h.alone e hmem
    · unfold Node.lwcanTimeout at hmem
      rw [heq] at hmem
      -- the new entry is the flow's own
      rcases List.mem_cons.mp ((Timeouts.insert_perm _ _).mem_iff.mp hmem) with rfl | hmem
      · exact hk
      · exact h.alone e hmem
  · exact (Timeouts.room_lwcanTimeout a).trans (h.room.trans (Timeouts.room_lwcanTimeout a).symm)

/-- **Cancelling** a timer of the flow -/
theorem lwcanUntimeout (h : Solo k s s') {hd : Handler} {a : Ptr} (hk : armsFor k hd a) :
    Solo k (s.lwcanUntimeout hd a) (s'.lwcanUntimeout hd a) := by
  refine { h with
    setup := ⟨h.setup.list, h.setup.pool, h.setup.canifs, h.setup.pcb⟩
    entries := ?_
    alone := ?_
    tidy := h.tidy.lwcanUntimeout a
    room := ?_ }
  · show (s'.timeouts.lwcanUntimeout hd a).entries k = (s.timeouts.lwcanUntimeout hd a).entries k
    rw [Timeouts.entries_lwcanUntimeout_self hk, Timeouts.entries_lwcanUntimeout_self hk, h.entries]
  · intro e hmem
    unfold Node.lwcanUntimeout at hmem
    rw [Timeouts.nextTimeout_lwcanUntimeout] at hmem
    exact h.alone e (List.mem_of_mem_eraseP hmem)
  · exact (Timeouts.room_lwcanUntimeout a).trans
      (h.room.trans (Timeouts.room_lwcanUntimeout a).symm)

/-- **A timeout** of the flow is due in both nodes. -/
theorem expire (h : Solo k s s') {e : Timeout Handler Ptr} {timeouts : Timeouts Handler Ptr}
    (he : s.timeouts.expire s.now = some (e, timeouts)) (hk : e.ofFlow k) :
    ∃ e' timeouts', s'.timeouts.expire s'.now = some (e', timeouts') ∧ e'.handler = e.handler ∧
      e'.arg = e.arg ∧ Solo k { s with timeouts } { s' with timeouts := timeouts' } := by
  obtain ⟨e', timeouts', he', hh, ha, hent, hsub⟩ := Timeouts.expire_alone h.entries h.alone he hk
  rw [← h.now] at he'
  refine ⟨e', timeouts', he', hh, ha, { h with
    setup := ⟨h.setup.list, h.setup.pool, h.setup.canifs, h.setup.pcb⟩
    entries := hent
    alone := fun x hx => h.alone x (hsub hx)
    tidy := h.tidy.expire he'
    room := ?_ }⟩
  exact (Timeouts.room_expire he').trans (h.room.trans (Timeouts.room_expire he).symm)

/-- A driver takes a frame of the flow. -/
theorem accept (h : Solo k s s') :
    Solo k { s with confirms := k :: s.confirms } { s' with confirms := k :: s'.confirms } :=
  { h with
    setup := ⟨h.setup.list, h.setup.pool, h.setup.canifs, h.setup.pcb⟩
    confirms := by rw [List.count_cons, List.count_cons, h.confirms] }

/-- A driver confirms a frame of the flow. -/
theorem confirm (h : Solo k s s') :
    Solo k { s with confirms := s.confirms.erase k } { s' with confirms := s'.confirms.erase k } :=
  { h with
    setup := ⟨h.setup.list, h.setup.pool, h.setup.canifs, h.setup.pcb⟩
    confirms := by rw [List.count_erase_self, List.count_erase_self, h.confirms] }

/-- A function of the flow waits for a callback. -/
theorem suspend (h : Solo k s s') {f : Suspended} (hf : f.flow = k)
    (hb : ∀ b ∈ f.owned k, s'.heap.buffer b = s.heap.buffer b) :
    Solo k { s with suspended := some f } { s' with suspended := some f } :=
  { h with
    setup := ⟨h.setup.list, h.setup.pool, h.setup.canifs, h.setup.pcb⟩
    held := by
      intro g hg
      obtain rfl : f = g := Option.some.inj hg
      exact hb
    suspended := by
      subst hf
      simp [Option.filter] }

/-- The callback returns. -/
theorem wake (h : Solo k s s') : Solo k { s with suspended := none }
    { s' with suspended := none } :=
  { h with
    setup := ⟨h.setup.list, h.setup.pool, h.setup.canifs, h.setup.pcb⟩
    held := nofun
    suspended := rfl }

/-! ### Sending -/

theorem canifOutput (h : Solo k s s') (canif : Nat) (frame : CanFrame) (timeout : Nat)
    (ret : Lwcanerr) :
    Solo k (s.canifOutput k canif frame timeout ret)
      (s'.canifOutput k canif frame timeout ret) := by
  have h₁ := h.emit (.output k canif frame.canId frame.wire timeout ret)
  unfold Node.canifOutput
  dsimp only
  split
  · exact h₁.accept
  · rw [h₁.callbackArg]
    exact h₁.fail _ ret

theorem isotpOutFlowOutput (h : Solo (p, .output) s s') (frame : CanFrame) (ret : Lwcanerr) :
    Solo (p, .output) (s.isotpOutFlowOutput cfg (.pcb p) frame ret)
      (s'.isotpOutFlowOutput cfg (.pcb p) frame ret) := by
  unfold Node.isotpOutFlowOutput
  dsimp only
  rw [h.canif]
  split
  · exact h
  · next canif _ =>
    rw [h.flow, h.headBuffer, h.address]
    have hfill := Kept.fill_buffer cfg (s.headBuffer (p, .output)) (s.flow (p, .output))
      (s.address cfg p frame)
    split
    · exact (h.assign _ hfill.1).canifOutput canif _ _ ret
    · exact (h.assign _ hfill.2.1).canifOutput canif _ _ ret
    · exact (h.assign _ hfill.2.2).canifOutput canif _ _ ret
    · exact h

theorem isotpInFlowOutput (h : Solo (p, .input) s s') (frame : CanFrame) (ret : Lwcanerr) :
    Solo (p, .input) (s.isotpInFlowOutput cfg (.pcb p) frame ret)
      (s'.isotpInFlowOutput cfg (.pcb p) frame ret) := by
  unfold Node.isotpInFlowOutput
  dsimp only
  rw [h.canif]
  split
  · exact h
  · next canif _ =>
    rw [h.flow, h.address]
    split
    · exact h.canifOutput canif _ _ ret
    · exact h

theorem sentSf (h : Solo (p, .output) s s') : Solo (p, .output) (s.sentSf p) (s'.sentSf p) := by
  unfold Node.sentSf
  rw [h.headBuffer, h.head]
  have h₁ := (h.isotpRemoveBuffer (s.head (p, .output))).setState .idle
  dsimp only
  rw [h₁.sent, h₁.callbackArg]
  split
  · exact h₁.emit _
  · exact h₁

/-- **The switch of `isotp_sent`**, where nothing else is pending for the flow -/
theorem isotpSentSwitch (h : Solo k s s') (hu : k.2.uses (s.flow k).state)
    (he : s.timeouts.entries k = []) (hs : s.armsNext k → s.timeouts.slotFree) :
    Solo k (s.isotpSentSwitch cfg k) (s'.isotpSentSwitch cfg k) := by
  obtain ⟨p, d⟩ := k
  unfold Node.isotpSentSwitch
  rw [h.flow]
  cases d with
  | output =>
    -- what was sent decides which timer is armed next, and `hs` promises a chunk for it
    unfold armsNext at hs
    split
    · exact h.sentSf
    · next hst =>
      unfold sentFf
      rw [h.flow, hst]
      have h₁ := (h.setState .waitFc).emit (.waitFc p)
      exact h₁.lwcanTimeout (armsFor_error (p, .output)) he (hs (by simp [hst]))
    · next hst =>
      unfold sentCf
      dsimp only
      rw [h.flow]
      split
      · exact h.sentSf
      · next hr =>
        have hfree := hs (by simp [hst, hr])
        have h₁ : Solo (p, .output) _ _ :=
          h.assign { s.flow (p, .output) with cfSn := nextSn (s.flow (p, .output)).cfSn } rfl
        split
        · exact (h₁.setState .txCf).lwcanTimeout (armsFor_output (p, .output)) he hfree
        · exact ((h₁.setState .waitFc).emit (.waitFc p)).lwcanTimeout
            (armsFor_error (p, .output)) he hfree
    · next hst =>
      -- a state of the other direction
      rw [hst] at hu
      cases hu
    · exact h
  | input =>
    unfold armsNext at hs
    split
    · next hst =>
      rw [hst] at hu
      cases hu
    · next hst =>
      rw [hst] at hu
      cases hu
    · next hst =>
      rw [hst] at hu
      cases hu
    · next hst =>
      -- the flow control is out: the message is given up if it was refused, and waited for if not
      unfold sentFc
      rw [h.flow]
      split
      · rw [h.callbackArg]
        exact (h.setState .idle).callError _ .aborted
      · next hf =>
        exact (h.setState .waitCf).lwcanTimeout (armsFor_error (p, .input)) he
          (hs (by simpa [hst] using hf))
    · exact h

/-- **A driver confirms a frame.** -/
theorem isotpSent (h : Solo k s s') (hu : k.2.uses (s.flow k).state)
    (he : s.timeouts.entries k = [])
    (err : Lwcanerr) (hs : err = .ok → s.armsNext k → s.timeouts.slotFree) :
    Solo k (s.isotpSent cfg k err) (s'.isotpSent cfg k err) := by
  unfold Node.isotpSent
  split
  · have h₁ := h.dropHead.setState .idle
    have hidle : (((s.dropHead k).setState k .idle).flow k).state = .idle := by
      unfold Node.setState
      rw [flow_setFlow_self]
    dsimp only
    rw [h₁.error, h₁.callbackArg]
    split
    · refine (h₁.emit _).suspend rfl ?_
      intro b hb
      cases hb
    · -- the flow is idle by now, and the switch does nothing
      unfold Node.isotpSentSwitch
      rw [h₁.flow, hidle]
      exact h₁
  · next herr => exact h.isotpSentSwitch hu he (hs (not_not.mp herr))

/-! ### Buffers -/

/-- **The allocator** answers alike, and the new buffer holds the same. -/
theorem lwcanBufferNew (h : Solo k s s') {length : Nat} {g : Grant} {r : Option Nat} {heap : Heap}
    (hn : s.heap.lwcanBufferNew length g = (r, heap)) :
    ∃ heap', s'.heap.lwcanBufferNew length g = (r, heap') ∧
      Solo k { s with heap } { s' with heap := heap' } ∧
        ∀ b ∈ r, heap'.buffer b = heap.buffer b := by
  obtain ⟨hd, pl, garbage⟩ := g
  unfold Heap.lwcanBufferNew at hn ⊢
  split at hn
  · next hl =>
    cases hn
    rw [if_pos hl]
    exact ⟨s'.heap, rfl, h.heap fun b hb => hb, nofun⟩
  · next hl =>
    rw [if_neg hl]
    -- the grant decides, and it is the same on both sides
    cases hd with
    | none =>
      cases hn
      exact ⟨s'.heap, rfl, h.heap fun b hb => hb, nofun⟩
    | some a =>
      cases pl with
      | none =>
        cases hn
        exact ⟨_, rfl, h.heap fun b hb => hb, nofun⟩
      | some b =>
        cases hn
        refine ⟨_, rfl, h.heap fun c hc => ?_, ?_⟩
        · show Function.update s'.heap.buffer a _ c = Function.update s.heap.buffer a _ c
          rw [Function.update_apply, Function.update_apply, hc]
        · intro c hc
          obtain rfl : a = c := Option.some.inj hc
          show Function.update s'.heap.buffer a _ a = Function.update s.heap.buffer a _ a
          rw [Function.update_self, Function.update_self]

theorem copyTo (h : Solo k s s') {buffer : Option Nat} {source : Nat → UInt8} {length offset : Nat}
    (hb : ∀ b ∈ buffer, s'.heap.buffer b = s.heap.buffer b) :
    Solo k { s with heap := (s.heap.lwcanBufferCopyToOffset buffer source length offset).2 }
      { s' with heap := (s'.heap.lwcanBufferCopyToOffset buffer source length offset).2 } :=
  h.heap fun _ hc => Heap.copyToOffset_agree _ _ _ hb hc

/-- A new buffer is linked before the others. -/
theorem push (h : Solo k s s') {b : Nat} (hb : s'.heap.buffer b = s.heap.buffer b) (fl : IsotpFlow)
    (hfl : fl.buffer = b :: (s.flow k).buffer) : Solo k (s.setFlow k fl) (s'.setFlow k fl) := by
  refine h.setFlow fun c hc => ?_
  rw [hfl] at hc
  rcases List.mem_cons.mp hc with rfl | hc
  · exact hb
  · exact h.buffer c hc

/-- **`isotp_send`** -/
theorem isotpSend (h : Solo (p, .output) s s') (data : Option (List UInt8)) (g : Grant)
    (he : (s.flow (p, .output)).state = .idle → s.timeouts.entries (p, .output) = [])
    (hs : ∀ d ∈ data, d.length ≠ 0 → (s.flow (p, .output)).state = .idle → g.granted →
      s.timeouts.slotFree) :
    Solo (p, .output) (s.isotpSend cfg (some p) data g).2 (s'.isotpSend cfg (some p) data g).2 := by
  unfold Node.isotpSend
  cases data with
  | none => exact h
  | some d =>
    dsimp only
    rw [h.flow]
    split
    · exact h
    · next hd =>
      split
      · exact h
      · next hst =>
        have hidle := not_not.mp hst
        cases hn : s.heap.lwcanBufferNew d.length g with
        | mk r heap =>
          obtain ⟨heap', hn', h₁, hr⟩ := h.lwcanBufferNew hn
          rw [hn']
          cases r with
          | none => exact h₁
          | some b =>
            have hg : g.granted := by
              have := s.heap.lwcanBufferNew_isSome d.length g
              rw [hn] at this
              exact (this.mp rfl).2
            dsimp only
            -- the message is copied into the same buffer on both sides
            have h₂ : Solo (p, .output)
                { s with
                  heap := (heap.lwcanBufferCopyTo (some b) (fun i => d.getD i 0) d.length).2 }
                { s' with
                  heap := (heap'.lwcanBufferCopyTo (some b) (fun i => d.getD i 0) d.length).2 } :=
              h₁.copyTo hr
            have hb := Heap.copyToOffset_agree (fun i => d.getD i 0) d.length 0 hr (hr b rfl)
            rw [h₂.flow]
            refine ((h₂.push hb _ ?_).emit (.send p d)).lwcanTimeout (armsFor_output (p, .output))
              (he hidle) (hs d rfl hd hidle hg)
            split <;> rfl

/-- A copy into the receive buffer -/
theorem storeData (h : Solo (p, .input) s s') (source : Nat → UInt8) (n off : Nat) :
    Solo (p, .input) (s.storeData p source n off) (s'.storeData p source n off) := by
  unfold Node.storeData
  dsimp only
  rw [h.headBuffer, h.head]
  refine (h.emit _).copyTo fun b hb => h.buffer b (List.mem_of_head? hb)

theorem storeSfData (h : Solo (p, .input) s s') (data : Nat → UInt8) :
    Solo (p, .input) (s.storeSfData cfg p data) (s'.storeSfData cfg p data) := by
  unfold Node.storeSfData
  rw [h.flow]
  exact h.storeData _ _ _

theorem storeFfData (h : Solo (p, .input) s s') (cfg : Config) (data : Nat → UInt8) (n : Nat) :
    Solo (p, .input) (s.storeFfData cfg p data n) (s'.storeFfData cfg p data n) := by
  unfold Node.storeFfData
  rw [h.flow]
  exact (h.storeData _ _ _).assign _ rfl

theorem storeCfData (h : Solo (p, .input) s s') (data : Nat → UInt8) (n : Nat) :
    Solo (p, .input) (s.storeCfData p data n) (s'.storeCfData p data n) := by
  unfold Node.storeCfData
  dsimp only
  rw [h.flow, h.headBuffer]
  split
  · exact (h.storeData _ _ _).assign _ rfl
  · exact (h.storeData _ _ _).assign _ rfl

theorem isotpReceived (h : Solo (p, .input) s s') (buffer : Option Nat) :
    Solo (p, .input) (s.isotpReceived (some p) buffer).2 (s'.isotpReceived (some p) buffer).2 := by
  unfold Node.isotpReceived
  cases buffer with
  | none => exact h
  | some b => exact (h.emit (.released p b)).isotpRemoveBuffer (some b)

theorem deliver (h : Solo (p, .input) s s') : Solo (p, .input) (s.deliver p) (s'.deliver p) := by
  unfold Node.deliver
  dsimp only
  rw [h.receive, h.head, h.callbackArg]
  split
  · cases hb : s.head (p, .input) with
    | none => exact h
    | some b =>
      dsimp only
      rw [h.buffer b (List.mem_of_head? hb)]
      exact h.emit _
  · exact h.isotpReceived _

/-! ### Receiving -/

theorem receivedSf (h : Solo (p, .input) s s') (frame : CanFrame) (g : Grant) :
    Solo (p, .input) (s.receivedSf cfg p frame g) (s'.receivedSf cfg p frame g) := by
  unfold Node.receivedSf
  dsimp only
  rw [h.flow]
  split
  · exact h
  · cases hn : s.heap.lwcanBufferNew (isotpGetSfDl cfg frame.data) g with
    | mk r heap =>
      obtain ⟨heap', hn', h₁, hr⟩ := h.lwcanBufferNew hn
      rw [hn']
      cases r with
      | none =>
        dsimp only
        rw [h.callbackArg]
        exact h₁.callError _ .memory
      | some b =>
        dsimp only
        rw [h₁.flow]
        exact
          (((h₁.push (hr b rfl) _ rfl).emit
            (.opened p b frame.wire)).storeSfData frame.data).deliver

theorem receivedFfOutput (h : Solo (p, .input) s s') (he : s.timeouts.entries (p, .input) = [])
    (hs : s.timeouts.slotFree) :
    Solo (p, .input) (s.receivedFfOutput cfg p) (s'.receivedFfOutput cfg p) := by
  unfold Node.receivedFfOutput
  dsimp only
  rw [h.flow]
  refine (h.assign _ ?_).lwcanTimeout (armsFor_output (p, .input)) he hs
  rfl

theorem receivedFfStore (h : Solo (p, .input) s s') {frame : CanFrame} {b : Nat} (length : Nat)
    (hb : s'.heap.buffer b = s.heap.buffer b) (he : s.timeouts.entries (p, .input) = [])
    (hs : s.timeouts.slotFree) :
    Solo (p, .input) (s.receivedFfStore cfg p frame b length)
      (s'.receivedFfStore cfg p frame b length) := by
  unfold Node.receivedFfStore
  dsimp only
  rw [h.flow]
  have h₁ : Solo (p, .input) _ _ := ((h.push hb { s.flow (p, .input) with
    buffer := b :: (s.flow (p, .input)).buffer, remainingData := length } rfl).emit
      (.opened p b frame.wire)).storeFfData cfg frame.data frame.len
  rw [h₁.flow]
  refine (h₁.assign _ ?_).receivedFfOutput ?_ ?_
  · rfl
  · show (Node.storeFfData cfg _ p frame.data frame.len).timeouts.entries (p, .input) = []
    rw [storeFfData_timeouts]
    exact he
  · show (Node.storeFfData cfg _ p frame.data frame.len).timeouts.slotFree
    rw [storeFfData_timeouts]
    exact hs

theorem receivedFf (h : Solo (p, .input) s s') (frame : CanFrame) (g : Grant)
    (ht : frame.data 0 &&& frameTypeMask = ffType)
    (he : (s.flow (p, .input)).state = .idle → s.timeouts.entries (p, .input) = [])
    (hs : s.armsFc cfg p frame g → s.timeouts.slotFree) :
    Solo (p, .input) (s.receivedFf cfg p frame g) (s'.receivedFf cfg p frame g) := by
  unfold Node.receivedFf
  dsimp only
  rw [h.flow]
  split
  · exact h
  · next hst =>
    have hidle := not_not.mp hst
    have hg := s.heap.lwcanBufferNew_isSome (isotpGetFfDl cfg frame.data) g
    -- what `WakeSafe` is asked for: the branch that arms without a callback
    have harms : s.armsFc cfg p frame g = if isotpGetFfDl cfg frame.data ≠ 0 ∧ g.granted then
        !(s.pcb p).receiveFf else !(s.pcb p).error := by
      unfold armsFc
      simp [ht, hidle]
    rw [harms] at hs
    cases hn : s.heap.lwcanBufferNew (isotpGetFfDl cfg frame.data) g with
    | mk r heap =>
      obtain ⟨heap', hn', h₁, hr⟩ := h.lwcanBufferNew hn
      rw [hn'] at *
      rw [hn] at hg
      cases r with
      | none =>
        rw [if_neg fun hgr => by simpa using hg.mpr hgr] at hs
        dsimp only
        rw [h₁.flow]
        -- no memory: the flow control that refuses is armed at once or when the callback returns
        have h₂ : Solo (p, .input) _ _ := h₁.assign { ({ s with heap } : Node).flow (p, .input) with
          fs := fsOverflow } rfl
        rw [h₂.error, h₂.callbackArg]
        split
        · refine (h₂.emit _).suspend rfl ?_
          intro b hb
          cases hb
        · next herr =>
          refine h₂.receivedFfOutput (he hidle) (hs ?_)
          rw [setFlow_error] at herr
          simpa using herr
      | some b =>
        -- memory: the frame is stored at once or when the callback returns
        rw [if_pos (hg.mp rfl)] at hs
        dsimp only
        rw [h.receiveFf, h.callbackArg]
        split
        · refine (h₁.emit _).suspend rfl ?_
          intro c hc
          rw [Suspended.owned, if_pos rfl] at hc
          obtain rfl := List.mem_singleton.mp hc
          exact hr c rfl
        · next hrcv => exact h₁.receivedFfStore _ (hr b rfl) (he hidle) (hs (by simpa using hrcv))

theorem receivedCfOutput (h : Solo (p, .input) s s') (he : s.timeouts.entries (p, .input) = [])
    (hs : s.timeouts.slotFree) :
    Solo (p, .input) (s.receivedCfOutput p) (s'.receivedCfOutput p) :=
  (h.setState .txFc).lwcanTimeout (armsFor_output (p, .input)) he hs

/-- Nothing is pending for the flow once its error timeout is cancelled. -/
theorem receivedCf (h : Solo (p, .input) s s') (frame : CanFrame)
    (he : (s.flow (p, .input)).state = .waitCf →
      (s.timeouts.lwcanUntimeout .isotpInputErrorHandler (.pcb p)).entries (p, .input) = [])
    (hs : (s.flow (p, .input)).state = .waitCf → s.slotAfterCancel (p, .input)) :
    Solo (p, .input) (s.receivedCf cfg p frame) (s'.receivedCf cfg p frame) := by
  unfold Node.receivedCf
  dsimp only
  rw [h.flow]
  split
  · exact h
  · next hst =>
    have hwait := not_not.mp hst
    have h₁ : Solo (p, .input)
        ((s.emit (.consecutive p frame.wire)).lwcanUntimeout .isotpInputErrorHandler (.pcb p))
        ((s'.emit (.consecutive p frame.wire)).lwcanUntimeout .isotpInputErrorHandler (.pcb p)) :=
      (h.emit _).lwcanUntimeout (armsFor_error (p, .input))
    have he₁ : ((s.emit (.consecutive p frame.wire)).lwcanUntimeout .isotpInputErrorHandler
        (.pcb p)).timeouts.entries (p, .input) = [] := he hwait
    have hs₁ : ((s.emit (.consecutive p frame.wire)).lwcanUntimeout .isotpInputErrorHandler
        (.pcb p)).timeouts.slotFree := hs hwait
    -- `a` and `a'` are the two nodes when the frame is noted and the error timeout cancelled
    generalize (s.emit (.consecutive p frame.wire)).lwcanUntimeout .isotpInputErrorHandler
      (.pcb p) = a at h₁ he₁ hs₁ ⊢
    generalize (s'.emit (.consecutive p frame.wire)).lwcanUntimeout .isotpInputErrorHandler
      (.pcb p) = a' at h₁ ⊢
    rw [h₁.flow]
    split
    · have h₂ := h₁.dropHead
      -- out of sequence: giving the message up touches no timer
      have ht : (a.dropHead (p, .input)).timeouts = a.timeouts := isotpRemoveBuffer_timeouts _ _ _
      rw [h₂.flow]
      rw [← ht] at he₁ hs₁
      refine (h₂.assign _ ?_).receivedCfOutput he₁ hs₁
      rfl
    · have h₂ := h₁.storeCfData frame.data frame.len
      rw [← (storeCfData_parts a p frame.data frame.len).1] at he₁ hs₁
      rw [h₂.flow]
      split
      · exact (h₂.setState .idle).deliver
      · have h₃ : Solo (p, .input) _ _ := h₂.assign
          { (a.storeCfData p frame.data frame.len).flow (p, .input) with
            cfSn := nextSn ((a.storeCfData p frame.data frame.len).flow (p, .input)).cfSn } rfl
        split
        · exact (h₃.setState .waitCf).lwcanTimeout (armsFor_error (p, .input)) he₁ hs₁
        · rw [h₃.flow]
          refine (h₃.assign _ ?_).receivedCfOutput he₁ hs₁
          rfl

theorem receivedFc (h : Solo (p, .output) s s') (frame : CanFrame)
    (he : (s.flow (p, .output)).state = .waitFc →
      (s.timeouts.lwcanUntimeout .isotpOutputErrorHandler (.pcb p)).entries (p, .output) = [])
    (hs : (s.flow (p, .output)).state = .waitFc → s.slotAfterCancel (p, .output)) :
    Solo (p, .output) (s.receivedFc cfg p frame) (s'.receivedFc cfg p frame) := by
  unfold Node.receivedFc
  dsimp only
  rw [h.flow]
  split
  · exact h
  · next hst =>
    have hwait := not_not.mp hst
    generalize (frame.data 0 &&& 0x0F).toNat = fs
    generalize (frame.data 1).toNat = bs
    generalize (frame.data 2).toNat = st
    have h₁ : Solo (p, .output)
        ((s.emit (.flowControl p fs bs st)).lwcanUntimeout .isotpOutputErrorHandler (.pcb p))
        ((s'.emit (.flowControl p fs bs st)).lwcanUntimeout .isotpOutputErrorHandler (.pcb p)) :=
      (h.emit _).lwcanUntimeout (armsFor_error (p, .output))
    have he₁ : ((s.emit (.flowControl p fs bs st)).lwcanUntimeout .isotpOutputErrorHandler
        (.pcb p)).timeouts.entries (p, .output) = [] := he hwait
    have hs₁ : ((s.emit (.flowControl p fs bs st)).lwcanUntimeout .isotpOutputErrorHandler
        (.pcb p)).timeouts.slotFree := hs hwait
    -- `a` and `a'` are the two nodes when the frame is noted and the error timeout cancelled
    generalize (s.emit (.flowControl p fs bs st)).lwcanUntimeout .isotpOutputErrorHandler (.pcb p) =
      a at h₁ he₁ hs₁ ⊢
    generalize (s'.emit (.flowControl p fs bs st)).lwcanUntimeout .isotpOutputErrorHandler
      (.pcb p) = a' at h₁ ⊢
    rw [h₁.flow]
    have h₂ : Solo (p, .output) _ _ := h₁.assign { a.flow (p, .output) with fs } rfl
    rw [h₂.flow]
    split
    · refine (h₂.assign _ ?_).lwcanTimeout (armsFor_error (p, .output)) he₁ hs₁
      rfl
    · split
      · rw [h₂.callbackArg]
        exact h₂.fail _ .aborted
      · refine (h₂.assign _ ?_).lwcanTimeout (armsFor_output (p, .output)) he₁ hs₁
        rfl

/-! ### The setup -/

/-- A pcb is replaced in both nodes, its flows being those it had, or empty ones. -/
theorem updatePcb (h : Solo k s s') {pcb pcb' : IsotpPcb} (hset : pcb'.setup = pcb.setup)
    (hfl : p = k.1 → pcb'.flow k.2 = pcb.flow k.2)
    (hb : p = k.1 → (pcb.flow k.2).buffer ⊆ (s.flow k).buffer) :
    Solo k { s with pcb := Function.update s.pcb p pcb }
      { s' with pcb := Function.update s'.pcb p pcb' } := by
  refine
    { h with setup := ⟨h.setup.list, h.setup.pool, h.setup.canifs, ?_⟩, flow := ?_, buffer := ?_ }
  · intro q
    show (Function.update s'.pcb p pcb' q).setup = (Function.update s.pcb p pcb q).setup
    by_cases hq : q = p
    · rw [hq, Function.update_self, Function.update_self, hset]
    · rw [Function.update_of_ne hq, Function.update_of_ne hq, h.setup.pcb q]
  · show (Function.update s'.pcb p pcb' k.1).flow k.2 = (Function.update s.pcb p pcb k.1).flow k.2
    by_cases hq : k.1 = p
    · rw [hq, Function.update_self, Function.update_self, hfl hq.symm]
    · rw [Function.update_of_ne hq, Function.update_of_ne hq]
      exact h.flow
  · intro b hm
    change b ∈ ((Function.update s.pcb p pcb k.1).flow k.2).buffer at hm
    by_cases hq : k.1 = p
    · rw [hq, Function.update_self] at hm
      exact h.buffer b (hb hq.symm hm)
    · rw [Function.update_of_ne hq] at hm
      exact h.buffer b hm

theorem isotpNew (h : Solo k s s') : Solo k (s.isotpNew cfg).2 (s'.isotpNew cfg).2 := by
  unfold Node.isotpNew isotpPcbMalloc
  rw [h.num, h.setup.pool, h.setup.list]
  split
  · exact h
  · split
    · exact h
    · next p pool _ =>
      have h₁ : Solo k { s with pcb := Function.update s.pcb p {} }
          { s' with pcb := Function.update s'.pcb p {} } := by
        refine h.updatePcb rfl (fun _ => rfl) ?_
        intro _ b hb
        cases hd : k.2 <;> rw [hd] at hb <;> cases hb
      exact { h₁ with
        setup := ⟨rfl, rfl, h₁.setup.canifs, h₁.setup.pcb⟩
        num := rfl }

/-- What is no part of a flow is written alike. -/
theorem updateSetup (h : Solo k s s') (p : Nat) (f : IsotpPcb → IsotpPcb)
    (hset : ∀ pcb, (f pcb).setup = f pcb.setup) (hfl : ∀ pcb d, (f pcb).flow d = pcb.flow d) :
    Solo k { s with pcb := Function.update s.pcb p (f (s.pcb p)) }
      { s' with pcb := Function.update s'.pcb p (f (s'.pcb p)) } := by
  refine h.updatePcb ?_ ?_ ?_
  · rw [hset, hset, h.setup.pcb]
  · rintro rfl
    rw [hfl, hfl]
    exact h.flow
  · rintro rfl
    rw [hfl]
    exact List.Subset.refl _

theorem isotpBind (h : Solo k s s') (pcb : Option Nat) (addr : Option (Nat × Nat × Nat)) :
    Solo k (s.isotpBind pcb addr).2 (s'.isotpBind pcb addr).2 := by
  unfold Node.isotpBind
  split
  · next p i tx rx =>
    split
    · exact h
    · split
      · exact h
      · exact h.updateSetup p (fun pcb => { pcb with ifIndex := i, txId := tx, rxId := rx })
          (fun _ => rfl) fun _ d => by cases d <;> rfl
  · exact h

/-- **The setup** is changed alike. -/
theorem call (h : Solo k s s') {c : Call} (hc : c.setsUp) :
    Solo k (s.call cfg c) (s'.call cfg c) := by
  cases c with
  | isotpNew => exact h.isotpNew
  | isotpBind pcb addr => exact h.isotpBind pcb addr
  | isotpSetCallbacks p receive receiveFf sent error =>
    rw [call_isotpSetCallbacks, call_isotpSetCallbacks]
    exact h.updateSetup p (fun pcb => { pcb with receive, receiveFf, sent, error }) (fun _ => rfl)
      fun _ d => by cases d <;> rfl
  | isotpSetCallbackArg p arg =>
    exact h.updateSetup p (fun pcb => { pcb with callbackArg := arg }) (fun _ => rfl)
      fun _ d => by cases d <;> rfl
  | canifAdd canif name init =>
    unfold Node.call
    dsimp only
    rw [h.setup.canifs]
    exact { h with setup := ⟨h.setup.list, h.setup.pool, rfl, h.setup.pcb⟩ }
  | canifRemove canif =>
    unfold Node.call
    dsimp only
    rw [h.setup.canifs]
    exact { h with setup := ⟨h.setup.list, h.setup.pool, rfl, h.setup.pcb⟩ }
  | isotpRemove | isotpSend | isotpReceived | lwcanTimeout | lwcanUntimeout => cases hc

/-- **Time passes** in both nodes alike. -/
theorem tick (h : Solo k s s') (ms : Nat) :
    Solo k (s.next cfg (.tick ms)) (s'.next cfg (.tick ms)) :=
  { h with
    now := by
      unfold Node.next
      dsimp only
      rw [h.now]
    setup := ⟨h.setup.list, h.setup.pool, h.setup.canifs, h.setup.pcb⟩ }

end Solo
end Node
end Lwcan
