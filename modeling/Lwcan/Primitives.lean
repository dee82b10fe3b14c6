import Lwcan.View

/-!
# What the traffic is made of

Frames, confirmations and timeouts change a node by a handful of primitives: they assign to flows,
arm and cancel timeouts, write to the heap and the log, and note which confirmations are owed and
where control is (`Prims.next`). What no primitive touches, no traffic touches: the list of pcbs and
its pool, the addresses and callbacks of a pcb, and the interfaces (`SameSetup.next`). What every
primitive keeps, all traffic keeps: a property of the timer list that arming, cancelling and running
keep holds after every step (`timeouts_step`), so the entries lie in chunks of the pool
(`SlotsOk.step`).
-/

namespace Lwcan

/-- A pcb without its flows -/
def IsotpPcb.setup (pcb : IsotpPcb) : IsotpPcb := { pcb with outputFlow := {}, inputFlow := {} }

@[simp] theorem IsotpPcb.setup_setFlow (pcb : IsotpPcb) (d : Dir) (fl : IsotpFlow) :
    (pcb.setFlow d fl).setup = pcb.setup := by
  cases d <;> rfl

theorem IsotpPcb.ext_setup {pcb pcb' : IsotpPcb} (h : pcb.setup = pcb'.setup)
    (hf : ∀ d, pcb.flow d = pcb'.flow d) : pcb = pcb' := by
  have ho := hf .output
  have hi := hf .input
  cases pcb
  cases pcb'
  simp_all [setup, flow]

namespace Node

variable {cfg : Config} {s s' s'' : Node} {k : FlowId} {p : Nat} {e : Event} {es : List Event}

/-- `s'` comes from `s` by the primitives that the traffic is made of. -/
inductive Prims (s : Node) : Node → Prop
  | refl : Prims s s
  | emit {s' : Node} (h : Prims s s') (o : Obs) : Prims s (s'.emit o)
  | setFlow {s' : Node} (h : Prims s s') (k : FlowId) (fl : IsotpFlow) : Prims s (s'.setFlow k fl)
  | lwcanTimeout {s' : Node} (h : Prims s s') (n : Nat) (hd : Handler) (a : Ptr) :
    Prims s (s'.lwcanTimeout n hd a)
  | lwcanUntimeout {s' : Node} (h : Prims s s') (hd : Handler) (a : Ptr) :
    Prims s (s'.lwcanUntimeout hd a)
  | heap {s' : Node} (h : Prims s s') (heap : Heap) : Prims s { s' with heap }
  | confirms {s' : Node} (h : Prims s s') (confirms : List FlowId) : Prims s { s' with confirms }
  | suspended {s' : Node} (h : Prims s s') (suspended : Option Suspended) :
    Prims s { s' with suspended }

namespace Prims

theorem setState (h : Prims s s') (k : FlowId) (st : IsotpState) :
    Prims s (s'.setState k st) :=
  h.setFlow k _

theorem isotpRemoveBuffer (h : Prims s s') (k : FlowId) (buffer : Option Nat) :
    Prims s (s'.isotpRemoveBuffer k buffer) := by
  unfold Node.isotpRemoveBuffer
  split
  · exact h
  · split
    · exact (h.setFlow k _).heap _
    · exact h

theorem callError (h : Prims s s') (k : FlowId) (arg : Ptr) (err : Lwcanerr) :
    Prims s (s'.callError k arg err) := by
  unfold Node.callError
  split
  · exact h.emit _
  · exact h

theorem dropHead (h : Prims s s') (k : FlowId) : Prims s (s'.dropHead k) :=
  (h.emit _).isotpRemoveBuffer _ _

theorem canifOutput (h : Prims s s') (k : FlowId) (canif : Nat) (frame : CanFrame)
    (timeout : Nat) (ret : Lwcanerr) : Prims s (s'.canifOutput k canif frame timeout ret) := by
  unfold Node.canifOutput
  simp only
  split
  · exact (h.emit _).confirms _
  · exact (((h.emit _).dropHead k).setState _ _).callError _ _ _

theorem runHandler (h : Prims s s') (hd : Handler) (arg : Ptr) (frame : CanFrame)
    (ret : Lwcanerr) : Prims s (s'.runHandler cfg hd arg frame ret) := by
  -- One bullet for each handler, and in it one for each state that it switches on.
  unfold Node.runHandler
  split
  · unfold isotpOutFlowOutput
    split
    · split
      · exact h
      · simp only
        split
        · exact (h.setFlow _ _).canifOutput _ _ _ _ _
        · exact (h.setFlow _ _).canifOutput _ _ _ _ _
        · exact (h.setFlow _ _).canifOutput _ _ _ _ _
        · exact h
    · exact h
  · unfold isotpInFlowOutput
    split
    · split
      · exact h
      · simp only
        split
        · exact h.canifOutput _ _ _ _ _
        · exact h
    · exact h
  · unfold isotpOutputErrorHandler
    split
    · exact ((h.dropHead _).setState _ _).callError _ _ _
    · exact h
  · unfold isotpInputErrorHandler
    split
    · exact ((h.dropHead _).setState _ _).callError _ _ _
    · exact h
  · exact h

theorem sentSf (h : Prims s s') (p : Nat) : Prims s (s'.sentSf p) := by
  unfold Node.sentSf
  simp only
  split
  · exact ((h.isotpRemoveBuffer _ _).setState _ _).emit _
  · exact (h.isotpRemoveBuffer _ _).setState _ _

theorem isotpSentSwitch (h : Prims s s') (k : FlowId) :
    Prims s (s'.isotpSentSwitch cfg k) := by
  unfold Node.isotpSentSwitch
  split
  · exact h.sentSf _
  · unfold sentFf
    split
    · exact h
    · exact ((h.setState _ _).emit _).lwcanTimeout _ _ _
  · unfold sentCf
    simp only
    split
    · exact h.sentSf _
    · split
      · exact ((h.setFlow _ _).setState _ _).lwcanTimeout _ _ _
      · exact (((h.setFlow _ _).setState _ _).emit _).lwcanTimeout _ _ _
  · unfold sentFc
    split
    · exact (h.setState _ _).callError _ _ _
    · exact (h.setState _ _).lwcanTimeout _ _ _
  · exact h

theorem isotpSent (h : Prims s s') (k : FlowId) (err : Lwcanerr) :
    Prims s (s'.isotpSent cfg k err) := by
  unfold Node.isotpSent
  split
  · have h₁ := (h.dropHead k).setState k .idle
    simp only
    split
    · exact (h₁.emit _).suspended _
    · exact h₁.isotpSentSwitch k
  · exact h.isotpSentSwitch k

theorem isotpReceived (h : Prims s s') (pcb buffer : Option Nat) :
    Prims s (s'.isotpReceived pcb buffer).2 := by
  unfold Node.isotpReceived
  split
  · next p b => exact (h.emit (.released p b)).isotpRemoveBuffer (p, .input) (some b)
  · exact h

theorem deliver (h : Prims s s') (p : Nat) : Prims s (s'.deliver p) := by
  unfold Node.deliver
  simp only
  split
  · split
    · exact h.emit _
    · exact h
  · exact h.isotpReceived _ _

theorem storeData (h : Prims s s') (p : Nat) (source : Nat → UInt8) (n off : Nat) :
    Prims s (s'.storeData p source n off) :=
  (h.emit _).heap _

theorem storeCfData (h : Prims s s') (p : Nat) (data : Nat → UInt8) (n : Nat) :
    Prims s (s'.storeCfData p data n) := by
  unfold Node.storeCfData
  simp only
  split
  · exact (h.storeData _ _ _ _).setFlow _ _
  · exact (h.storeData _ _ _ _).setFlow _ _

theorem receivedFfOutput (h : Prims s s') (p : Nat) :
    Prims s (s'.receivedFfOutput cfg p) :=
  (h.setFlow _ _).lwcanTimeout _ _ _

theorem receivedFfStore (h : Prims s s') (p : Nat) (frame : CanFrame) (b n : Nat) :
    Prims s (s'.receivedFfStore cfg p frame b n) := by
  unfold Node.receivedFfStore storeFfData
  exact (((((h.setFlow _ _).emit _).storeData _ _ _ _).setFlow _ _).setFlow _ _).receivedFfOutput p

theorem isotpInput (h : Prims s s') (canif : Nat) (frame : CanFrame) (g : Grant) :
    Prims s (s'.isotpInput cfg canif frame g) := by
  unfold Node.isotpInput
  split
  · exact h
  · next p _ =>
    -- which kind of frame it is, and on each branch what the source does there
    split
    · -- a single frame
      unfold receivedSf
      simp only
      split
      · exact h
      · split
        · exact (h.heap _).callError _ _ _
        · exact ((((h.heap _).setFlow _ _).emit _).storeData _ _ _ _).deliver p
    · split
      · -- a first frame
        unfold receivedFf
        simp only
        split
        · exact h
        · split
          · split
            · exact (((h.heap _).setFlow _ _).emit _).suspended _
            · exact ((h.heap _).setFlow _ _).receivedFfOutput p
          · split
            · exact ((h.heap _).emit _).suspended _
            · exact (h.heap _).receivedFfStore p _ _ _
      · split
        · -- a consecutive frame
          unfold receivedCf receivedCfOutput
          simp only
          have h₁ := (h.emit (.consecutive p frame.wire)).lwcanUntimeout .isotpInputErrorHandler
            (.pcb p)
          split
          · exact h
          · split
            · exact (((h₁.dropHead _).setFlow _ _).setState _ _).lwcanTimeout _ _ _
            · have h₂ := h₁.storeCfData p frame.data frame.len
              split
              · exact (h₂.setState _ _).deliver p
              · split
                · exact ((h₂.setFlow _ _).setState _ _).lwcanTimeout _ _ _
                · exact (((h₂.setFlow _ _).setFlow _ _).setState _ _).lwcanTimeout _ _ _
        · split
          · -- flow control
            unfold receivedFc
            simp only
            split
            · exact h
            · have h₁ := ((h.emit (.flowControl p (frame.data 0 &&& 15).toNat (frame.data 1).toNat
                (frame.data 2).toNat)).lwcanUntimeout .isotpOutputErrorHandler (.pcb p)).setFlow
                  (p, .output)
              split
              · exact ((h₁ _).setFlow _ _).lwcanTimeout _ _ _
              · split
                · exact (((h₁ _).dropHead _).setState _ _).callError _ _ _
                · exact ((h₁ _).setFlow _ _).lwcanTimeout _ _ _
          · exact h

theorem isotpSend (h : Prims s s') (pcb : Option Nat) (data : Option (List UInt8)) (g : Grant) :
    Prims s (s'.isotpSend cfg pcb data g).2 := by
  unfold Node.isotpSend
  split
  · simp only
    split
    · exact h
    · split
      · exact h
      · split
        · exact h.heap _
        · exact (((h.heap _).setFlow _ _).emit _).lwcanTimeout _ _ _
  · exact h

/-- **Traffic** is made of the primitives, but for the timeout that runs and is unlinked. -/
theorem next (cfg : Config) (s : Node) (he : ∀ c, e ≠ .call c)
    (ht : ∀ frame ret, e ≠ .timer frame ret) : Prims s (s.next cfg e) ∨ ∃ ms, e = .tick ms := by
  cases e with
  | call c => exact absurd rfl (he c)
  | timer frame ret => exact absurd rfl (ht frame ret)
  | input canif frame g => exact Or.inl (refl.isotpInput canif frame g)
  | sent k err => exact Or.inl ((refl.confirms _).isotpSent k err)
  | resume =>
    refine Or.inl ?_
    unfold Node.next
    simp only
    split
    · exact refl
    · next f _ =>
      have h : Prims s { s with suspended := none } := refl.suspended none
      cases f with
      | receivedFf p frame b n => exact h.receivedFfStore p frame b n
      | receivedFfOutput p => exact h.receivedFfOutput p
      | isotpSent k => exact h.isotpSentSwitch k
  | tick ms => exact Or.inr ⟨ms, rfl⟩

end Prims

/-! ### The setup -/

/-- Two nodes with the same pcbs, addresses, callbacks and interfaces -/
structure SameSetup (s s' : Node) : Prop where
  list : s'.isotpPcbList = s.isotpPcbList
  pool : s'.isotpMemPool = s.isotpMemPool
  canifs : s'.canifs = s.canifs
  pcb : ∀ p, (s'.pcb p).setup = (s.pcb p).setup

theorem SameSetup.refl (s : Node) : SameSetup s s := ⟨rfl, rfl, rfl, fun _ => rfl⟩

theorem Prims.sameSetup (h : Prims s s') : SameSetup s s' := by
  induction h with
  | refl => exact SameSetup.refl s
  | setFlow h k fl ih =>
    exact ⟨ih.list, ih.pool, ih.canifs, fun p => (setFlow_pcb_proj IsotpPcb.setup
      (fun _ d _ => IsotpPcb.setup_setFlow _ d _) _ k fl p).trans (ih.pcb p)⟩
  | emit _ _ ih => exact ⟨ih.list, ih.pool, ih.canifs, ih.pcb⟩
  | lwcanTimeout _ _ _ _ ih => exact ⟨ih.list, ih.pool, ih.canifs, ih.pcb⟩
  | lwcanUntimeout _ _ _ ih => exact ⟨ih.list, ih.pool, ih.canifs, ih.pcb⟩
  | heap _ _ ih => exact ⟨ih.list, ih.pool, ih.canifs, ih.pcb⟩
  | confirms _ _ ih => exact ⟨ih.list, ih.pool, ih.canifs, ih.pcb⟩
  | suspended _ _ ih => exact ⟨ih.list, ih.pool, ih.canifs, ih.pcb⟩

/-- **Traffic** changes nothing of the setup. -/
theorem SameSetup.next (s : Node) (he : ∀ c, e ≠ .call c) : SameSetup s (s.next cfg e) := by
  by_cases ht : ∃ frame ret, e = .timer frame ret
  · obtain ⟨frame, ret, rfl⟩ := ht
    unfold Node.next
    simp only
    split
    · exact refl s
    · next x timeouts _ =>
      have h : SameSetup { s with timeouts }
          (({ s with timeouts } : Node).runHandler cfg x.handler x.arg frame ret) :=
        (Prims.refl.runHandler x.handler x.arg frame ret).sameSetup
      exact ⟨h.list, h.pool, h.canifs, h.pcb⟩
  · rcases Prims.next cfg s he fun frame ret h => ht ⟨frame, ret, h⟩ with h | ⟨ms, rfl⟩
    · exact h.sameSetup
    · exact ⟨rfl, rfl, rfl, fun _ => rfl⟩

theorem SameSetup.step (hst : Node.step cfg s e = some s') (he : ∀ c, e ≠ .call c) :
    SameSetup s s' := by
  obtain ⟨-, rfl⟩ := step_eq_some.mp hst
  exact next s he

theorem SameSetup.trans (h : SameSetup s s') (h' : SameSetup s' s'') : SameSetup s s'' :=
  ⟨h'.list.trans h.list, h'.pool.trans h.pool, h'.canifs.trans h.canifs,
    fun p => (h'.pcb p).trans (h.pcb p)⟩

/-- What is no part of a flow is the same. -/
theorem SameSetup.proj (h : SameSetup s s') {α : Type*} (f : IsotpPcb → α)
    (hf : ∀ pcb, f (IsotpPcb.setup pcb) = f pcb) (p : Nat) : f (s'.pcb p) = f (s.pcb p) := by
  rw [← hf, h.pcb p, hf]

/-- Frames are dispatched as before. -/
theorem SameSetup.findPcb (h : SameSetup s s') (canif : Nat) (frame : CanFrame) :
    s'.findPcb canif frame = s.findPcb canif frame := by
  unfold Node.findPcb
  rw [h.list, h.canifs]
  congr 1
  funext p
  rw [h.proj IsotpPcb.ifIndex (fun _ => rfl), h.proj IsotpPcb.rxId fun _ => rfl]

/-! ### The timer list -/

section TimerList

variable {I : Timeouts Handler Ptr → Prop}
  (harm : ∀ {t : Timeouts Handler Ptr} (now n : Nat) (hd : Handler) (a : Ptr), I t →
    I (t.lwcanTimeout now n hd a))
  (hcancel : ∀ {t : Timeouts Handler Ptr} (hd : Handler) (a : Ptr), I t → I (t.lwcanUntimeout hd a))
  (hexpire : ∀ {t t' : Timeouts Handler Ptr} {now : Nat} {e : Timeout Handler Ptr}, I t →
    t.expire now = some (e, t') → I t')

include harm hcancel in
theorem Prims.timeouts (h : Prims s s') (hs : I s.timeouts) : I s'.timeouts := by
  induction h with
  | refl => exact hs
  | emit _ _ ih => exact ih
  | setFlow _ _ _ ih => exact ih
  | lwcanTimeout _ _ _ _ ih => exact harm _ _ _ _ ih
  | lwcanUntimeout _ _ _ ih => exact hcancel _ _ ih
  | heap _ _ ih => exact ih
  | confirms _ _ ih => exact ih
  | suspended _ _ ih => exact ih

include harm hcancel hexpire in
/-- **What arming, cancelling and running keep of the timer list**, every step keeps. -/
theorem timeouts_step (h : I s.timeouts) (hst : Node.step cfg s e = some s') : I s'.timeouts := by
  obtain ⟨-, rfl⟩ := step_eq_some.mp hst
  by_cases hc : ∃ c, e = .call c
  · obtain ⟨c, rfl⟩ := hc
    cases c with
    | isotpNew =>
      show I (s.isotpNew cfg).2.timeouts
      unfold isotpNew
      split
      · exact h
      · split <;> exact h
    | isotpBind pcb addr =>
      show I (s.isotpBind pcb addr).2.timeouts
      unfold isotpBind
      split
      · split
        · exact h
        · split <;> exact h
      · exact h
    | isotpRemove pcb =>
      show I (s.isotpRemove pcb).timeouts
      unfold isotpRemove
      split
      · exact h
      · split <;> exact h
    | isotpSetCallbacks | isotpSetCallbackArg | canifAdd | canifRemove => exact h
    | isotpSend pcb data g => exact (Prims.refl.isotpSend pcb data g).timeouts harm hcancel h
    | isotpReceived pcb buffer =>
      exact (Prims.refl.isotpReceived pcb buffer).timeouts harm hcancel h
    | lwcanTimeout timeMs n arg => exact harm _ _ _ _ h
    | lwcanUntimeout n arg => exact hcancel _ _ h
  · have hnc : ∀ c, e ≠ .call c := fun c hc' => hc ⟨c, hc'⟩
    by_cases ht : ∃ frame ret, e = .timer frame ret
    · -- the timer takes its entry off first
      obtain ⟨frame, ret, rfl⟩ := ht
      unfold Node.next
      simp only
      split
      · exact h
      · next x timeouts hx =>
        have h' : I ({ s with timeouts } : Node).timeouts := hexpire h hx
        exact (Prims.refl.runHandler x.handler x.arg frame ret).timeouts harm hcancel h'
    · rcases Prims.next cfg s hnc fun frame ret h => ht ⟨frame, ret, h⟩ with hp | ⟨ms, rfl⟩
      · exact hp.timeouts harm hcancel h
      · exact h

end TimerList

/-- **The timer list stays within its pool** in every step. -/
theorem SlotsOk.step (h : s.timeouts.SlotsOk) (hst : Node.step cfg s e = some s') :
    s'.timeouts.SlotsOk :=
  timeouts_step (fun _ _ _ _ h => h.lwcanTimeout _ _ _ _) (fun _ _ h => h.lwcanUntimeout _ _)
    (fun h he => h.expire he) h hst

end Node
end Lwcan
