import Lwcan.Independence

/-!
# What a step does to the timer list

A step takes off the entry that runs, cancels an entry, arms one, or answers a frame by cancelling
one and arming another. What it arms for a flow is the flow's output handler, or its error handler
with the time the peer is given.

* `TimerStep` — the shapes, and `timerStep` that every step has one of them, but for a timeout that
  the application arms;
* `mem_timeouts_step` — so an entry that is new is the application's, or belongs to a flow and is
  due when `Arms` says;
* `receivedFc_timeouts`, `receivedCf_timeouts` — a frame that is awaited cancels the entry it was
  awaited with, whatever is armed then;
* `Settled` — what the results on timers rest on: the buffers and the pcbs are in order, and at most
  one thing is pending for each flow.
-/

namespace Lwcan

/-- The time a flow's peer is given: N_BS for a flow control, N_CR for a consecutive frame -/
def errorDelay (cfg : Config) : Dir → Nat
  | .output => cfg.nBs
  | .input => cfg.nCr

/-- What is armed for a flow: its output handler, or its error handler with the time the peer is
given -/
def Arms (cfg : Config) (d : Dir) (h : Handler) (n : Nat) : Prop :=
  h = outputHandler d ∨ h = errorHandler d ∧ n = errorDelay cfg d

/-- The handler is one of the applications'. -/
def Handler.isUser : Handler → Bool
  | .user _ => true
  | .isotpOutFlowOutput | .isotpInFlowOutput | .isotpOutputErrorHandler | .isotpInputErrorHandler =>
    false

theorem Arms.not_user {cfg : Config} {d : Dir} {h : Handler} {n : Nat} (ha : Arms cfg d h n) :
    h.isUser = false := by
  rcases ha with rfl | ⟨rfl, -⟩
  · cases d <;> rfl
  · cases d <;> rfl

/-- **What the library makes of the timer list** in a step -/
inductive TimerStep (cfg : Config) (now : Nat) (t : Timeouts Handler Ptr) :
    Timeouts Handler Ptr → Prop
  | same : TimerStep cfg now t t
  | ran {x : Timeout Handler Ptr} {t' : Timeouts Handler Ptr} (h : t.expire now = some (x, t')) :
    TimerStep cfg now t t'
  | cancelled {hd : Handler} (h : ∀ d, hd ≠ outputHandler d) (a : Ptr) :
    TimerStep cfg now t (t.lwcanUntimeout hd a)
  | armed (k : FlowId) {hd : Handler} {n : Nat} (ha : Arms cfg k.2 hd n) :
    TimerStep cfg now t (t.lwcanTimeout now n hd (.pcb k.1))
  | rearmed (k : FlowId) {hd : Handler} {n : Nat} (ha : Arms cfg k.2 hd n) :
    TimerStep cfg now t
      ((t.lwcanUntimeout (errorHandler k.2) (.pcb k.1)).lwcanTimeout now n hd (.pcb k.1))

namespace TimerStep

variable {cfg : Config} {now : Nat} {t t' : Timeouts Handler Ptr} {x : Timeout Handler Ptr}
  {d : Dir} {a : Ptr}

/-- **An entry after a step** was pending before, or was armed for a flow. -/
theorem mem_cases (h : TimerStep cfg now t t') (hx : x ∈ t'.nextTimeout) :
    x ∈ t.nextTimeout ∨ ∃ k : FlowId, ∃ n, Arms cfg k.2 x.handler n ∧ x.arg = .pcb k.1 ∧
      x.time = u32 ((now : Int) + n) := by
  -- whatever was cancelled or run before, what is new is what was armed
  cases h with
  | same => exact Or.inl hx
  | ran he =>
    rw [(Timeouts.expire_eq_some he).1]
    exact Or.inl (List.mem_cons_of_mem _ hx)
  | cancelled => exact Or.inl (Timeouts.mem_of_mem_lwcanUntimeout hx)
  | armed k ha =>
    rcases Timeouts.mem_lwcanTimeout hx with hold | ⟨hh, harg, -, htime⟩
    · exact Or.inl hold
    · rw [← hh] at ha
      exact Or.inr ⟨k, _, ha, harg, htime⟩
  | rearmed k ha =>
    rcases Timeouts.mem_lwcanTimeout hx with hold | ⟨hh, harg, -, htime⟩
    · exact Or.inl (Timeouts.mem_of_mem_lwcanUntimeout hold)
    · rw [← hh] at ha
      exact Or.inr ⟨k, _, ha, harg, htime⟩

/-- The library arms no timeout of the applications. -/
theorem users_le (h : TimerStep cfg now t t') :
    t'.nextTimeout.countP (·.handler.isUser) ≤ t.nextTimeout.countP (·.handler.isUser) := by
  -- a flow arms no entry of the application
  have harm : ∀ (u : Timeouts Handler Ptr) (k : FlowId) {hd : Handler}
      {n : Nat}, Arms cfg k.2 hd n →
      (u.lwcanTimeout now n hd (.pcb k.1)).nextTimeout.countP (·.handler.isUser) =
        u.nextTimeout.countP (·.handler.isUser) := by
    intro u k hd n ha
    rcases Timeouts.lwcanTimeout_cases u now n hd (.pcb k.1) with ⟨-, he⟩ | ⟨mem, pool, -, -, he⟩
    · rw [he]
    · rw [he, (Timeouts.insert_perm _ _).countP_eq, List.countP_cons_of_neg (by simp [ha.not_user])]
  have hcancel : ∀ (hd : Handler) (a : Ptr),
      (t.lwcanUntimeout hd a).nextTimeout.countP (·.handler.isUser) ≤
        t.nextTimeout.countP (·.handler.isUser) := by
    intro hd a
    rw [Timeouts.nextTimeout_lwcanUntimeout]
    exact List.eraseP_sublist.countP_le
  cases h with
  | same => exact le_refl _
  | ran he =>
    rw [(Timeouts.expire_eq_some he).1]
    exact (List.sublist_cons_self _ _).countP_le
  | cancelled => exact hcancel _ _
  | armed k ha => exact (harm t k ha).le
  | rearmed k ha => exact (harm _ k ha).trans_le (hcancel _ _)

/-- Where an entry that was not pending is linked, there is one more of its kind. -/
theorem pending_lt_of_new {hd : Handler} {n : Nat}
    (hx : x ∈ (t.lwcanTimeout now n hd a).nextTimeout) (hold : x ∉ t.nextTimeout) :
    t.pending x.handler x.arg < (t.lwcanTimeout now n hd a).pending x.handler x.arg := by
  obtain ⟨hh, harg, -, -⟩ := (Timeouts.mem_lwcanTimeout hx).resolve_left hold
  rw [Timeouts.pending_lwcanTimeout, hh, harg]
  rcases Timeouts.lwcanTimeout_cases t now n hd a with ⟨-, he⟩ | ⟨mem, pool, hs, -, -⟩
  · exact absurd (he ▸ hx) hold
  · simp [hs]

/-- **An entry of an output handler**, unless there are more of them than before, was pending
before. -/
theorem output_mem (h : TimerStep cfg now t t') (hx : x ∈ t'.nextTimeout)
    (hh : x.handler = outputHandler d)
    (hle : t'.pending x.handler x.arg ≤ t.pending x.handler x.arg) : x ∈ t.nextTimeout := by
  cases h with
  | same => exact hx
  | ran he =>
    rw [(Timeouts.expire_eq_some he).1]
    exact List.mem_cons_of_mem _ hx
  | cancelled => exact Timeouts.mem_of_mem_lwcanUntimeout hx
  | armed k ha =>
    by_contra hold
    exact absurd hle (not_le.mpr (pending_lt_of_new hx hold))
  | rearmed k ha =>
    by_contra hold
    -- what is cancelled is of an error handler
    have hcancel : (t.lwcanUntimeout (errorHandler k.2) (.pcb k.1)).pending x.handler x.arg =
        t.pending x.handler x.arg := by
      rw [Timeouts.pending_lwcanUntimeout, if_neg, Nat.sub_zero]
      rintro ⟨he, -⟩
      exact outputHandler_ne_errorHandler d k.2 (hh.symm.trans he.symm)
    have hlt := pending_lt_of_new hx fun hm => hold (Timeouts.mem_of_mem_lwcanUntimeout hm)
    rw [hcancel] at hlt
    exact absurd hle (not_le.mpr hlt)

end TimerStep

namespace Node

variable {cfg : Config} {s s' : Node} {k : FlowId} {p : Nat} {e : Event} {es : List Event}

/-! ### The functions -/

theorem sentSf_timeouts (s : Node) (p : Nat) : (s.sentSf p).timeouts = s.timeouts := by
  unfold sentSf
  dsimp only
  split
  · exact isotpRemoveBuffer_timeouts ..
  · exact isotpRemoveBuffer_timeouts ..

/-- The switch of `isotp_sent` arms one entry at most. -/
theorem isotpSentSwitch_timerStep (s : Node) (k : FlowId) :
    TimerStep cfg s.now s.timeouts (s.isotpSentSwitch cfg k).timeouts := by
  unfold isotpSentSwitch
  split
  · rw [sentSf_timeouts]
    exact .same
  · unfold sentFf
    split
    · exact .same
    · exact TimerStep.armed (k.1, .output) (Or.inr ⟨rfl, rfl⟩)
  · unfold sentCf
    dsimp only
    split
    · -- the end of a segmented message is that of a single frame
      show TimerStep cfg s.now s.timeouts (s.sentSf k.1).timeouts
      rw [sentSf_timeouts]
      exact .same
    · split
      · exact TimerStep.armed (k.1, .output) (Or.inl rfl)
      · exact TimerStep.armed (k.1, .output) (Or.inr ⟨rfl, rfl⟩)
  · unfold sentFc callError
    split
    · split <;> exact .same
    · exact TimerStep.armed (k.1, .input) (Or.inr ⟨rfl, rfl⟩)
  · exact .same

theorem dropHead_timeouts (s : Node) (k : FlowId) : (s.dropHead k).timeouts = s.timeouts :=
  isotpRemoveBuffer_timeouts ..

theorem isotpSent_timerStep (s : Node) (k : FlowId) (err : Lwcanerr) :
    TimerStep cfg s.now s.timeouts (s.isotpSent cfg k err).timeouts := by
  unfold isotpSent
  split
  · have hdrop : ((s.dropHead k).setState k .idle).timeouts = s.timeouts := dropHead_timeouts s k
    dsimp only
    split
    · show TimerStep cfg s.now s.timeouts ((s.dropHead k).setState k .idle).timeouts
      rw [hdrop]
      exact .same
    · -- the flow is idle, so the switch arms nothing
      have hidle : (((s.dropHead k).setState k .idle).flow k).state = .idle := by
        rw [setState, flow_setFlow_self]
      unfold isotpSentSwitch
      rw [hidle]
      dsimp only
      rw [hdrop]
      exact .same
  · exact isotpSentSwitch_timerStep s k

theorem receivedFfOutput_timerStep (s : Node) (p : Nat) :
    TimerStep cfg s.now s.timeouts (s.receivedFfOutput cfg p).timeouts :=
  TimerStep.armed (p, .input) (Or.inl rfl)

theorem receivedFfStore_timerStep (s : Node) (p : Nat) (frame : CanFrame) (b n : Nat) :
    TimerStep cfg s.now s.timeouts (s.receivedFfStore cfg p frame b n).timeouts := by
  have hstore : ∀ a : Node, (a.storeFfData cfg p frame.data frame.len).timeouts = a.timeouts ∧
      (a.storeFfData cfg p frame.data frame.len).now = a.now :=
    fun a => ⟨storeFfData_timeouts a p frame.data frame.len, by unfold storeFfData; rfl⟩
  unfold receivedFfStore receivedFfOutput
  show TimerStep cfg s.now s.timeouts (Timeouts.lwcanTimeout
    (storeFfData cfg _ p frame.data frame.len).timeouts
    (storeFfData cfg _ p frame.data frame.len).now 0 _ _)
  rw [(hstore _).1, (hstore _).2]
  exact TimerStep.armed (p, .input) (Or.inl rfl)

theorem receivedFf_timerStep (s : Node) (p : Nat) (frame : CanFrame) (g : Grant) :
    TimerStep cfg s.now s.timeouts (s.receivedFf cfg p frame g).timeouts := by
  unfold receivedFf
  dsimp only
  split
  · exact .same
  · split
    · split
      · exact .same
      · exact TimerStep.armed (p, .input) (Or.inl rfl)
    · next b heap _ =>
      split
      · exact .same
      · exact receivedFfStore_timerStep { s with heap } p frame b _

/-- **A consecutive frame that is awaited** cancels the entry it was awaited with. -/
theorem receivedCf_timeouts (cfg : Config) (frame : CanFrame)
    (hs : (s.flow (p, .input)).state = .waitCf) :
    let t := s.timeouts.lwcanUntimeout .isotpInputErrorHandler (.pcb p)
    (s.receivedCf cfg p frame).timeouts = t ∨ ∃ hd n, Arms cfg .input hd n ∧
      (s.receivedCf cfg p frame).timeouts = t.lwcanTimeout s.now n hd (.pcb p) := by
  unfold receivedCf
  rw [if_neg (not_not.mpr hs)]
  intro t
  dsimp only
  generalize ha : (s.emit (.consecutive p frame.wire)).lwcanUntimeout .isotpInputErrorHandler
    (.pcb p) = a
  have hta : a.timeouts = t := by rw [← ha]; rfl
  have hnow : a.now = s.now := by rw [← ha]; rfl
  -- storing a frame and dropping a message leave the timers and the clock alone
  have hstore := (storeCfData_parts a p frame.data frame.len).1
  have hfixed := (Prims.storeCfData (Prims.refl (s := a)) p frame.data frame.len).fixed.2
  have hdrop := (Prims.dropHead (Prims.refl (s := a)) (p, .input)).fixed.2
  rw [← hta, ← hnow]
  -- a wrong number, a message that is complete, a block that goes on or is over
  split
  · refine Or.inr ⟨_, 0, Or.inl rfl, ?_⟩
    show Timeouts.lwcanTimeout (a.dropHead (p, .input)).timeouts
      (a.dropHead (p, .input)).now _ _ _ = _
    rw [dropHead_timeouts, hdrop]
    rfl
  · split
    · rw [deliver_timeouts]
      exact Or.inl hstore
    · split
      · refine Or.inr ⟨_, cfg.nCr, Or.inr ⟨rfl, rfl⟩, ?_⟩
        show Timeouts.lwcanTimeout (a.storeCfData p frame.data frame.len).timeouts
          (a.storeCfData p frame.data frame.len).now _ _ _ = _
        rw [hstore, hfixed]
        rfl
      · refine Or.inr ⟨_, 0, Or.inl rfl, ?_⟩
        show Timeouts.lwcanTimeout (a.storeCfData p frame.data frame.len).timeouts
          (a.storeCfData p frame.data frame.len).now _ _ _ = _
        rw [hstore, hfixed]
        rfl

/-- **A flow control that is awaited** cancels the entry it was awaited with. -/
theorem receivedFc_timeouts (cfg : Config) (frame : CanFrame)
    (hs : (s.flow (p, .output)).state = .waitFc) :
    let t := s.timeouts.lwcanUntimeout .isotpOutputErrorHandler (.pcb p)
    (s.receivedFc cfg p frame).timeouts = t ∨ ∃ hd n, Arms cfg .output hd n ∧
      (s.receivedFc cfg p frame).timeouts = t.lwcanTimeout s.now n hd (.pcb p) := by
  unfold receivedFc callError
  rw [if_neg (not_not.mpr hs)]
  intro t
  dsimp only
  -- the peer asks for time, gives up or is ready
  split
  · exact Or.inr ⟨_, cfg.nBs, Or.inr ⟨rfl, rfl⟩, rfl⟩
  · split
    · refine Or.inl ?_
      split
      · exact dropHead_timeouts ..
      · exact dropHead_timeouts ..
    · exact Or.inr ⟨_, 0, Or.inl rfl, rfl⟩

theorem receivedCf_timerStep (s : Node) (p : Nat) (frame : CanFrame) :
    TimerStep cfg s.now s.timeouts (s.receivedCf cfg p frame).timeouts := by
  by_cases hs : (s.flow (p, .input)).state = .waitCf
  · rcases receivedCf_timeouts cfg frame hs with heq | ⟨hd, n, ha, heq⟩
    · rw [heq]
      exact .cancelled (fun d => (outputHandler_ne_errorHandler d .input).symm) _
    · rw [heq]
      exact .rearmed (p, .input) ha
  · unfold receivedCf
    rw [if_pos hs]
    exact .same

theorem receivedFc_timerStep (s : Node) (p : Nat) (frame : CanFrame) :
    TimerStep cfg s.now s.timeouts (s.receivedFc cfg p frame).timeouts := by
  by_cases hs : (s.flow (p, .output)).state = .waitFc
  · rcases receivedFc_timeouts cfg frame hs with heq | ⟨hd, n, ha, heq⟩
    · rw [heq]
      exact .cancelled (fun d => (outputHandler_ne_errorHandler d .output).symm) _
    · rw [heq]
      exact .rearmed (p, .output) ha
  · unfold receivedFc
    rw [if_pos hs]
    exact .same

theorem isotpInput_timerStep (s : Node) (canif : Nat) (frame : CanFrame) (g : Grant) :
    TimerStep cfg s.now s.timeouts (s.isotpInput cfg canif frame g).timeouts := by
  unfold isotpInput
  split
  · exact .same
  · next p _ =>
    split
    · rw [receivedSf_timeouts]
      exact .same
    · split
      · exact receivedFf_timerStep s p frame g
      · split
        · exact receivedCf_timerStep s p frame
        · split
          · exact receivedFc_timerStep s p frame
          · exact .same

theorem isotpSend_timerStep (s : Node) (pcb : Option Nat) (data : Option (List UInt8)) (g : Grant) :
    TimerStep cfg s.now s.timeouts (s.isotpSend cfg pcb data g).2.timeouts := by
  unfold isotpSend
  split
  · next p d =>
    dsimp only
    split
    · exact .same
    · split
      · exact .same
      · split
        · exact .same
        · exact TimerStep.armed (p, .output) (Or.inl rfl)
  · exact .same

/-- **Every step** has one of the shapes, but for a timeout that the application arms. -/
theorem timerStep (hst : step cfg s e = some s') (hn : ∀ m n a, e ≠ .call (.lwcanTimeout m n a)) :
    TimerStep cfg s.now s.timeouts s'.timeouts := by
  obtain ⟨-, rfl⟩ := step_eq_some.mp hst
  -- each event cancels, arms or runs one entry at most
  cases e with
  | call c =>
    cases c with
    | isotpNew =>
      show TimerStep cfg s.now s.timeouts (s.isotpNew cfg).2.timeouts
      unfold isotpNew
      split
      · exact .same
      · split <;> exact .same
    | isotpBind pcb addr =>
      show TimerStep cfg s.now s.timeouts (s.isotpBind pcb addr).2.timeouts
      unfold isotpBind
      split
      · split
        · exact .same
        · split <;> exact .same
      · exact .same
    | isotpRemove pcb =>
      show TimerStep cfg s.now s.timeouts (s.isotpRemove pcb).timeouts
      unfold isotpRemove
      split
      · exact .same
      · split <;> exact .same
    | isotpSetCallbacks | isotpSetCallbackArg | canifAdd | canifRemove => exact .same
    | isotpSend pcb data g => exact isotpSend_timerStep s pcb data g
    | isotpReceived pcb buffer =>
      have heq : (s.isotpReceived pcb buffer).2.timeouts = s.timeouts := by
        unfold isotpReceived
        split
        · exact isotpRemoveBuffer_timeouts ..
        · rfl
      show TimerStep cfg s.now s.timeouts (s.isotpReceived pcb buffer).2.timeouts
      rw [heq]
      exact .same
    | lwcanTimeout timeMs n arg => exact absurd rfl (hn timeMs n arg)
    | lwcanUntimeout n arg => exact .cancelled (fun d => by cases d <;> nofun) _
  | input canif frame g => exact isotpInput_timerStep s canif frame g
  | timer frame ret =>
    unfold next
    dsimp only
    split
    · exact .same
    · next hx =>
      rw [runHandler_timeouts]
      exact .ran hx
  | sent k err => exact isotpSent_timerStep { s with confirms := s.confirms.erase k } k err
  | resume =>
    unfold next
    dsimp only
    split
    · exact .same
    · next f _ =>
      cases f with
      | receivedFf p frame b n =>
        exact receivedFfStore_timerStep { s with suspended := none } p frame b n
      | receivedFfOutput p => exact receivedFfOutput_timerStep { s with suspended := none } p
      | isotpSent k => exact isotpSentSwitch_timerStep { s with suspended := none } k
  | tick ms => exact .same

/-- **An entry after a step** was pending before, or is the application's, or was armed for a
flow. -/
theorem mem_timeouts_step {x : Timeout Handler Ptr} (hst : step cfg s e = some s')
    (hx : x ∈ s'.timeouts.nextTimeout) :
    x ∈ s.timeouts.nextTimeout ∨ x.handler.isUser ∨
      ∃ k : FlowId, ∃ n, Arms cfg k.2 x.handler n ∧ x.arg = .pcb k.1 ∧
        x.time = u32 ((s.now : Int) + n) := by
  by_cases hn : ∃ m n a, e = .call (.lwcanTimeout m n a)
  · obtain ⟨m, n, a, rfl⟩ := hn
    obtain ⟨-, rfl⟩ := step_eq_some.mp hst
    rcases Timeouts.mem_lwcanTimeout hx with hold | ⟨hh, -, -, -⟩
    · exact Or.inl hold
    · rw [hh]
      exact Or.inr (Or.inl rfl)
  · rcases (timerStep hst fun m n a he => hn ⟨m, n, a, he⟩).mem_cases hx with hold | hnew
    · exact Or.inl hold
    · exact Or.inr (Or.inr hnew)

/-! ### What holds of every flow -/

/-- The node is sound, unused pcbs are untouched, and at most one thing is pending for each flow. -/
structure Settled (cfg : Config) (s : Node) : Prop where
  sound : Sound s
  unused : Unused cfg s
  pending : ∀ k, AtMostOne (s.view k)

/-- A step of a node that keeps its pcbs, whose drivers confirm what they accept, and that accepts
no message inside the error callback of its own failed confirmation -/
def Orderly (s : Node) (e : Event) : Prop := KeepsPcbs s e ∧ ConfirmsAccepted s e ∧ SendsOutside s e

instance (s : Node) (e : Event) : Decidable (Orderly s e) := inferInstanceAs (Decidable (_ ∧ _ ∧ _))

namespace Settled

theorem initial (cfg : Config) : Settled cfg (lwcanInit cfg) where
  sound := Sound.initial cfg
  unused := Unused.initial cfg
  pending k := by
    rw [view_lwcanInit]
    exact AtMostOne.initial

theorem step (h : Settled cfg s) (ho : Orderly s e) (hst : Node.step cfg s e = some s') :
    Settled cfg s' where
  sound := h.sound.step hst
  unused := h.unused.step h.sound ho.1 hst
  pending := by
    rintro ⟨p, d⟩
    cases d with
    | output =>
      rcases output_moves h.sound h.unused hst p with he | ⟨hn, hm⟩
      · rw [he]
        exact h.pending _
      · exact (h.pending _).output_step hn ho.2.1 ho.2.2 hm
    | input =>
      rcases input_moves h.sound h.unused hst p with he | ⟨hn, hm⟩
      · rw [he]
        exact h.pending _
      · exact (h.pending _).input_step (step_eq_some.mp hst).1 hn ho.2.1 hm

/-- **Every orderly run** leaves the node settled. -/
theorem run (hr : Run cfg es s) (ho : RunAlong cfg Orderly es) : Settled cfg s :=
  Runs.run_inv (fun _ _ _ h hc hst => h.step hc hst) (initial cfg) ho hr

/-- A flow of a pcb that is not in use is idle. -/
theorem mem_of_ne_idle (h : Settled cfg s) (hst : (s.flow k).state ≠ .idle) :
    k.1 ∈ s.isotpPcbList := by
  by_contra hp
  exact hst (by rw [show s.flow k = {} from h.unused.view_notMem hp k.2])

end Settled
end Node
end Lwcan
