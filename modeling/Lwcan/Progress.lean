import Lwcan.Reachable

/-!
# An event that concerns a flow changes it

The transitions of a flow leave open that a step changes nothing. Three kinds of event never do: the
timeout that hands a flow's frame over takes its entry off the list, a confirmation is owed no
longer, and a function that waited for a callback waits no longer. A frame that a flow was waiting
for leaves its entry in the log.

* `concerns` — the event is the timeout, the confirmation or the return that a flow waits for.
* `view_ne_of_concerns`, `view_ne_of_awaits`, `view_ne_of_flowControl` — what the flow sees after is
  not what it saw before.
-/

namespace Lwcan
namespace Node

variable {cfg : Config} {s s' : Node} {k : FlowId} {p : Nat} {e : Event}

/-- The handler that is due, and its argument -/
def due (s : Node) : Option (Handler × Ptr) :=
  (s.timeouts.expire s.now).map fun x => (x.1.handler, x.1.arg)

theorem fires_iff {h : Handler} : s.Fires h p ↔ s.due = some (h, .pcb p) := by
  unfold Fires due
  constructor
  · rintro ⟨e, ts, he, rfl, ha⟩
    rw [he, ← ha]
    rfl
  · intro hd
    obtain ⟨⟨e, ts⟩, he, hx⟩ := Option.map_eq_some_iff.mp hd
    obtain ⟨hh, ha⟩ := Prod.mk.inj hx
    exact ⟨e, ts, he, hh, ha⟩

/-- The event is the timeout that hands a frame of the flow over, the confirmation of one, or the
return of a callback to a function that works on the flow. -/
def concerns (s : Node) (k : FlowId) : Event → Bool
  | .timer _ _ => s.due = some (outputHandler k.2, .pcb k.1)
  | .sent k' _ => k' = k
  | .resume => s.suspended.any (·.flow = k)
  | .call _ | .input _ _ _ | .tick _ => false

/-! ### What the functions leave alone -/

/-- Giving a message up arms nothing, and nothing waits for its error callback. -/
theorem giveUp_keeps (s : Node) (k : FlowId) (arg : Ptr) (err : Lwcanerr) :
    (((s.dropHead k).setState k .idle).callError k arg err).timeouts = s.timeouts ∧
      (((s.dropHead k).setState k .idle).callError k arg err).suspended = s.suspended := by
  have hdrop : (s.dropHead k).timeouts = s.timeouts ∧ (s.dropHead k).suspended = s.suspended :=
    ⟨isotpRemoveBuffer_timeouts .., isotpRemoveBuffer_suspended ..⟩
  unfold callError
  split
  · exact hdrop
  · exact hdrop

theorem canifOutput_keeps (s : Node) (k : FlowId) (canif : Nat) (frame : CanFrame) (timeout : Nat)
    (ret : Lwcanerr) : (s.canifOutput k canif frame timeout ret).timeouts = s.timeouts ∧
      (s.canifOutput k canif frame timeout ret).suspended = s.suspended := by
  unfold canifOutput
  dsimp only
  split
  · exact ⟨rfl, rfl⟩
  · exact giveUp_keeps (s.emit _) ..

/-- **No timeout handler of the library** arms a timeout or waits for a callback. -/
theorem runHandler_keeps (s : Node) (hd : Handler) (a : Ptr) (frame : CanFrame) (ret : Lwcanerr) :
    (s.runHandler cfg hd a frame ret).timeouts = s.timeouts ∧
      (s.runHandler cfg hd a frame ret).suspended = s.suspended := by
  cases hd with
  | isotpOutFlowOutput =>
    unfold runHandler isotpOutFlowOutput
    dsimp only
    split
    · split
      · exact ⟨rfl, rfl⟩
      · -- one of three frames, by the state
        split
        · exact canifOutput_keeps (s.setFlow _ _) ..
        · exact canifOutput_keeps (s.setFlow _ _) ..
        · exact canifOutput_keeps (s.setFlow _ _) ..
        · exact ⟨rfl, rfl⟩
    · exact ⟨rfl, rfl⟩
  | isotpInFlowOutput =>
    unfold runHandler isotpInFlowOutput
    dsimp only
    split
    · split
      · exact ⟨rfl, rfl⟩
      · split
        · exact canifOutput_keeps ..
        · exact ⟨rfl, rfl⟩
    · exact ⟨rfl, rfl⟩
  | isotpOutputErrorHandler =>
    unfold runHandler isotpOutputErrorHandler
    dsimp only
    split
    · exact giveUp_keeps ..
    · exact ⟨rfl, rfl⟩
  | isotpInputErrorHandler =>
    unfold runHandler isotpInputErrorHandler
    dsimp only
    split
    · exact giveUp_keeps ..
    · exact ⟨rfl, rfl⟩
  | user n => exact ⟨rfl, rfl⟩

theorem runHandler_timeouts (s : Node) (hd : Handler) (a : Ptr) (frame : CanFrame)
    (ret : Lwcanerr) : (s.runHandler cfg hd a frame ret).timeouts = s.timeouts :=
  (runHandler_keeps s hd a frame ret).1

theorem runHandler_suspended (s : Node) (hd : Handler) (a : Ptr) (frame : CanFrame)
    (ret : Lwcanerr) : (s.runHandler cfg hd a frame ret).suspended = s.suspended :=
  (runHandler_keeps s hd a frame ret).2

theorem isotpRemoveBuffer_confirms (s : Node) (k : FlowId) (b : Option Nat) :
    (s.isotpRemoveBuffer k b).confirms = s.confirms := by
  unfold isotpRemoveBuffer
  split
  · rfl
  · split <;> rfl

theorem isotpSentSwitch_confirms (s : Node) (k : FlowId) :
    (s.isotpSentSwitch cfg k).confirms = s.confirms := by
  unfold isotpSentSwitch
  split
  · unfold sentSf
    simp only
    split <;> exact isotpRemoveBuffer_confirms _ _ _
  · unfold sentFf
    split <;> rfl
  · unfold sentCf
    simp only
    split
    · split <;> exact isotpRemoveBuffer_confirms _ _ _
    · split <;> rfl
  · unfold sentFc callError
    split
    · split <;> rfl
    · rfl
  · rfl

/-- Processing a confirmation owes none. -/
theorem isotpSent_confirms (s : Node) (k : FlowId) (err : Lwcanerr) :
    (s.isotpSent cfg k err).confirms = s.confirms := by
  unfold isotpSent
  split
  · simp only
    split
    · exact isotpRemoveBuffer_confirms _ _ _
    · exact (isotpSentSwitch_confirms _ _).trans (isotpRemoveBuffer_confirms _ _ _)
  · exact isotpSentSwitch_confirms _ _

theorem receivedFfStore_suspended (s : Node) (p : Nat) (frame : CanFrame) (b n : Nat) :
    (s.receivedFfStore cfg p frame b n).suspended = s.suspended := by
  simp [receivedFfStore, storeFfData, storeData, receivedFfOutput, lwcanTimeout]

/-- The rest of a function does not wait again. -/
theorem resume_suspended (s : Node) (f : Suspended) : (s.resume cfg f).suspended = s.suspended := by
  unfold resume
  split
  · exact receivedFfStore_suspended ..
  · simp [receivedFfOutput, lwcanTimeout]
  · unfold isotpSentSwitch
    split
    · unfold sentSf
      simp only
      split <;> simp [setState]
    · unfold sentFf
      split <;> simp [setState, lwcanTimeout]
    · unfold sentCf
      simp only
      split
      · split <;> simp [setState]
      · split <;> simp [setState, lwcanTimeout]
    · unfold sentFc callError
      split
      · split <;> simp [setState]
      · simp [setState, lwcanTimeout]
    · rfl

/-- **An event that concerns a flow** changes what it sees. -/
theorem view_ne_of_concerns (hst : step cfg s e = some s') (hc : s.concerns k e)
    (ha : ∀ err, e = .sent k err → k ∈ s.confirms) : s'.view k ≠ s.view k := by
  obtain ⟨he, rfl⟩ := step_eq_some.mp hst
  intro heq
  cases e with
  | call c | input canif frame g | tick ms => cases hc
  | timer frame ret =>
    -- the entry that ran is off the list
    obtain ⟨⟨t, ts⟩, hx, hd⟩ := Option.map_eq_some_iff.mp (of_decide_eq_true hc)
    obtain ⟨hh, harg⟩ := Prod.mk.inj hd
    obtain ⟨hpos, hpop⟩ := view_popOutput hx hh harg
    have htx : (s.next cfg (.timer frame ret)).timeouts = ts := by
      unfold next
      simp only [hx]
      exact runHandler_timeouts ..
    have h₁ : ((s.next cfg (.timer frame ret)).view k).tx = (s.view k).tx - 1 := by
      have h₂ : ((s.next cfg (.timer frame ret)).view k).tx =
          (({ s with timeouts := ts } : Node).view k).tx :=
        congrArg (fun ts : Timeouts Handler Ptr => ts.pending (outputHandler k.2) (.pcb k.1)) htx
      rw [h₂, show ({ s with timeouts := ts } : Node).view k = _ from hpop]
    rw [heq] at h₁
    change 0 < (s.view k).tx at hpos
    omega
  | sent k' err =>
    -- one confirmation less is owed
    obtain rfl : k' = k := of_decide_eq_true hc
    have hmem := ha err rfl
    have h₁ : ((s.next cfg (.sent k' err)).view k').confirms = (s.confirms.erase k').count k' :=
      congrArg (List.count k') (isotpSent_confirms _ _ _)
    rw [heq, List.count_erase_self] at h₁
    have hpos : 0 < s.confirms.count k' := List.count_pos_iff.mpr hmem
    change s.confirms.count k' = _ at h₁
    omega
  | resume =>
    -- the function that waited has gone on
    obtain ⟨f, hf⟩ := Option.isSome_iff_exists.mp he
    have hfk : f.flow = k := by
      have hc' : s.suspended.any (·.flow = k) = true := hc
      rw [hf] at hc'
      simpa using hc'
    have h₁ : ((s.next cfg .resume).view k).suspended = none := by
      refine view_not_suspended ?_ k
      unfold next
      simp only [hf]
      exact resume_suspended _ _
    rw [heq, view_suspended hf hfk] at h₁
    cases h₁

/-! ### A frame that is waited for is logged -/

theorem Prims.log (h : Prims s s') : s.log <+: s'.log := by
  induction h with
  | refl => exact List.prefix_rfl
  | emit _ o ih => exact ih.trans (List.prefix_append _ _)
  | setFlow _ _ _ ih => exact ih
  | lwcanTimeout _ _ _ _ ih => exact ih
  | lwcanUntimeout _ _ _ ih => exact ih
  | heap _ _ ih => exact ih
  | confirms _ _ ih => exact ih
  | suspended _ _ ih => exact ih

/-- What follows an entry leaves it in the log. -/
theorem Prims.log_emit {s₀ : Node} {o : Obs} (h : Prims (s₀.emit o) s') (hl : s₀.log = s.log) :
    s.log ++ [o] <+: s'.log := by
  rw [← hl]
  exact h.log

/-- **An entry in the log of a flow** changes what it sees. -/
theorem view_ne_of_log {o : Obs} (ho : o.flow = k) (h : s.log ++ [o] <+: s'.log) :
    s'.view k ≠ s.view k := by
  intro heq
  obtain ⟨l, hl⟩ := h
  have h₁ : s'.logOf k = s.logOf k := congrArg View.log heq
  unfold logOf at h₁
  rw [← hl, List.filter_append, List.filter_append] at h₁
  have h₂ := congrArg List.length h₁
  simp [ho] at h₂

/-- A single frame for an idle flow -/
theorem receivedSf_log (cfg : Config) (frame : CanFrame) {g : Grant}
    (hs : (s.flow (p, .input)).state = .idle) (hn : isotpGetSfDl cfg frame.data ≠ 0)
    (hg : g.granted) :
    ∃ b, s.log ++ [.opened p b frame.wire] <+: (s.receivedSf cfg p frame g).log := by
  obtain ⟨b, hb⟩ := Option.isSome_iff_exists.mp
    ((Heap.lwcanBufferNew_isSome s.heap _ g).mpr ⟨hn, hg⟩)
  unfold receivedSf
  simp only [hs, ne_eq, not_true_eq_false, if_false]
  split
  · next hnew => simp [hnew] at hb
  · next b' heap hnew =>
    unfold storeSfData
    exact ⟨b', Prims.log_emit ((Prims.refl.storeData p _ _ _).deliver p) rfl⟩

/-- A first frame for an idle flow -/
theorem receivedFf_log (cfg : Config) (frame : CanFrame) {g : Grant}
    (hs : (s.flow (p, .input)).state = .idle) (hn : isotpGetFfDl cfg frame.data ≠ 0)
    (hg : g.granted) :
    ∃ o : Obs, o.flow = (p, .input) ∧ s.log ++ [o] <+: (s.receivedFf cfg p frame g).log := by
  obtain ⟨b, hb⟩ := Option.isSome_iff_exists.mp
    ((Heap.lwcanBufferNew_isSome s.heap _ g).mpr ⟨hn, hg⟩)
  unfold receivedFf
  simp only [hs, ne_eq, not_true_eq_false, if_false]
  split
  · next hnew => simp [hnew] at hb
  · next b' heap hnew =>
    -- a callback waits with the frame, or the message is opened at once
    split
    · exact ⟨.receiveFf p _, rfl, List.prefix_rfl⟩
    · refine ⟨.opened p b' frame.wire, rfl, ?_⟩
      unfold receivedFfStore storeFfData
      exact Prims.log_emit
        ((((Prims.refl.storeData p _ _ _).setFlow _ _).setFlow _ _).receivedFfOutput p) rfl

/-- A consecutive frame that is awaited -/
theorem receivedCf_log {frame : CanFrame} (hs : (s.flow (p, .input)).state = .waitCf) :
    s.log ++ [.consecutive p frame.wire] <+: (s.receivedCf cfg p frame).log := by
  unfold receivedCf receivedCfOutput
  simp only [hs, ne_eq, not_true_eq_false, if_false]
  have h : Prims (s.emit (.consecutive p frame.wire))
      ((s.emit (.consecutive p frame.wire)).lwcanUntimeout .isotpInputErrorHandler (.pcb p)) :=
    Prims.refl.lwcanUntimeout _ _
  split
  · exact ((((h.dropHead _).setFlow _ _).setState _ _).lwcanTimeout _ _ _).log
  · have h₂ := h.storeCfData p frame.data frame.len
    split
    · exact ((h₂.setState _ _).deliver p).log
    · split
      · exact (((h₂.setFlow _ _).setState _ _).lwcanTimeout _ _ _).log
      · exact ((((h₂.setFlow _ _).setFlow _ _).setState _ _).lwcanTimeout _ _ _).log

/-- A flow-control frame that is awaited -/
theorem receivedFc_log (cfg : Config) (frame : CanFrame)
    (hs : (s.flow (p, .output)).state = .waitFc) :
    ∃ o : Obs, o.flow = (p, .output) ∧ s.log ++ [o] <+: (s.receivedFc cfg p frame).log := by
  unfold receivedFc
  simp only [hs, ne_eq, not_true_eq_false, if_false]
  have h := fun o => (Prims.refl (s := s.emit o)).lwcanUntimeout .isotpOutputErrorHandler (.pcb p)
  refine ⟨.flowControl p (frame.data 0 &&& 0x0F).toNat (frame.data 1).toNat (frame.data 2).toNat,
    rfl, ?_⟩
  split
  · exact ((((h _).setFlow _ _).setFlow _ _).lwcanTimeout _ _ _).log
  · split
    · exact (((((h _).setFlow _ _).dropHead _).setState _ _).callError _ _ _).log
    · exact ((((h _).setFlow _ _).setFlow _ _).lwcanTimeout _ _ _).log

/-- A message that is accepted -/
theorem isotpSend_log {d : List UInt8} {g : Grant} (hs : (s.flow (p, .output)).state = .idle)
    (hn : d.length ≠ 0) (hg : g.granted) :
    s.log ++ [.send p d] <+: (s.isotpSend cfg (some p) (some d) g).2.log := by
  obtain ⟨b, hb⟩ := Option.isSome_iff_exists.mp
    ((Heap.lwcanBufferNew_isSome s.heap _ g).mpr ⟨hn, hg⟩)
  unfold isotpSend
  simp only [hs, hn, ne_eq, not_true_eq_false, if_false]
  split
  · next hnew => simp [hnew] at hb
  · exact List.prefix_rfl

/-- The frame is one that the input flow of a pcb was waiting for, and memory is granted for it. -/
def Awaits (cfg : Config) (s : Node) (p : Nat) (frame : CanFrame) (g : Grant) : Prop :=
  frame.data 0 &&& frameTypeMask = sfType ∧ (s.flow (p, .input)).state = .idle ∧
      isotpGetSfDl cfg frame.data ≠ 0 ∧ g.granted ∨
    frame.data 0 &&& frameTypeMask = ffType ∧ (s.flow (p, .input)).state = .idle ∧
      isotpGetFfDl cfg frame.data ≠ 0 ∧ g.granted ∨
    frame.data 0 &&& frameTypeMask = cfType ∧ (s.flow (p, .input)).state = .waitCf

/-- **A data frame that is awaited** changes what the flow sees. -/
theorem view_ne_of_awaits {canif : Nat} {frame : CanFrame} {g : Grant}
    (hst : step cfg s (.input canif frame g) = some s') (hp : s.findPcb canif frame = some p)
    (h : Awaits cfg s p frame g) : s'.view (p, .input) ≠ s.view (p, .input) := by
  obtain ⟨-, rfl⟩ := step_eq_some.mp hst
  unfold next isotpInput
  simp only [hp]
  rcases h with ⟨ht, hs, hn, hg⟩ | ⟨ht, hs, hn, hg⟩ | ⟨ht, hs⟩
  · obtain ⟨b, hl⟩ := receivedSf_log cfg frame hs hn hg
    rw [if_pos ht]
    exact view_ne_of_log rfl hl
  · obtain ⟨o, ho, hl⟩ := receivedFf_log cfg frame hs hn hg
    rw [if_neg (by rw [ht]; decide), if_pos ht]
    exact view_ne_of_log ho hl
  · rw [if_neg (by rw [ht]; decide), if_neg (by rw [ht]; decide), if_pos ht]
    exact view_ne_of_log rfl (receivedCf_log hs)

/-- **A flow-control frame that is awaited** changes what the flow sees. -/
theorem view_ne_of_flowControl {canif : Nat} {frame : CanFrame} {g : Grant}
    (hst : step cfg s (.input canif frame g) = some s') (hp : s.findPcb canif frame = some p)
    (ht : frame.data 0 &&& frameTypeMask = fcType) (hs : (s.flow (p, .output)).state = .waitFc) :
    s'.view (p, .output) ≠ s.view (p, .output) := by
  obtain ⟨-, rfl⟩ := step_eq_some.mp hst
  unfold next isotpInput
  simp only [hp]
  obtain ⟨o, ho, hl⟩ := receivedFc_log cfg frame hs
  rw [if_neg (by rw [ht]; decide), if_neg (by rw [ht]; decide), if_neg (by rw [ht]; decide),
    if_pos ht]
  exact view_ne_of_log ho hl

end Node
end Lwcan
