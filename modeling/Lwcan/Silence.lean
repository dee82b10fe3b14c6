import Lwcan.BlockSize
import Lwcan.TimerRoom

/-!
# A node left alone comes to rest

No frame comes in any more, and the application sends nothing. A flow that is busy then goes on by
itself: its timeouts run, the driver confirms its frames, callbacks return. Each of these brings it
nearer to `ISOTP_IDLE`, also if drivers refuse frames and fail them, and the peer never answers: a
message is sent up to the next flow control at most, and then given up.

* `View.rank` — how many timeouts, confirmations and returns a flow has before it at most;
* `rank_output`, `rank_input` — each transition lowers it;
* `comes_to_rest` — a flow left alone has no more of them than its rank says, two for each byte and
  four, and is idle when nothing is pending for it.
-/

namespace Lwcan

/-! ### What is left to do -/

/-- A frame that is due: what is left from there on -/
def IsotpFlow.frameWork (fl : IsotpFlow) : Nat :=
  match fl.state with
  | .txSf | .txFc => 3
  | .txFf => 4
  | .txCf => 2 * fl.remainingData + 3
  | .idle | .waitCf | .waitFc => 1

/-- A frame that is on the bus: what is left from its confirmation on -/
def IsotpFlow.confirmWork (fl : IsotpFlow) : Nat :=
  match fl.state with
  | .txFf => 3
  | .txCf => if fl.remainingData = 0 then 2 else 2 * fl.remainingData + 4
  | .idle | .txSf | .txFc | .waitCf | .waitFc => 2

/-- A function that waits for a callback: what is left from its return on -/
def Suspended.work : Suspended → Nat
  | .isotpSent _ => 1
  | .receivedFf _ _ _ _ | .receivedFfOutput _ => 4

/-- **The rank of a flow** -/
def View.rank (v : View) : Nat :=
  v.tx * v.flow.frameWork + v.confirms * v.flow.confirmWork + v.err +
    v.suspended.elim 0 Suspended.work

namespace View

variable {v : View}

theorem rank_eq {tx confirms err : Nat} {f : Option Suspended} (ht : v.tx = tx)
    (hc : v.confirms = confirms) (he : v.err = err) (hs : v.suspended = f) :
    v.rank = tx * v.flow.frameWork + confirms * v.flow.confirmWork + err +
      f.elim 0 Suspended.work := by
  rw [rank, ht, hc, he, hs]

/-- A frame is due, and nothing else. -/
theorem rank_due (ha : AtMostOne v) (ht : 0 < v.tx) : v.rank = v.flow.frameWork := by
  obtain ⟨htx, herr, hcf, hsus, -⟩ := ha.of_tx_pos ht
  rw [rank_eq htx hcf herr hsus]
  simp

/-- A frame is on the bus, and nothing else. -/
theorem rank_owed (ha : AtMostOne v) (hc : 0 < v.confirms) : v.rank = v.flow.confirmWork := by
  obtain ⟨hcf, htx, herr, hsus, -⟩ := ha.of_confirms_pos hc
  rw [rank_eq htx hcf herr hsus]
  simp

/-- A function waits, and nothing else is pending. -/
theorem rank_suspended {f : Suspended} (ha : AtMostOne v) (hs : v.suspended = some f) :
    v.rank = f.work := by
  obtain ⟨htx, herr, hcf⟩ := ha.of_idle (ha.suspended (by rw [hs]; nofun))
  rw [rank_eq htx hcf herr hs]
  simp

theorem frameWork_pos (fl : IsotpFlow) : 0 < fl.frameWork := by
  unfold IsotpFlow.frameWork
  split <;> omega

theorem two_le_confirmWork (fl : IsotpFlow) : 2 ≤ fl.confirmWork := by
  unfold IsotpFlow.confirmWork
  split
  · decide
  · split <;> omega
  all_goals decide

/-- A frame that was due and is not handed over leaves nothing to do. -/
theorem rank_skipped (ha : AtMostOne v) (ht : 0 < v.tx) : View.rank { v with tx := v.tx - 1 } =
    0 := by
  obtain ⟨htx, herr, hcf, hsus, -⟩ := ha.of_tx_pos ht
  unfold rank
  rw [htx, hcf, herr, hsus]
  simp

/-- A frame that is handed over is to be confirmed. -/
theorem rank_accepted (ha : AtMostOne v) (ht : 0 < v.tx) (fl : IsotpFlow) (k : FlowId) (canif : Nat)
    (frame : CanFrame) (timeout : Nat) :
    (({ v with tx := v.tx - 1 }.setFlow fl).accepted k canif frame timeout).rank =
    fl.confirmWork := by
  obtain ⟨htx, herr, hcf, hsus, -⟩ := ha.of_tx_pos ht
  unfold rank accepted
  simp [emit, setFlow, htx, hcf, herr, hsus]

/-- Giving up leaves nothing to do, if nothing else was pending. -/
theorem rank_fail (k : FlowId) (c : Bool) (arg : Ptr) (err : Lwcanerr) (ht : v.tx = 0)
    (hc : v.confirms = 0)
    (he : v.err = 0) (hs : v.suspended = none) : (v.fail k c arg err).rank = 0 := by
  unfold rank fail
  simp [drop, removeHead, emit, setState, setFlow, ht, hc, he, hs]

/-- After a frame that failed there is the return of the error callback at most. -/
theorem rank_refused (k : FlowId) (pcb : IsotpPcb) (err : Lwcanerr) (ht : v.tx = 0)
    (hc : v.confirms = 0)
    (he : v.err = 0) (hs : v.suspended = none) : (v.refused k pcb err).rank ≤ 1 := by
  unfold rank
  rw [refused_tx, refused_confirms, refused_err, refused_suspended, ht, hc, he, hs]
  split <;> simp [Suspended.work]

end View

/-! ### The transitions -/

section Fill

variable {cfg : Config} {b : Option LwcanBuffer} {fl : IsotpFlow} {f : CanFrame}
  {filled : IsotpFlow × CanFrame} {n : Nat}

/-- A consecutive frame takes something of what is left. -/
theorem isotpFillCf_lt : (isotpFillCf cfg b fl f).1.remainingData < fl.remainingData ∨
    (isotpFillCf cfg b fl f).1.remainingData = 0 := by
  have hlen := le_dataFrameLen cfg fl.remainingData
  rw [isotpFillCf_left]
  -- the last frame takes what is left, any other as much as fits
  split
  · refine Or.inr ?_
    show u32 _ = 0
    unfold u32
    omega
  · next hroom =>
    rw [u8_room cfg _ (by decide), cfDataOffset] at hroom
    refine Or.inl ?_
    show u32 _ < _
    unfold u32 cfDataOffset
    omega

/-- **Handing a frame over** leaves less to do. -/
theorem confirmWork_lt (h : isotpFill cfg b fl f = some (filled, n)) :
    filled.1.confirmWork < fl.frameWork := by
  have hst := isotpFill_state h
  unfold IsotpFlow.confirmWork IsotpFlow.frameWork
  rw [hst]
  -- only a consecutive frame leaves more than a fixed number of steps
  cases hs : fl.state with
  | txSf => exact Nat.lt_succ_self 2
  | txFf => exact Nat.lt_succ_self 3
  | txCf =>
    unfold isotpFill at h
    rw [hs] at h
    obtain ⟨rfl, -⟩ := Prod.mk.inj (Option.some.inj h)
    dsimp only
    have hcf : (isotpFillCf cfg b fl f).1.remainingData < fl.remainingData ∨ _ := isotpFillCf_lt
    rcases hcf with hlt | hzero
    · split
      · omega
      · omega
    · rw [if_pos hzero]
      omega
  | _ =>
    unfold isotpFill at h
    rw [hs] at h
    cases h

end Fill

section Transitions

variable {cfg : Config} {s s' : Node} {p : Nat} {pcb : IsotpPcb} {slot : Bool} {v v' : View}
  {e : Event}

/-- After one entry for a waited frame there is no more to do than its expiry. -/
theorem rank_armError (ht : v.tx = 0) (hc : v.confirms = 0) (he : v.err = 0)
    (hs : v.suspended = none) (fl : IsotpFlow) (o : List Obs) :
    View.rank { v with flow := fl, log := o, err := v.err + slot.toNat } ≤ 1 := by
  unfold View.rank
  rw [ht, hc, he, hs, Nat.zero_mul, Nat.zero_mul]
  show 0 + 0 + (0 + slot.toNat) + 0 ≤ 1
  have hslot := Bool.toNat_le slot
  omega

/-- The switch of `isotp_sent`, when the flow's one confirmation has come -/
theorem rank_outputSwitch (hw : OutputSwitch pcb p slot v v') (ht : v.tx = 0) (hc : v.confirms = 0)
    (he : v.err = 0) (hs : v.suspended = none) (hsend : v.flow.state.sends) :
    v'.rank < v.flow.confirmWork := by
  have htwo := View.two_le_confirmWork v.flow
  cases hw with
  -- a flow that has nothing on the bus has nothing confirmed
  | skip hst =>
    rcases hst with hst | hst
    · rw [hst] at hsend
      cases hsend
    · rw [hst] at hsend
      cases hsend
  | complete hst =>
    -- the message is done: nothing is armed, and the sent callback may be left to return
    refine lt_of_lt_of_le ?_ htwo
    unfold View.rank
    rw [View.emitIf_tx, View.emitIf_confirms, View.emitIf_err, View.emitIf_suspended]
    show v.tx * _ + v.confirms * _ + v.err + v.suspended.elim 0 _ < 2
    rw [ht, hc, he, hs, Nat.zero_mul, Nat.zero_mul]
    exact Nat.two_pos
  -- the peer is waited for
  | ff hst | block hst => exact lt_of_le_of_lt (rank_armError ht hc he hs _ _) htwo
  | cf hst hr hb =>
    -- the next consecutive frame is due
    have hwork : v.flow.confirmWork = 2 * v.flow.remainingData + 4 := by
      unfold IsotpFlow.confirmWork
      rw [hst]
      exact if_neg hr
    unfold View.rank
    show (v.tx + slot.toNat) * (2 * v.flow.remainingData + 3) + v.confirms * _ + v.err +
      v.suspended.elim 0 _ < _
    rw [ht, hc, he, hs, Nat.zero_mul, hwork]
    -- the entry for it is armed if a chunk is free
    calc (0 + slot.toNat) * (2 * v.flow.remainingData + 3) + 0 + 0 + 0
        ≤ 1 * (2 * v.flow.remainingData + 3) := by
          rw [Nat.zero_add]
          exact Nat.mul_le_mul_right _ (Bool.toNat_le slot)
      _ < 2 * v.flow.remainingData + 4 := by omega

theorem rank_inputSwitch (hw : InputSwitch pcb p slot v v') (ht : v.tx = 0) (hc : v.confirms = 0)
    (he : v.err = 0) (hs : v.suspended = none) (hsend : v.flow.state.sends) :
    v'.rank < v.flow.confirmWork := by
  have htwo := View.two_le_confirmWork v.flow
  cases hw with
  | skip hst =>
    rcases hst with hst | hst
    · rw [hst] at hsend
      cases hsend
    · rw [hst] at hsend
      cases hsend
  | abort hst hf =>
    -- the flow control refused the message, which is given up
    refine lt_of_lt_of_le ?_ htwo
    unfold View.rank
    rw [View.emitIf_tx, View.emitIf_confirms, View.emitIf_err, View.emitIf_suspended]
    show v.tx * _ + v.confirms * _ + v.err + v.suspended.elim 0 _ < 2
    rw [ht, hc, he, hs, Nat.zero_mul, Nat.zero_mul]
    exact Nat.two_pos
  -- the first consecutive frame is waited for
  | ready hst hf =>
    exact lt_of_le_of_lt
      (rank_armError (o := v.log) ht hc he hs { v.flow with state := .waitCf }) htwo

/-- A frame of the flow control is due once the function that waited returns. -/
theorem rank_ffOutput (hv : v.tx = 0) (hc : v.confirms = 0) (he : v.err = 0)
    (hs : v.suspended = none) : (v.ffOutput cfg slot).rank < 4 := by
  unfold View.rank View.ffOutput
  show (v.tx + slot.toNat) * 3 + v.confirms * _ + v.err + v.suspended.elim 0 _ < 4
  rw [hv, hc, he, hs, Nat.zero_mul]
  calc (0 + slot.toNat) * 3 + 0 + 0 + 0 ≤ 1 * 3 := by
        rw [Nat.zero_add]
        exact Nat.mul_le_mul_right _ (Bool.toNat_le slot)
    _ < 4 := Nat.lt_succ_self 3

end Transitions

namespace Node

variable {cfg : Config} {s s' t : Node} {k : FlowId} {p : Nat} {e : Event} {es fs : List Event}
  {v' : View}

/-- **A pcb is left alone**: no frame comes in for it, and nothing is sent over it. -/
def Alone (p : Nat) (s : Node) : Event → Prop
  | .input canif frame _ => s.findPcb canif frame ≠ some p
  | .call (.isotpSend (some q) _ _) => q ≠ p
  | _ => True

instance (p : Nat) (s : Node) : (e : Event) → Decidable (s.Alone p e)
  | .input canif frame _ => inferInstanceAs (Decidable (s.findPcb canif frame ≠ some p))
  | .call (.isotpSend (some q) _ _) => inferInstanceAs (Decidable (q ≠ p))
  | .call (.isotpSend none _ _) | .call .isotpNew | .call (.isotpBind _ _) | .call (.isotpRemove _)
  | .call (.isotpSetCallbacks _ _ _ _ _) | .call (.isotpSetCallbackArg _ _) | .call
      (.isotpReceived _ _)
  | .call (.canifAdd _ _ _) | .call (.canifRemove _) | .call (.lwcanTimeout _ _ _)
  | .call (.lwcanUntimeout _ _) | .timer _ _ | .sent _ _ | .resume | .tick _ => isTrue True.intro

/-- **Each transition of an output flow left alone** lowers its rank. -/
theorem rank_output (ha : AtMostOne (s.view (p, .output))) (hn : e ≠ .call .isotpNew)
    (hc : ConfirmsAccepted s e) (hal : s.Alone p e)
    (hst : OutputStep cfg s p (s.view (p, .output)) e v') :
    v'.rank < (s.view (p, .output)).rank := by
  cases hst with
  -- a pcb left alone is sent over by nobody, and no flow control reaches it
  | send => exact absurd rfl hal
  | wait hp | abort hp | proceed hp => exact absurd hp hal
  | new => exact absurd rfl hn
  | skip hf hcan ht =>
    -- a frame is due: it is not handed over, or is, or the driver refuses it
    rw [View.rank_skipped ha ht, View.rank_due ha ht]
    exact View.frameWork_pos _
  | output hf hcan ht hfl =>
    rw [View.rank_accepted ha ht, View.rank_due ha ht]
    exact confirmWork_lt hfl
  | reject hf hcan ht hfl hr =>
    obtain ⟨htx, herr, hcf, hsus, -⟩ := ha.of_tx_pos ht
    rw [View.rank_due ha ht]
    refine lt_of_eq_of_lt (View.rank_fail _ _ _ _ ?_ hcf herr hsus) (View.frameWork_pos _)
    show _ - 1 = 0
    omega
  | expire hf he =>
    -- the peer's time is over: the message is given up, and nothing is armed for it
    obtain ⟨herr, htx, hcf, hsus⟩ := ha.of_waits (ha.waits_of_err_pos he)
    refine lt_of_eq_of_lt (View.rank_fail _ _ _ _ htx hcf ?_ hsus) ?_
    · show _ - 1 = 0
      omega
    · unfold View.rank
      omega
  | confirm hs hw =>
    -- the frame is confirmed: what follows is less work than the confirmation was
    have hpos : 0 < (s.view (p, .output)).confirms := List.count_pos_iff.mpr hc
    obtain ⟨hcf, htx, herr, hsus, hsend⟩ := ha.of_confirms_pos hpos
    rw [View.rank_owed ha hpos]
    have hnone : (s.view (p, .output)).confirms - 1 = 0 := by omega
    have hlt := rank_outputSwitch hw htx hnone herr hsus hsend
    exact hlt
  | refuse hs he =>
    -- the frame failed: at most the error callback is left to return
    have hpos : 0 < (s.view (p, .output)).confirms := List.count_pos_iff.mpr hc
    obtain ⟨hcf, htx, herr, hsus, -⟩ := ha.of_confirms_pos hpos
    rw [View.rank_owed ha hpos]
    refine lt_of_le_of_lt (View.rank_refused _ _ _ htx ?_ herr hsus) (View.two_le_confirmWork _)
    show _ - 1 = 0
    omega
  | resume hs hw =>
    -- the callback returns to a flow that is idle, where the switch does nothing
    have hsus := view_suspended (k := (p, .output)) hs rfl
    have hidle := ha.suspended (by rw [hsus]; nofun)
    obtain ⟨htx, herr, hcf⟩ := ha.of_idle hidle
    rw [View.rank_suspended ha hsus, OutputSwitch.eq_of_idle hw hidle]
    refine lt_of_eq_of_lt ?_ Nat.one_pos
    unfold View.rank
    rw [htx, hcf, herr]
    simp

/-- **Each transition of an input flow left alone** lowers its rank, but for a message that the
application gives back. -/
theorem rank_input (ha : AtMostOne (s.view (p, .input))) (hn : e ≠ .call .isotpNew)
    (hc : ConfirmsAccepted s e) (hal : s.Alone p e)
    (hst : InputStep cfg s p (s.view (p, .input)) e v') :
    v'.rank < (s.view (p, .input)).rank ∨ v'.rank = (s.view (p, .input)).rank ∧
      ∃ c, e = .call c := by
  cases hst with
  -- no frame reaches a pcb left alone, so nothing starts or goes on with a message
  | sfMemory hp | sf hp | ffMemory hp | ff hp | ffMemoryCallback hp | ffCallback hp =>
    exact absurd hp hal
  | cfWrong hp | cfLast hp | cf hp | block hp => exact absurd hp hal
  | new => exact absurd rfl hn
  -- the application gives a message back, which is no work of the flow
  | release => exact Or.inr ⟨rfl, _, rfl⟩
  | skip hf hcan ht =>
    -- the flow control is due: it is not handed over, or is, or the driver refuses it
    rw [View.rank_skipped ha ht, View.rank_due ha ht]
    exact Or.inl (View.frameWork_pos _)
  | @output frame canif hf hcan hfc ht =>
    have hwork : (s.view (p, .input)).flow.frameWork = 3 := by
      unfold IsotpFlow.frameWork
      rw [hfc]
    have hconf : (s.view (p, .input)).flow.confirmWork = 2 := by
      unfold IsotpFlow.confirmWork
      rw [hfc]
    -- what was due is on the bus now, and has one step less before it
    have hacc := View.rank_accepted ha ht (s.view (p, .input)).flow (p, .input) canif
      (isotpFillFc cfg (s.view (p, .input)).flow (s.address cfg p frame)) cfg.nBr
    rw [View.rank_due ha ht, hwork]
    exact Or.inl (lt_of_eq_of_lt (hacc.trans hconf) (Nat.lt_succ_self 2))
  | reject hf hcan hfc ht hr =>
    obtain ⟨htx, herr, hcf, hsus, -⟩ := ha.of_tx_pos ht
    rw [View.rank_due ha ht]
    refine Or.inl (lt_of_eq_of_lt (View.rank_fail _ _ _ _ ?_ hcf herr hsus) (View.frameWork_pos _))
    show _ - 1 = 0
    omega
  | expire hf he =>
    -- no consecutive frame came in time: the message is given up, and nothing is armed for it
    obtain ⟨herr, htx, hcf, hsus⟩ := ha.of_waits (ha.waits_of_err_pos he)
    refine Or.inl (lt_of_eq_of_lt (View.rank_fail _ _ _ _ htx hcf ?_ hsus) ?_)
    · show _ - 1 = 0
      omega
    · unfold View.rank
      omega
  | confirm hs hw =>
    -- the flow control is confirmed: what follows is less work than the confirmation was
    have hpos : 0 < (s.view (p, .input)).confirms := List.count_pos_iff.mpr hc
    obtain ⟨hcf, htx, herr, hsus, hsend⟩ := ha.of_confirms_pos hpos
    rw [View.rank_owed ha hpos]
    have hnone : (s.view (p, .input)).confirms - 1 = 0 := by omega
    have hlt := rank_inputSwitch hw htx hnone herr hsus hsend
    exact Or.inl hlt
  | refuse hs he =>
    -- the flow control failed: at most the error callback is left to return
    have hpos : 0 < (s.view (p, .input)).confirms := List.count_pos_iff.mpr hc
    obtain ⟨hcf, htx, herr, hsus, -⟩ := ha.of_confirms_pos hpos
    rw [View.rank_owed ha hpos]
    refine Or.inl
      (lt_of_le_of_lt (View.rank_refused _ _ _ htx ?_ herr hsus) (View.two_le_confirmWork _))
    show _ - 1 = 0
    omega
  | resume hs hw =>
    -- a callback returns: the switch does nothing on an idle flow
    have hsus := view_suspended (k := (p, .input)) hs rfl
    have hidle := ha.suspended (by rw [hsus]; nofun)
    obtain ⟨htx, herr, hcf⟩ := ha.of_idle hidle
    rw [View.rank_suspended ha hsus, InputSwitch.eq_of_idle hw hidle]
    refine Or.inl (lt_of_eq_of_lt ?_ Nat.one_pos)
    unfold View.rank
    rw [htx, hcf, herr]
    simp
  | @resumeFf frame b buf hs hb =>
    -- `receive_ff` returns: the first frame is stored, and the flow control becomes due
    have hsus := view_suspended (k := (p, .input)) hs rfl
    obtain ⟨htx, herr, hcf⟩ := ha.of_idle (ha.suspended (by rw [hsus]; nofun))
    rw [View.rank_suspended ha hsus]
    have hlt : (View.ffStore cfg { s.view (p, .input) with suspended := none } p frame b buf
        s.timeouts.slotFree).rank < 4 :=
      rank_ffOutput htx hcf herr rfl
    exact Or.inl hlt
  | resumeFfMemory hs =>
    -- the same without memory for the message: the flow control that refuses becomes due
    have hsus := view_suspended (k := (p, .input)) hs rfl
    obtain ⟨htx, herr, hcf⟩ := ha.of_idle (ha.suspended (by rw [hsus]; nofun))
    rw [View.rank_suspended ha hsus]
    exact Or.inl (rank_ffOutput htx hcf herr rfl)

/-! ### What brings a flow on -/

/-- The timeout that gives a flow's message up is due. -/
def expires (s : Node) (k : FlowId) : Event → Bool
  | .timer _ _ => s.due = some (errorHandler k.2, .pcb k.1)
  | .call _ | .input _ _ _ | .sent _ _ | .resume | .tick _ => false

/-- What brings a flow on: one of its timeouts, a confirmation of its frame, the return of a
callback -/
def moves (s : Node) (k : FlowId) (e : Event) : Bool := s.concerns k e || s.expires k e

/-- Giving a message up arms nothing. -/
theorem errorHandler_timeouts (s : Node) (d : Dir) (arg : Ptr) (frame : CanFrame) (ret : Lwcanerr) :
    (s.runHandler cfg (errorHandler d) arg frame ret).timeouts = s.timeouts := by
  have hfail : ∀ (a : Node) (k : FlowId) (arg : Ptr) (err : Lwcanerr),
      (((a.dropHead k).setState k .idle).callError k arg err).timeouts = a.timeouts := by
    intro a k arg err
    unfold callError
    split
    · exact dropHead_timeouts a k
    · exact dropHead_timeouts a k
  cases d with
  | output =>
    show (s.isotpOutputErrorHandler arg).timeouts = _
    unfold isotpOutputErrorHandler
    split
    · exact hfail s _ _ _
    · rfl
  | input =>
    show (s.isotpInputErrorHandler arg).timeouts = _
    unfold isotpInputErrorHandler
    split
    · exact hfail s _ _ _
    · rfl

/-- The timeout that gives a message up is off the list when it has run. -/
theorem view_ne_of_expires (hst : step cfg s e = some s') (hx : s.expires k e) :
    s'.view k ≠ s.view k := by
  obtain ⟨-, rfl⟩ := step_eq_some.mp hst
  intro heq
  cases e with
  | call c | input canif frame g | tick ms | sent k' err | resume => cases hx
  | timer frame ret =>
    obtain ⟨⟨t, ts⟩, he, hd⟩ := Option.map_eq_some_iff.mp (of_decide_eq_true hx)
    obtain ⟨hh, harg⟩ := Prod.mk.inj hd
    obtain ⟨hpos, hpop⟩ := view_popError he hh harg
    have hts : (s.next cfg (.timer frame ret)).timeouts = ts := by
      unfold next
      simp only [he]
      rw [show t.handler = errorHandler k.2 from hh]
      exact errorHandler_timeouts _ _ _ _ _
    have herr : ((s.next cfg (.timer frame ret)).view k).err =
        (({ s with timeouts := ts } : Node).view k).err :=
      congrArg (fun ts : Timeouts Handler Ptr => ts.pending (errorHandler k.2) (.pcb k.1)) hts
    rw [show ({ s with timeouts := ts } : Node).view k = _ from hpop, heq] at herr
    change 0 < (s.view k).err at hpos
    have hless : (s.view k).err = (s.view k).err - 1 := herr
    omega

/-- **A step of a pcb left alone** does not raise the rank of its flows, and lowers it if it brings
them on. -/
theorem rank_step (h : Settled cfg s) (ho : Orderly s e) (hal : s.Alone k.1 e)
    (hst : step cfg s e = some s') :
    (s'.view k).rank + (s.moves k e).toNat ≤ (s.view k).rank := by
  have hone := Bool.toNat_le (s.moves k e)
  -- a step that moves the flow changes its view
  have hsame : s'.view k = s.view k → s.moves k e = false := by
    intro heq
    rw [moves, Bool.or_eq_false_iff]
    constructor
    · refine Bool.eq_false_iff.mpr fun hc => view_ne_of_concerns hst hc ?_ heq
      rintro err rfl
      exact ho.2.1
    · exact Bool.eq_false_iff.mpr fun hx => view_ne_of_expires hst hx heq
  have hcall : (∃ c, e = .call c) → s.moves k e = false := by
    rintro ⟨c, rfl⟩
    rfl
  obtain ⟨p, d⟩ := k
  cases d with
  | output =>
    rcases output_moves h.sound h.unused hst p with heq | ⟨hn, hm⟩
    · rw [hsame heq, heq]
      exact Nat.le_refl _
    · have hlt : (s'.view (p, .output)).rank < (s.view (p, .output)).rank :=
        rank_output (h.pending _) hn ho.2.1 hal hm
      omega
  | input =>
    rcases input_moves h.sound h.unused hst p with heq | ⟨hn, hm⟩
    · rw [hsame heq, heq]
      exact Nat.le_refl _
    · have hle : (s'.view (p, .input)).rank < (s.view (p, .input)).rank ∨ _ :=
        rank_input (h.pending _) hn ho.2.1 hal hm
      -- what does not lower the rank of an input flow is a call, which is no move
      rcases hle with hlt | ⟨heq, hc⟩
      · omega
      · rw [hcall hc, heq]
        exact Nat.le_refl _

/-- A flow has no more before it than two moves for each byte, and four. -/
theorem rank_le (ha : AtMostOne (s.view k)) : (s.view k).rank ≤ 2 * (s.flow k).remainingData +
    4 := by
  have hframe : (s.flow k).frameWork ≤ 2 * (s.flow k).remainingData + 4 := by
    unfold IsotpFlow.frameWork
    split <;> omega
  have hconf : (s.flow k).confirmWork ≤ 2 * (s.flow k).remainingData + 4 := by
    unfold IsotpFlow.confirmWork
    split
    · omega
    · split <;> omega
    all_goals omega
  -- at most one thing is pending, and the rank is what that one is worth
  by_cases htx : 0 < (s.view k).tx
  · rw [View.rank_due ha htx]
    exact hframe
  · by_cases hc : 0 < (s.view k).confirms
    · rw [View.rank_owed ha hc]
      exact hconf
    · cases hs : (s.view k).suspended with
      | some f =>
        rw [View.rank_suspended ha hs]
        have hwork : f.work ≤ 4 := by cases f <;> exact Nat.le_of_ble_eq_true rfl
        omega
      | none =>
        have herr : (s.view k).err ≤ 1 := by
          by_cases he : 0 < (s.view k).err
          · exact (ha.of_waits (ha.waits_of_err_pos he)).1
          · omega
        rw [View.rank_eq (Nat.eq_zero_of_not_pos htx) (Nat.eq_zero_of_not_pos hc) rfl hs]
        simp only [Nat.zero_mul, Option.elim_none]
        omega

/-- What brings a flow left alone on, along a run -/
theorem picked_moves_le (h : Settled cfg s)
    (hc : Runs.Along (step cfg) (fun s e => Orderly s e ∧ s.Alone k.1 e) s fs)
    (ht : Runs.run (step cfg) s fs = some t) :
    (Runs.picked (step cfg) (moves · k) s fs).length + (t.view k).rank ≤ (s.view k).rank := by
  let rank := fun s : Node => (s.view k).rank
  have hstep : ∀ a e b, Settled cfg a → Orderly a e ∧ a.Alone k.1 e → step cfg a e = some b →
      Settled cfg b ∧ rank b + (a.moves k e).toNat ≤ rank a :=
    fun a e b ha hc hst => ⟨ha.step hc.1 hst, rank_step ha hc.1 hc.2 hst⟩
  exact Runs.picked_length_add_le hstep h hc ht

/-- **A node left alone comes to rest.** After any run in which no frame comes in for a pcb and
nothing is sent over it, the timeouts, confirmations and returns of its flows that have passed are
within their rank. When none is left, and no wake-up was lost, the flow is idle. -/
theorem comes_to_rest (k : FlowId) (hr : Run cfg es s) (ho : RunAlong cfg Orderly (es ++ fs))
    (ht : Runs.run (step cfg) s fs = some t) (hal : Runs.Along (step cfg) (Alone k.1) s fs) :
    (Runs.picked (step cfg) (moves · k) s fs).length + (t.view k).rank ≤ (s.view k).rank ∧
      (s.view k).rank ≤ 2 * (s.flow k).remainingData + 4 ∧
      (RunAlong cfg (WakeSafe cfg) (es ++ fs) → t.wakeups k = 0 → (t.flow k).state = .idle) := by
  have hs : Settled cfg s := Settled.run hr ho.left
  refine ⟨?_, rank_le (hs.pending k), fun hw hnone => ?_⟩
  · exact picked_moves_le hs ((ho.right hr).and hal) ht
  · by_contra hst
    have hone := wakeups_of_wakeSafe (Runs.run_append.mpr ⟨s, hr, ht⟩) ho hw hst
    omega

/-- The peer allows a block of two frames of a message of 28 bytes, and is silent then: there were
47 moves to make at most, and after five of them the message is given up. -/
theorem comes_to_rest_silent : ∃ s t, Run {} (firstSent 28 ++ twoAllowed) s ∧
    Runs.run (step {}) s (nextSent ++ nextSent ++ [.tick 1000, .timer ⟨0, 0, 0, fun _ => 0⟩ .ok]) =
      some t ∧
    (s.view (0, .output)).rank = 47 ∧
    (Runs.picked (step {}) (moves · (0, .output)) s
      (nextSent ++ nextSent ++ [.tick 1000, .timer ⟨0, 0, 0, fun _ => 0⟩ .ok])).length = 5 ∧
    5 + (t.view (0, .output)).rank ≤ 47 ∧ (t.flow (0, .output)).state = .idle := by
  obtain ⟨t, hr, hw⟩ := exists_run {} ((firstSent 28 ++ twoAllowed) ++
    (nextSent ++ nextSent ++ [.tick 1000, .timer ⟨0, 0, 0, fun _ => 0⟩ .ok]))
    (fun t => t.wakeups (0, .output) = 0) (by decide)
  obtain ⟨s, hs, hrank, hal, hpick⟩ := exists_run {} (firstSent 28 ++ twoAllowed)
    (fun s => (s.view (0, .output)).rank = 47 ∧
      Runs.Along (step {}) (Alone 0) s
        (nextSent ++ nextSent ++ [.tick 1000, .timer ⟨0, 0, 0, fun _ => 0⟩ .ok]) ∧
      (Runs.picked (step {}) (moves · (0, .output)) s
        (nextSent ++ nextSent ++ [.tick 1000, .timer ⟨0, 0, 0, fun _ => 0⟩ .ok])).length = 5)
          (by decide)
  obtain ⟨s', hs', ht⟩ := Runs.run_append.mp hr
  obtain rfl : s' = s := Option.some.inj (hs'.symm.trans hs)
  obtain ⟨hle, -, hidle⟩ := comes_to_rest (0, .output) hs (by decide) ht hal
  rw [hpick, hrank] at hle
  exact ⟨s', t, hs, ht, hrank, hpick, hle, hidle (by decide) hw⟩

end Node
end Lwcan
