import Lwcan.Uds.Steps

/-!
# Requests

A request that `uds_send_request` accepts ends when `uds_state.state` is `UDS_IDLE` again. Until
then the client owes the application one of three callbacks, its outcome, and the request may have a
P2 or a P2* entry of its own in the timeout list: those armed since it was accepted.

The two timers of the request are cancelled and awaited by handler and argument only, so an entry
left from before takes their place. `Straight` says which steps go well; `Busy` and `Done` are the
two phases that they keep, from the acceptance to the end.

* `Busy.step`, `Done.step` — one step in each phase;
* `request_outcome` — a request that is accepted between events and treated well has one outcome,
  and none of its timers is pending at the end.
-/

namespace Lwcan
namespace Uds

/-! ### A request's outcome and its timers -/

/-- One of the three callbacks that end a request -/
def Note.isOutcome : Note → Bool
  | .positiveResponse _ _ | .negativeResponse _ _ _ | .error _ _ => true
  | _ => false

/-- How many outcomes the log shows -/
def outcomes (log : List Note) : Nat := log.countP Note.isOutcome

@[simp] theorem outcomes_nil : outcomes [] = 0 := rfl

@[simp] theorem outcomes_append (log log' : List Note) :
    outcomes (log ++ log') = outcomes log + outcomes log' :=
  List.countP_append

@[simp] theorem outcomes_cons (n : Note) (log : List Note) :
    outcomes (n :: log) = outcomes log + if n.isOutcome then 1 else 0 :=
  List.countP_cons

@[simp] theorem outcomes_isotpReceived (s : Client) (r : Option (Nat × Nat)) :
    outcomes (s.isotpReceived r).log = outcomes s.log := by
  cases r with
  | none => rfl
  | some r => simp [Client.isotpReceived, Note.isOutcome]

variable {n : Nat} {t' : Timeouts UdsHandler Ptr}

/-- The call of `uds_client_disconnect` -/
def Event.isDisconnect : Event → Bool
  | .call .udsClientDisconnect => true
  | _ => false

namespace Client

variable {cfg : UdsConfig} {s s' : Client} {k : Nat}

/-! ### The property -/

/-- The callbacks of a client's context are set. -/
def ContextSet (s : Client) : Prop :=
  ∃ c ∈ s.uds.context, c.positiveResponse = true ∧ c.negativeResponse = true ∧ c.error = true

instance (s : Client) : Decidable s.ContextSet :=
  decidable_of_iff
    (s.uds.context.any fun c => c.positiveResponse && c.negativeResponse && c.error) (by
      simp [ContextSet, Option.any_eq_true, and_assoc])

/-- Until the request ends: the client is not idle, and is not disconnected before there is an
outcome in addition to the first `k`. -/
def Pursued (k : Nat) (s : Client) (e : Event) : Prop :=
  s.uds.state ≠ .idle ∧ (e.isDisconnect = true → s.uds.isConnected = true → k < outcomes s.log)

instance (k : Nat) (s : Client) (e : Event) : Decidable (s.Pursued k e) :=
  inferInstanceAs (Decidable (_ ∧ (_ → _ → _)))

/-- **A request has one outcome**: from its acceptance in `s₁` to the first state in which the
client is idle, one of the three callbacks is called, once, and no P2 or P2* entry armed since is
pending. -/
def OneOutcome (s₁ s₃ : Client) : Prop :=
  outcomes s₃.log = outcomes s₁.log + 1 ∧
    ∀ e ∈ s₃.timeouts.nextTimeout, e.handler = .p2TimerHandler ∨ e.handler = .p2StarTimerHandler →
      e.stamp < s₁.timeouts.armed

instance (s₁ s₃ : Client) : Decidable (OneOutcome s₁ s₃) :=
  inferInstanceAs (Decidable (_ ∧ ∀ e ∈ _, _ ∨ _ → _))

/-! ### The steps that go well -/

/-- The timeout that is due does not take the place of the request's own, and a `connect_try` left
over from an attempt does not give that attempt up. -/
def StraightTimeout (n : Nat) (s : Client) (send : Lwcanerr) :
    List (Timeout UdsHandler Ptr) → Prop
  | [] => True
  | e :: _ =>
    (e.handler = .p2TimerHandler ∨ e.handler = .p2StarTimerHandler → e.stamp < n →
        own n .p2TimerHandler s.timeouts = 0 ∧ own n .p2StarTimerHandler s.timeouts = 0) ∧
      (e.handler = .connectTry → ¬s.LastTry send)

instance (n : Nat) (s : Client) (send : Lwcanerr) :
    (ts : List (Timeout UdsHandler Ptr)) → Decidable (s.StraightTimeout n send ts)
  | [] => inferInstanceAs (Decidable True)
  | _ :: _ => inferInstanceAs (Decidable ((_ ∨ _ → _ → _ ∧ _) ∧ (_ → ¬_)))

/-- The entry that the `switch` of the callbacks cancels is the request's own. -/
def StraightCancel (n : Nat) (s : Client) : Prop :=
  (s.uds.state = .waitResponse → FirstOwn n .p2TimerHandler s.timeouts) ∧
    (s.uds.state = .responsePending → FirstOwn n .p2StarTimerHandler s.timeouts)

instance (n : Nat) (s : Client) : Decidable (s.StraightCancel n) :=
  inferInstanceAs (Decidable ((_ → _) ∧ (_ → _)))

/-- No entry from before the request, that is with a stamp below `n`, is cancelled or runs in place
of its own, no `connect_try` gives up, and `uds_client_init` is called from the outcome's callback
if at all. -/
def Straight (n : Nat) (s : Client) : Event → Prop
  | .receive _ _ _ | .receiveFf _ | .error _ _ => s.StraightCancel n
  | .timer send => s.StraightTimeout n send s.timeouts.nextTimeout
  | .call (.udsClientInit (some _)) => s.stack ≠ []
  | _ => True

instance (n : Nat) (s : Client) : (e : Event) → Decidable (s.Straight n e)
  | .receive _ _ _ | .receiveFf _ | .error _ _ => inferInstanceAs (Decidable (s.StraightCancel n))
  | .timer _ => inferInstanceAs (Decidable (s.StraightTimeout n _ _))
  | .call (.udsClientInit (some _)) => inferInstanceAs (Decidable (_ ≠ _))
  | .call (.udsClientInit none) | .call .udsClientDeinit | .call (.udsClientConnect _ _ _ _)
  | .call .udsClientDisconnect | .call (.udsSetContext _ _) | .call (.udsSetP2Timer _)
  | .call (.udsSetP2StarTimer _) | .call (.udsSendRequest _ _ _) | .call (.lwcanTimeout _ _ _)
  | .call (.lwcanUntimeout _ _) | .sent _ | .ret | .tick _ => inferInstanceAs (Decidable True)

/-! ### The two phases of a request -/

/-- The request waits: no outcome yet, and its timer, if it has one, is that of the state. -/
structure Busy (n k : Nat) (s : Client) : Prop where
  timers : TimersOk s.timeouts
  stack : s.stack = []
  idle : s.uds.state ≠ .idle
  connecting : s.uds.state ≠ .connecting
  withResponse : s.uds.withResponse ≠ 0
  context : s.ContextSet
  outcomes : outcomes s.log = k
  p2_le : own n .p2TimerHandler s.timeouts ≤ 1
  p2Star_le : own n .p2StarTimerHandler s.timeouts ≤ 1
  p2 : s.uds.state ≠ .waitResponse → own n .p2TimerHandler s.timeouts = 0
  p2Star : s.uds.state ≠ .responsePending → own n .p2StarTimerHandler s.timeouts = 0

/-- The request has its outcome: its callback is running, or the client is idle. -/
structure Done (n k : Nat) (s : Client) : Prop where
  running : s.uds.state ≠ .idle → s.stack ≠ []
  connecting : s.uds.state ≠ .connecting
  outcomes : outcomes s.log = k + 1
  p2 : own n .p2TimerHandler s.timeouts = 0
  p2Star : own n .p2StarTimerHandler s.timeouts = 0

/-- A callback of the context is the request's outcome. -/
theorem Done.callContext {callback : UdsContext → Bool} {o : Note} (ho : o.isOutcome = true)
    (hc : s.uds.context.any callback = true) (hconn : s.uds.state ≠ .connecting)
    (hk : Uds.outcomes s.log = k) (h₁ : own n .p2TimerHandler s.timeouts = 0)
    (h₂ : own n .p2StarTimerHandler s.timeouts = 0) (r : Option (Nat × Nat)) :
    Done n k (s.callContext callback o r) := by
  obtain ⟨-, hs⟩ | ⟨hno, -⟩ := s.callContext_cases callback o r
  · rw [hs]
    exact ⟨fun _ => List.cons_ne_nil _ _, hconn, by simp [ho, hk], h₁, h₂⟩
  · rw [hc] at hno
    cases hno

/-- While the outcome's callback runs, a call changes nothing or ends the request. -/
theorem Done.call (h : s.Done n k) (hi : s.uds.state ≠ .idle) (c : Call) :
    (s.call cfg c).Done n k := by
  -- no call arms P2 or P2*
  have hz : own n .p2TimerHandler (s.call cfg c).timeouts = 0 ∧
      own n .p2StarTimerHandler (s.call cfg c).timeouts = 0 :=
    ⟨Nat.eq_zero_of_le_zero (h.p2 ▸ own_call_le cfg (by simp) c),
      Nat.eq_zero_of_le_zero (h.p2Star ▸ own_call_le cfg (by simp) c)⟩
  cases hc : c.acts with
  | false =>
    -- a busy client refuses the call
    rw [call_eq_self cfg hi hc]
    exact h
  | true =>
    cases c with
    | udsClientInit isotpPcb =>
      cases isotpPcb with
      | none => exact h
      | some p =>
        exact ⟨fun hs => absurd rfl hs, UdsStateT.noConfusion, h.outcomes, h.p2, h.p2Star⟩
    | udsClientDisconnect =>
      simp only [Client.call] at hz ⊢
      obtain ⟨-, hd⟩ | ⟨-, hd⟩ := s.udsClientDisconnect_cases cfg
      · rw [hd]
        exact h
      · rw [hd] at hz ⊢
        exact ⟨fun hs => absurd rfl hs, UdsStateT.noConfusion,
          by simpa [Note.isOutcome] using h.outcomes, hz.1, hz.2⟩
    | lwcanTimeout ms m arg => exact ⟨h.running, h.connecting, h.outcomes, hz.1, hz.2⟩
    | lwcanUntimeout m arg => exact ⟨h.running, h.connecting, h.outcomes, hz.1, hz.2⟩
    | _ => cases hc

/-- **A step with the outcome given** ends the request or leaves it to its callback. -/
theorem Done.step {e : Event} (h : s.Done n k) (hi : s.uds.state ≠ .idle)
    (hst : step cfg s e = some s') : s'.Done n k := by
  obtain ⟨hen, rfl⟩ := step_eq_some.mp hst
  -- ISO-TP and the main loop wait for the callback
  have hrun : ¬s.stack.isEmpty = true := by simpa using h.running hi
  cases e with
  | call c => exact h.call hi c
  | receive p buffer b => exact absurd hen.1 hrun
  | receiveFf p => exact absurd hen.1 hrun
  | sent p => exact absurd hen.1 hrun
  | error p err => exact absurd hen.1 hrun
  | timer send => exact absurd hen.1 hrun
  | ret =>
    simp only [Client.next]
    split
    · exact h
    · next f stack _ =>
      refine ⟨fun hs => absurd (by simp) hs, by simp, ?_, by simpa using h.p2,
        by simpa using h.p2Star⟩
      simpa [finish] using h.outcomes
  | tick ms => exact ⟨h.running, h.connecting, h.outcomes, h.p2, h.p2Star⟩

/-! ### Steps of a request that waits -/

/-- A change of the timeout list that arms and removes none of the request's own -/
theorem Busy.congr (h : s.Busy n k) (huds : s'.uds.state = s.uds.state)
    (hwith : s'.uds.withResponse = s.uds.withResponse) (hctx : s'.uds.context = s.uds.context)
    (hstack : s'.stack = s.stack) (hout : Uds.outcomes s'.log = Uds.outcomes s.log)
    (hok : TimersOk s'.timeouts)
    (h₁ : own n .p2TimerHandler s'.timeouts ≤ own n .p2TimerHandler s.timeouts)
    (h₂ : own n .p2StarTimerHandler s'.timeouts ≤ own n .p2StarTimerHandler s.timeouts) :
    s'.Busy n k where
  timers := hok
  stack := hstack.trans h.stack
  idle := huds ▸ h.idle
  connecting := huds ▸ h.connecting
  withResponse := hwith ▸ h.withResponse
  context := by
    unfold ContextSet
    rw [hctx]
    exact h.context
  outcomes := hout.trans h.outcomes
  p2_le := h₁.trans h.p2_le
  p2Star_le := h₂.trans h.p2Star_le
  p2 := fun hs => Nat.eq_zero_of_le_zero (h.p2 (huds ▸ hs) ▸ h₁)
  p2Star := fun hs => Nat.eq_zero_of_le_zero (h.p2Star (huds ▸ hs) ▸ h₂)

/-- After the `switch` none of its timers is pending. -/
theorem Busy.untimeoutResponse (h : s.Busy n k) (hc : s.StraightCancel n) :
    s.untimeoutResponse.Busy n k ∧ own n .p2TimerHandler s.untimeoutResponse.timeouts = 0 ∧
      own n .p2StarTimerHandler s.untimeoutResponse.timeouts = 0 := by
  have hcancel : ∀ hd, (s.lwcanUntimeout hd).Busy n k := fun hd =>
    h.congr rfl rfl rfl rfl rfl (h.timers.lwcanUntimeout _ _) (own_lwcanUntimeout_le _ _)
      (own_lwcanUntimeout_le _ _)
  unfold Client.untimeoutResponse
  split
  · next hs =>
    -- in `UDS_WAIT_RESPONSE` P2 is cancelled, and P2* is not pending
    refine ⟨hcancel _, own_lwcanUntimeout h.timers h.p2_le (hc.1 hs) (by simp), ?_⟩
    exact Nat.eq_zero_of_le_zero (h.p2Star (by simp [hs]) ▸ own_lwcanUntimeout_le _ _)
  · next hs =>
    -- in `UDS_RESPONSE_PENDING` the other way round
    refine ⟨hcancel _, ?_, own_lwcanUntimeout h.timers h.p2Star_le (hc.2 hs) (by simp)⟩
    exact Nat.eq_zero_of_le_zero (h.p2 (by simp [hs]) ▸ own_lwcanUntimeout_le _ _)
  · next hw hp => exact ⟨h, h.p2 hw, h.p2Star hp⟩

/-- **A message** is the outcome, or it asks for patience. -/
theorem Busy.udsReceive (h : s.Busy n k) (hc : s.StraightCancel n) (pcb buffer : Nat)
    (b : LwcanBuffer) :
    (s.udsReceive pcb buffer b).Busy n k ∨ (s.udsReceive pcb buffer b).Done n k := by
  obtain ⟨hb, h₁, h₂⟩ := h.untimeoutResponse hc
  -- what is read of the message is no outcome
  have hreads : ∀ reads : List Note, (∀ m ∈ reads, ∃ i, m = .read i b.length) →
      Uds.outcomes reads = 0 := by
    intro reads hr
    refine List.countP_eq_zero.mpr fun m hm => ?_
    obtain ⟨i, rfl⟩ := hr m hm
    simp [Note.isOutcome]
  obtain ⟨reads, hr, hs⟩ | ⟨reads, callback, o, hr, ho, hs⟩ :=
    udsReceive_cases h.idle h.connecting pcb buffer b
  · -- the server asks for more time: P2* is armed, once
    have hp2 := own_lwcanTimeout_of_ne (n := n) (h := .p2TimerHandler)
      (t := s.untimeoutResponse.timeouts) s.untimeoutResponse.now s.uds.p2Star
      .p2StarTimerHandler .null (by simp)
    have hp2Star := own_lwcanTimeout_le s.untimeoutResponse.timeouts n s.untimeoutResponse.now
      s.uds.p2Star .p2StarTimerHandler .p2StarTimerHandler .null
    rw [h₁] at hp2
    rw [h₂] at hp2Star
    rw [hs]
    refine Or.inl ⟨?_, by simpa using h.stack, by simp, by simp, by simpa using h.withResponse, ?_,
      ?_, ?_, by simpa using hp2Star, fun _ => by simpa using hp2, fun hs => absurd (by simp) hs⟩
    · simpa using hb.timers.lwcanTimeout _ _ (Or.inr rfl)
    · simpa [ContextSet] using h.context
    · simpa [hreads reads hr] using h.outcomes
    · simpa using le_trans hp2 (Nat.zero_le 1)
  · -- any other response is passed on, to a callback that is registered
    obtain ⟨c, hctx, hpos, hneg, -⟩ := h.context
    have hany : s.uds.context.any callback = true := by
      rw [Option.mem_def.mp hctx, Option.any_some]
      obtain ⟨rfl, -⟩ | ⟨rfl, -⟩ := ho
      · exact hpos
      · exact hneg
    have hout : o.isOutcome = true := by
      obtain ⟨-, rfl⟩ | ⟨-, rfl⟩ := ho <;> rfl
    rw [hs]
    refine Or.inr (Done.callContext (s := { s.untimeoutResponse with log := s.log ++ reads }) hout
      ?_ ?_ ?_ h₁ h₂ _)
    · simpa using hany
    · simpa using h.connecting
    · simpa [hreads reads hr] using h.outcomes

/-- The request's timer runs, or one from before while the request has none: none is left. -/
theorem Busy.own_zero (h : s.Busy n k) {now : Nat} {e : Timeout UdsHandler Ptr}
    (he : s.timeouts.expire now = some (e, t'))
    (hh : e.handler = .p2TimerHandler ∨ e.handler = .p2StarTimerHandler)
    (hs : e.stamp < n →
      own n .p2TimerHandler s.timeouts = 0 ∧ own n .p2StarTimerHandler s.timeouts = 0) :
    own n .p2TimerHandler t' = 0 ∧ own n .p2StarTimerHandler t' = 0 := by
  have h₁ := own_expire (n := n) (h := .p2TimerHandler) he
  have h₂ := own_expire (n := n) (h := .p2StarTimerHandler) he
  by_cases hlt : e.stamp < n
  · obtain ⟨hz₁, hz₂⟩ := hs hlt
    omega
  · have hle : n ≤ e.stamp := by omega
    obtain hh | hh := hh
    · -- an own P2 is pending only in `UDS_WAIT_RESPONSE`, where P2* is not
      have hown : ownEntry n .p2TimerHandler e = true := by simp [ownEntry, hh, hle]
      rw [if_pos hown] at h₁
      have hstate : s.uds.state = .waitResponse := by
        by_contra hne
        have := h.p2 hne
        omega
      have := h.p2Star (by simp [hstate])
      have := h.p2_le
      omega
    · have hown : ownEntry n .p2StarTimerHandler e = true := by simp [ownEntry, hh, hle]
      rw [if_pos hown] at h₂
      have hstate : s.uds.state = .responsePending := by
        by_contra hne
        have := h.p2Star hne
        omega
      have := h.p2 (by simp [hstate])
      have := h.p2Star_le
      omega

/-- **The timeouts.** -/
theorem Busy.timer (h : s.Busy n k) {send : Lwcanerr} (hs : s.Straight n (.timer send)) :
    (s.next cfg (.timer send)).Busy n k ∨ (s.next cfg (.timer send)).Done n k := by
  simp only [Client.next]
  split
  · exact Or.inl h
  · next e t' he =>
    have hl := (Timeouts.expire_eq_some he).1
    simp only [Straight, hl, StraightTimeout] at hs
    obtain ⟨hp2, hretry⟩ := hs
    have hle : ∀ hd, own n hd t' ≤ own n hd s.timeouts := fun hd => by
      rw [own_expire he]
      exact Nat.le_add_right _ _
    have hb : Busy n k { s with timeouts := t' } :=
      h.congr rfl rfl rfl rfl rfl (h.timers.expire he) (hle _) (hle _)
    obtain ⟨c, hctx, -, -, herr⟩ := h.context
    have hany : s.uds.context.any (·.error) = true := by
      rw [Option.mem_def.mp hctx, Option.any_some]
      exact herr
    unfold runHandler
    split
    · next hh =>
      -- a retry left over from an attempt sends a Tester Present and calls nobody
      obtain ⟨hc, hn, -⟩ | ⟨-, hr, -⟩ | ⟨-, hs⟩ := Client.connectTry_cases
        { s with timeouts := t' } send
      · exact absurd (Or.inl ⟨hc, hn⟩) (hretry hh)
      · exact absurd (Or.inr hr) (hretry hh)
      · rw [hs]
        exact Or.inl (hb.congr rfl rfl rfl rfl (by simp [Note.isOutcome]) hb.timers le_rfl le_rfl)
    · unfold s3TimerHandler
      split
      · -- S3 finds the client busy, or ends the connection
        obtain ⟨-, hc⟩ | ⟨_, -, -, -, hidle, -⟩ := Client.udsSendRequest_cases
          { s with timeouts := t' } (some [udsTesterPresentSid, cfg.keepSessionSuppress]) 0 send
        · rw [hc]
          exact Or.inl hb
        · exact absurd hidle h.idle
      · exact Or.inl (hb.congr rfl rfl rfl rfl rfl hb.timers le_rfl le_rfl)
    · next hh =>
      obtain ⟨h₁, h₂⟩ := h.own_zero he (Or.inl hh) (hp2 (Or.inl hh))
      -- the response does not come in time: the error callback is the outcome
      unfold p2TimerHandler
      rw [if_neg hb.connecting]
      exact Or.inr (Done.callContext (s := { s with timeouts := t' }) rfl hany hb.connecting
        hb.outcomes h₁ h₂ _)
    · next hh =>
      obtain ⟨h₁, h₂⟩ := h.own_zero he (Or.inr hh) (hp2 (Or.inr hh))
      exact Or.inr (Done.callContext (s := { s with timeouts := t' }) rfl hany hb.connecting
        hb.outcomes h₁ h₂ _)
    · exact Or.inl hb

/-- **The calls** leave a request that waits as it is. -/
theorem Busy.call (h : s.Busy n k) {c : Call} (hp : s.Pursued k (.call c))
    (hs : s.Straight n (.call c)) : (s.call cfg c).Busy n k := by
  cases hc : c.acts with
  | false =>
    rw [call_eq_self cfg h.idle hc]
    exact h
  | true =>
    cases c with
    | udsClientInit isotpPcb =>
      cases isotpPcb with
      | none => exact h
      | some p => exact absurd h.stack hs
    | udsClientDisconnect =>
      obtain ⟨-, hd⟩ | ⟨hconn, -⟩ := s.udsClientDisconnect_cases cfg
      · simpa [Client.call, hd] using h
      · -- a disconnect would take the outcome away; the request is pursued
        have hlt := hp.2 rfl hconn
        rw [h.outcomes] at hlt
        exact absurd hlt (lt_irrefl k)
    | lwcanTimeout ms m arg =>
      exact h.congr rfl rfl rfl rfl rfl (h.timers.lwcanTimeout _ _ (Or.inl ⟨m, rfl⟩))
        (own_lwcanTimeout_of_ne _ _ _ _ (by simp)) (own_lwcanTimeout_of_ne _ _ _ _ (by simp))
    | lwcanUntimeout m arg =>
      exact h.congr rfl rfl rfl rfl rfl (h.timers.lwcanUntimeout _ _) (own_lwcanUntimeout_le _ _)
        (own_lwcanUntimeout_le _ _)
    | _ => cases hc

/-- **The confirmation** arms P2. -/
theorem Busy.udsSent (h : s.Busy n k) : (s.udsSent cfg).Busy n k := by
  unfold Client.udsSent
  rw [if_neg h.connecting]
  by_cases hs : s.uds.state = .sendingRequest
  · have hne : ¬s.uds.state ≠ .sendingRequest := by simpa using hs
    rw [if_neg hne]
    have hz₁ := h.p2 (by simp [hs])
    have hz₂ := h.p2Star (by simp [hs])
    -- P2 is armed, and the keep-alive timer again
    have harm : ∀ hd, own n hd (((s.timeouts.lwcanTimeout s.now s.uds.p2 .p2TimerHandler
        .null).lwcanUntimeout .s3TimerHandler .null).lwcanTimeout s.now cfg.s3Client .s3TimerHandler
        .null) ≤ own n hd s.timeouts + (if UdsHandler.p2TimerHandler = hd then 1 else 0) +
          if UdsHandler.s3TimerHandler = hd then 1 else 0 := by
      intro hd
      refine le_trans (own_lwcanTimeout_le _ _ _ _ _ _ _) (Nat.add_le_add_right ?_ _)
      exact le_trans (own_lwcanUntimeout_le _ _) (own_lwcanTimeout_le _ _ _ _ _ _ _)
    have h₁ := harm .p2TimerHandler
    have h₂ := harm .p2StarTimerHandler
    simp only [hz₁, hz₂, reduceCtorEq, if_true, if_false] at h₁ h₂
    simp only [if_pos h.withResponse]
    refine ⟨?_, h.stack, by simp, by simp, h.withResponse, h.context, h.outcomes, h₁,
      le_trans h₂ (Nat.zero_le 1), fun hs => absurd rfl hs, fun _ => Nat.eq_zero_of_le_zero h₂⟩
    exact ((h.timers.lwcanTimeout _ _ (Or.inr rfl)).lwcanUntimeout _ _).lwcanTimeout _ _
      (Or.inr rfl)
  · rw [if_pos hs]
    exact h

/-- **A step of a request that waits** -/
theorem Busy.step {e : Event} (h : s.Busy n k) (hp : s.Pursued k e) (hs : s.Straight n e)
    (hst : step cfg s e = some s') : s'.Busy n k ∨ s'.Done n k := by
  obtain ⟨hen, rfl⟩ := step_eq_some.mp hst
  cases e with
  | call c => exact Or.inl (h.call hp hs)
  | receive p buffer b => exact h.udsReceive hs p buffer b
  | receiveFf p =>
    -- the response begins: its timers are cancelled, and the client waits for the rest of it
    obtain ⟨hb, h₁, h₂⟩ := h.untimeoutResponse hs
    simp only [Client.next, udsReceiveFf, if_neg h.idle]
    exact Or.inl ⟨hb.timers, hb.stack, by simp, by simp, hb.withResponse, hb.context, hb.outcomes,
      hb.p2_le, hb.p2Star_le, fun _ => h₁, fun _ => h₂⟩
  | sent p => exact Or.inl h.udsSent
  | error p err =>
    obtain ⟨hb, h₁, h₂⟩ := h.untimeoutResponse hs
    simp only [Client.next, udsError, if_neg h.idle, if_neg h.connecting]
    obtain ⟨c, hctx, -, -, herr⟩ := hb.context
    have hany : s.untimeoutResponse.uds.context.any (·.error) = true := by
      rw [Option.mem_def.mp hctx, Option.any_some]
      exact herr
    -- the transfer failed: the error callback is the outcome
    exact Or.inr (Done.callContext rfl hany hb.connecting hb.outcomes h₁ h₂ _)
  | timer send => exact h.timer hs
  | ret => exact absurd (List.isEmpty_iff.mpr h.stack) hen
  | tick ms =>
    exact Or.inl (h.congr rfl rfl rfl rfl rfl h.timers le_rfl le_rfl)

/-! ### From the acceptance to the end -/

/-- An accepted request waits. -/
theorem Busy.of_accepted {request : Option (List UInt8)} {withResponse : UInt8} {send : Lwcanerr}
    (hacc : s.udsSendRequest request withResponse send = (.ok, s')) (hwr : withResponse ≠ 0)
    (hctx : s.ContextSet) (hstack : s.stack = []) (ht : TimersOk s.timeouts) :
    s'.Busy s.timeouts.armed (Uds.outcomes s.log) := by
  obtain ⟨hno, -⟩ | ⟨data, -, -, -, -, hs⟩ := s.udsSendRequest_cases request withResponse send
  · rw [hacc] at hno
    exact absurd rfl hno
  · obtain rfl := (Prod.ext_iff.mp (hacc.symm.trans hs)).2
    have hz : ∀ hd, own s.timeouts.armed hd s.timeouts = 0 := fun hd =>
      own_eq_zero.mpr fun e he _ => ht.stamp e he
    exact ⟨ht, hstack, by simp, by simp, hwr, hctx, by simp [Note.isOutcome],
      (hz _).le.trans (Nat.zero_le 1), (hz _).le.trans (Nat.zero_le 1), fun _ => hz _,
      fun _ => hz _⟩

/-- **A request has one outcome** if it is accepted between events and every step until its end goes
well. -/
theorem request_outcome {cfg : UdsConfig} {es₁ es₂ : List Event} {s₁ s₂ s₃ : Client}
    {request : Option (List UInt8)} {withResponse : UInt8} {send : Lwcanerr}
    (hrun : Run cfg es₁ s₁) (hacc : s₁.udsSendRequest request withResponse send = (.ok, s₂))
    (hwr : withResponse ≠ 0) (hctx : s₁.ContextSet) (hbetween : s₁.BetweenEvents)
    (hpursued : Runs.Along (step cfg) (Pursued (Uds.outcomes s₁.log)) s₂ es₂)
    (hstraight : Runs.Along (step cfg) (Straight s₁.timeouts.armed) s₂ es₂)
    (hrun₂ : Runs.run (step cfg) s₂ es₂ = some s₃) (hidle : s₃.uds.state = .idle) :
    OneOutcome s₁ s₃ := by
  have hbusy := Busy.of_accepted hacc hwr hctx hbetween (TimersOk.of_run hrun)
  -- busy until the outcome, done from there on
  obtain hb | hd := Runs.run_inv
    (I := fun s => s.Busy s₁.timeouts.armed (Uds.outcomes s₁.log) ∨
      s.Done s₁.timeouts.armed (Uds.outcomes s₁.log))
    (fun s e t hi hc hst => hi.elim (fun hb => hb.step hc.1 hc.2 hst)
      fun hd => Or.inr (hd.step hc.1.1 hst))
    (Or.inl hbusy) (hpursued.and hstraight) hrun₂
  · exact absurd hidle hb.idle
  · refine ⟨hd.outcomes, fun e he hh => ?_⟩
    obtain hh | hh := hh
    · exact own_eq_zero.mp hd.p2 e he hh
    · exact own_eq_zero.mp hd.p2Star e he hh

/-- A connection that the server confirms, with a context whose callbacks are set -/
def connectedRun : List Event :=
  [.call (.udsClientInit (some 0)), .call (.udsSetContext (some ⟨true, true, true⟩) .null),
    .call (.udsClientConnect (some 1) .null .ok .ok), .sent 0,
    .receive 0 5 ⟨0, 2, fun i => if i = 0 then 0x7E else 0⟩, .ret]

/-- A request that the server answers in time -/
theorem request_outcome_connectedRun : ∃ s₁ s₃, Run .default connectedRun s₁ ∧
    OneOutcome s₁ s₃ := by
  obtain ⟨s₁, hr₁, hacc, hctx, hb, hp, hs, hr₃⟩ := Runs.exists_run (step .default)
    (powerUp .default) connectedRun
    (fun s₁ =>
      let s₂ := (s₁.udsSendRequest (some [0x10, 1]) 1 .ok).2
      let es₂ := [.sent 0, .receive 0 6 ⟨0, 2, fun i => if i = 0 then 0x50 else 1⟩, .ret]
      (s₁.udsSendRequest (some [0x10, 1]) 1 .ok).1 = .ok ∧ s₁.ContextSet ∧ s₁.BetweenEvents ∧
        Runs.Along (step .default) (Pursued (Uds.outcomes s₁.log)) s₂ es₂ ∧
        Runs.Along (step .default) (Straight s₁.timeouts.armed) s₂ es₂ ∧
        ((Runs.run (step .default) s₂ es₂).any fun s₃ => s₃.uds.state = .idle) = true)
    (by decide)
  obtain ⟨s₃, hr₃, hidle⟩ := (Option.any_eq_true _ _).mp hr₃
  exact ⟨s₁, s₃, hr₁, request_outcome hr₁ (Prod.ext hacc rfl) (by decide) hctx hb hp hs hr₃
    (of_decide_eq_true hidle)⟩

/-- A `connect_try` left over from a late answer gives up during a request, which ends without an
outcome: ISO-TP is busy with the request. -/
theorem request_without_outcome :
    ¬∀ (cfg : UdsConfig) (es₁ es₂ : List Event) (s₁ s₂ s₃ : Client)
      (request : Option (List UInt8)) (withResponse : UInt8) (send : Lwcanerr),
      Run cfg es₁ s₁ → s₁.udsSendRequest request withResponse send = (.ok, s₂) →
      withResponse ≠ 0 → s₁.ContextSet →
      Runs.Along (step cfg) (Pursued (Uds.outcomes s₁.log)) s₂ es₂ →
      Runs.run (step cfg) s₂ es₂ = some s₃ → s₃.uds.state = .idle → OneOutcome s₁ s₃ := by
  intro h
  -- a retry left over from the attempt fails to send, and takes the client out of the request
  obtain ⟨s₁, hr₁, hacc, hctx, hp, hr₃⟩ := Runs.exists_run (step .default) (powerUp .default)
    [.call (.udsClientInit (some 0)), .call (.udsSetContext (some ⟨true, true, true⟩) .null),
      .call (.udsSetP2Timer 20), .call (.udsClientConnect (some 1) .null .ok .ok), .sent 0,
        .tick 20,
      .timer .ok, .receive 0 5 ⟨0, 2, fun i => if i = 0 then 0x7E else 0⟩, .ret]
    (fun s₁ =>
      let s₂ := (s₁.udsSendRequest (some [0x10, 1]) 1 .ok).2
      let es₂ := [.tick 30, .timer .inprogress, .ret]
      (s₁.udsSendRequest (some [0x10, 1]) 1 .ok).1 = .ok ∧ s₁.ContextSet ∧
        Runs.Along (step .default) (Pursued (Uds.outcomes s₁.log)) s₂ es₂ ∧
        ((Runs.run (step .default) s₂ es₂).any fun s₃ =>
          s₃.uds.state = .idle ∧ ¬OneOutcome s₁ s₃) = true)
    (by decide)
  obtain ⟨s₃, hr₃, hs₃⟩ := (Option.any_eq_true _ _).mp hr₃
  obtain ⟨hidle, hnot⟩ := of_decide_eq_true hs₃
  exact hnot (h .default _ _ s₁ _ s₃ _ 1 _ hr₁ (Prod.ext hacc rfl) (by decide) hctx hp hr₃ hidle)

end Client
end Uds
end Lwcan
