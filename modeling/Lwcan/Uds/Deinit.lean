import Lwcan.Uds.Steps

/-!
# Deinitialising the client

`uds_client_deinit` is refused unless the client is idle, and cancels the keep-alive timer of a
connection. It relies on no other timer being pending then. `Careful` says which steps respect that:
an attempt has one timer at a time, and it is over before anything but a timeout ends it.

* `Tidy` — which timers of the client can be pending in which state; `Tidy.step` keeps it along
  careful steps;
* `Dead` — a client that was deinitialised; every step but `uds_client_init` keeps it;
* `deinit_final` — after a careful run, `uds_client_deinit` leaves no timer of the client behind,
  and none is armed before the next `uds_client_init`.
-/

namespace Lwcan
namespace Uds

/-- A call of `uds_client_init` that succeeds -/
def Event.isInit : Event → Bool
  | .call (.udsClientInit (some _)) => true
  | _ => false

namespace Client

variable {cfg : UdsConfig} {s s' : Client}

/-! ### The property -/

/-- No handler of the client is in the timeout list. -/
def NoClientTimer (s : Client) : Prop := ∀ e ∈ s.timeouts.nextTimeout, ∃ n, e.handler = .other n

/-- **Deinitialising is final**: if it succeeds, no timer of the client is pending until the next
`uds_client_init`, so that none runs. -/
def DeinitFinal (cfg : UdsConfig) (s : Client) : Prop :=
  s.udsClientDeinit.1 = .ok → ∀ (es : List Event) (t : Client), (∀ e ∈ es, e.isInit = false) →
    Runs.run (step cfg) s.udsClientDeinit.2 es = some t → t.NoClientTimer

/-! ### The steps that go well -/

/-- No timer of an attempt is pending. -/
def NoTry (s : Client) : Prop :=
  own 0 .connectTry s.timeouts = 0 ∧ own 0 .p2TimerHandler s.timeouts = 0

instance (s : Client) : Decidable s.NoTry := inferInstanceAs (Decidable (_ ∧ _))

/-- While an attempt is under way, a Tester Present is confirmed or given up, and a first frame
comes, with no timer of the attempt pending; a message or a disconnect comes with no `connect_try`
pending; a request is confirmed while the client is connected; `uds_client_init` is called with no
timer pending. -/
def Careful (s : Client) : Event → Prop
  | .sent _ =>
    (s.uds.state = .connecting → s.NoTry) ∧
      (s.uds.state = .sendingRequest → s.uds.isConnected = true)
  | .error _ _ | .receiveFf _ => s.uds.state = .connecting → s.NoTry
  | .receive _ _ _ => s.uds.state = .connecting → own 0 .connectTry s.timeouts = 0
  | .call .udsClientDisconnect =>
    s.uds.isConnected = true → s.uds.state = .connecting → own 0 .connectTry s.timeouts = 0
  | .call (.udsClientInit (some _)) =>
    s.NoTry ∧ own 0 .p2StarTimerHandler s.timeouts = 0 ∧ own 0 .s3TimerHandler s.timeouts = 0
  | _ => True

instance (s : Client) : (e : Event) → Decidable (s.Careful e)
  | .sent _ => inferInstanceAs (Decidable ((_ → _) ∧ (_ → _)))
  | .error _ _ | .receiveFf _ | .receive _ _ _ => inferInstanceAs (Decidable (_ → _))
  | .call .udsClientDisconnect => inferInstanceAs (Decidable (_ → _ → _))
  | .call (.udsClientInit (some _)) => inferInstanceAs (Decidable (_ ∧ _ ∧ _))
  | .call (.udsClientInit none) | .call .udsClientDeinit | .call (.udsClientConnect _ _ _ _)
  | .call (.udsSetContext _ _) | .call (.udsSetP2Timer _) | .call (.udsSetP2StarTimer _)
  | .call (.udsSendRequest _ _ _) | .call (.lwcanTimeout _ _ _) | .call (.lwcanUntimeout _ _)
  | .timer _ | .ret | .tick _ => inferInstanceAs (Decidable True)

/-! ### Which timers can be pending -/

/-- Neither a retry nor P2 nor P2* is pending. -/
structure Clear (s : Client) : Prop where
  connectTry : own 0 .connectTry s.timeouts = 0
  p2 : own 0 .p2TimerHandler s.timeouts = 0
  p2Star : own 0 .p2StarTimerHandler s.timeouts = 0

/-- What may be pending where the client waits for something -/
inductive Waits (s : Client) : Prop
  | attempt (hs : s.uds.state = .connecting)
      (hle : own 0 .connectTry s.timeouts + own 0 .p2TimerHandler s.timeouts ≤ 1)
      (hp : own 0 .p2StarTimerHandler s.timeouts = 0)
  | response (hs : s.uds.state = .waitResponse) (hle : own 0 .p2TimerHandler s.timeouts ≤ 1)
      (hc : own 0 .connectTry s.timeouts = 0) (hp : own 0 .p2StarTimerHandler s.timeouts = 0)
  | patience (hs : s.uds.state = .responsePending)
      (hle : own 0 .p2StarTimerHandler s.timeouts ≤ 1) (hc : own 0 .connectTry s.timeouts = 0)
      (hp : own 0 .p2TimerHandler s.timeouts = 0)

/-- The keep-alive timer is pending once at most, and only with a connection. -/
structure OneS3 (s : Client) : Prop where
  le : own 0 .s3TimerHandler s.timeouts ≤ 1
  connected : s.uds.isConnected = false → own 0 .s3TimerHandler s.timeouts = 0

/-- **The invariant.** -/
structure Tidy (s : Client) : Prop where
  timers : TimersOk s.timeouts
  s3 : s.OneS3
  mode : s.Clear ∨ (s.stack = [] ∧ s.Waits)

theorem Tidy.initial : Tidy (powerUp cfg) :=
  ⟨TimersOk.initial, ⟨Nat.zero_le 1, fun _ => rfl⟩, Or.inl ⟨rfl, rfl, rfl⟩⟩

theorem Clear.congr (h : s.Clear) (ht : ∀ hd, (∀ k, hd ≠ .other k) → hd ≠ .s3TimerHandler →
    own 0 hd s'.timeouts ≤ own 0 hd s.timeouts) : s'.Clear :=
  ⟨Nat.le_zero.mp ((ht .connectTry (by simp) (by simp)).trans h.connectTry.le),
    Nat.le_zero.mp ((ht .p2TimerHandler (by simp) (by simp)).trans h.p2.le),
    Nat.le_zero.mp ((ht .p2StarTimerHandler (by simp) (by simp)).trans h.p2Star.le)⟩

theorem Waits.congr (h : s.Waits) (hs : s'.uds.state = s.uds.state)
    (ht : ∀ hd, (∀ k, hd ≠ .other k) → hd ≠ .s3TimerHandler →
      own 0 hd s'.timeouts ≤ own 0 hd s.timeouts) : s'.Waits := by
  have hc := ht .connectTry (by simp) (by simp)
  have hp := ht .p2TimerHandler (by simp) (by simp)
  have hps := ht .p2StarTimerHandler (by simp) (by simp)
  cases h with
  | attempt hst hle h₀ => exact .attempt (hs.trans hst) (by omega) (by omega)
  | response hst hle h₁ h₂ => exact .response (hs.trans hst) (by omega) (by omega) (by omega)
  | patience hst hle h₁ h₂ => exact .patience (hs.trans hst) (by omega) (by omega) (by omega)

/-- Outside `UDS_CONNECTING` the `switch` leaves none of the three timers. -/
theorem Tidy.untimeoutResponse (h : s.Tidy) (hc : s.uds.state ≠ .connecting) :
    s.untimeoutResponse.Clear := by
  obtain hcl | ⟨-, hw⟩ := h.mode
  · exact hcl.congr fun _ _ _ => own_untimeoutResponse_le
  · have hle : ∀ hd, own 0 hd s.untimeoutResponse.timeouts ≤ own 0 hd s.timeouts :=
      fun _ => own_untimeoutResponse_le
    cases hw with
    | attempt hs => exact absurd hs hc
    | response hs hle₁ h₁ h₂ =>
      -- P2 is the only one pending, and its only entry is cancelled
      refine ⟨Nat.le_zero.mp ((hle _).trans h₁.le), ?_, Nat.le_zero.mp ((hle _).trans h₂.le)⟩
      unfold Client.untimeoutResponse
      rw [hs]
      exact own_lwcanUntimeout h.timers hle₁ firstOwn_zero (by simp)
    | patience hs hle₁ h₁ h₂ =>
      refine ⟨Nat.le_zero.mp ((hle _).trans h₁.le), Nat.le_zero.mp ((hle _).trans h₂.le), ?_⟩
      unfold Client.untimeoutResponse
      rw [hs]
      exact own_lwcanUntimeout h.timers hle₁ firstOwn_zero (by simp)

/-! ### Every careful step keeps the invariant -/

/-- A step that touches neither the three timers, the connection nor the keep-alive timer -/
theorem Tidy.congr (h : s.Tidy) (hok : TimersOk s'.timeouts)
    (ht : ∀ hd, (∀ k, hd ≠ .other k) → own 0 hd s'.timeouts ≤ own 0 hd s.timeouts)
    (hconn : s'.uds.isConnected = false → s.uds.isConnected = false ∨
      own 0 .s3TimerHandler s'.timeouts = 0)
    (hmode : s.Clear ∨ (s'.stack = s.stack ∧ s'.uds.state = s.uds.state)) : s'.Tidy := by
  refine ⟨hok, ⟨(ht _ (by simp)).trans h.s3.le, fun hc => ?_⟩, ?_⟩
  · obtain hc | hz := hconn hc
    · exact Nat.le_zero.mp ((ht _ (by simp)).trans (h.s3.connected hc).le)
    · exact hz
  · obtain hcl | ⟨hst, hs⟩ := hmode
    · exact Or.inl (hcl.congr fun hd hk _ => ht hd hk)
    · obtain hcl | ⟨hstack, hw⟩ := h.mode
      · exact Or.inl (hcl.congr fun hd hk _ => ht hd hk)
      · exact Or.inr ⟨hst.trans hstack, hw.congr hs fun hd hk _ => ht hd hk⟩

/-- An idle client has none of the three timers. -/
theorem Tidy.clear_of_idle (h : s.Tidy) (hs : s.uds.state = .idle) : s.Clear := by
  obtain hcl | ⟨-, hw⟩ := h.mode
  · exact hcl
  · cases hw with
    | attempt hst =>
      rw [hs] at hst
      cases hst
    | response hst =>
      rw [hs] at hst
      cases hst
    | patience hst =>
      rw [hs] at hst
      cases hst

theorem Tidy.p2_le (h : s.Tidy) : own 0 .p2TimerHandler s.timeouts ≤ 1 := by
  obtain hcl | ⟨-, hw⟩ := h.mode
  · exact hcl.p2.le.trans (Nat.zero_le 1)
  · cases hw with
    | attempt hs hle => omega
    | response hs hle => exact hle
    | patience hs hle hc hp => omega

theorem Tidy.p2Star_le (h : s.Tidy) : own 0 .p2StarTimerHandler s.timeouts ≤ 1 := by
  obtain hcl | ⟨-, hw⟩ := h.mode
  · exact hcl.p2Star.le.trans (Nat.zero_le 1)
  · cases hw with
    | attempt hs hle hp => omega
    | response hs hle hc hp => omega
    | patience hs hle => exact hle

theorem Tidy.p2Star_of_connecting (h : s.Tidy) (hs : s.uds.state = .connecting) :
    own 0 .p2StarTimerHandler s.timeouts = 0 := by
  obtain hcl | ⟨-, hw⟩ := h.mode
  · exact hcl.p2Star
  · cases hw with
    | attempt hst hle hp => exact hp
    | response hst hle hc hp => exact hp
    | patience hst =>
      rw [hs] at hst
      cases hst

/-- A retry is pending only while an attempt is under way. -/
theorem Tidy.connectTry (h : s.Tidy) (hs : s.uds.state ≠ .connecting) :
    own 0 .connectTry s.timeouts = 0 := by
  obtain hcl | ⟨-, hw⟩ := h.mode
  · exact hcl.connectTry
  · cases hw with
    | attempt hst => exact absurd hst hs
    | response hst hle hc => exact hc
    | patience hst hle hc => exact hc

/-- A disconnect cancels the one P2, the one P2* and the one keep-alive timer. -/
theorem Tidy.own_disconnect (h : s.Tidy) (cfg : UdsConfig) (hconn : s.uds.isConnected = true) :
    own 0 .p2TimerHandler (s.udsClientDisconnect cfg).timeouts = 0 ∧
      own 0 .p2StarTimerHandler (s.udsClientDisconnect cfg).timeouts = 0 ∧
      own 0 .s3TimerHandler (s.udsClientDisconnect cfg).timeouts = 0 := by
  obtain ⟨hno, -⟩ | ⟨-, hd⟩ := s.udsClientDisconnect_cases cfg
  · rw [hconn] at hno
    cases hno
  · rw [hd]
    dsimp only
    -- one entry each at most, so one cancellation each is enough
    have ht₁ := h.timers.lwcanUntimeout .p2TimerHandler .null
    have ht₂ := ht₁.lwcanUntimeout .p2StarTimerHandler .null
    refine ⟨Nat.le_zero.mp ?_, Nat.le_zero.mp ?_, ?_⟩
    · refine (own_lwcanUntimeout_le _ _).trans ((own_lwcanUntimeout_le _ _).trans ?_)
      exact (own_lwcanUntimeout h.timers h.p2_le firstOwn_zero (by simp)).le
    · refine (own_lwcanUntimeout_le _ _).trans ?_
      exact (own_lwcanUntimeout ht₁ ((own_lwcanUntimeout_le _ _).trans h.p2Star_le) firstOwn_zero
        (by simp)).le
    · exact own_lwcanUntimeout ht₂ ((own_lwcanUntimeout_le _ _).trans
        ((own_lwcanUntimeout_le _ _).trans h.s3.le)) firstOwn_zero (by simp)

/-- A call that leaves an idle client disconnected leaves no keep-alive timer of a session. -/
theorem Tidy.s3_call (h : s.Tidy) {c : Call} (hc : s.Careful (.call c)) (hs : s.uds.state = .idle)
    (hcn : (s.call cfg c).uds.isConnected = false) : s.uds.isConnected = false ∨
      own 0 .s3TimerHandler (s.call cfg c).timeouts = 0 := by
  cases c with
  | udsClientInit isotpPcb =>
    cases isotpPcb with
    | none => exact Or.inl hcn
    -- the client starts anew; it is initialised only without timers
    | some p => exact Or.inr hc.2.2
  | udsClientDeinit =>
    obtain ⟨hne, -⟩ | ⟨-, -, hd⟩ := s.udsClientDeinit_cases
    · exact absurd hs hne
    · cases hcs : s.uds.isConnected with
      | false => exact Or.inl rfl
      | true =>
        refine Or.inr ?_
        -- deinitialising a connected client cancels S3
        simp only [Client.call, hd, hcs]
        exact own_lwcanUntimeout h.timers h.s3.le firstOwn_zero (by simp)
  | udsClientConnect cb arg bind send =>
    obtain ⟨-, he⟩ | ⟨-, he⟩ := s.udsClientConnect_cases cfg cb arg bind send
    · simp only [Client.call, he] at hcn
      exact Or.inl hcn
    · simp only [Client.call, he, connectTry_isConnected, emit_uds] at hcn
      exact Or.inl hcn
  | udsClientDisconnect =>
    cases hcs : s.uds.isConnected with
    | false => exact Or.inl rfl
    | true => exact Or.inr (h.own_disconnect cfg hcs).2.2
  | udsSetContext context handle =>
    simp only [Client.call, udsSetContext, hs] at hcn
    exact Or.inl hcn
  | udsSetP2Timer time =>
    simp only [Client.call, udsSetP2Timer, hs] at hcn
    exact Or.inl hcn
  | udsSetP2StarTimer time =>
    simp only [Client.call, udsSetP2StarTimer, hs] at hcn
    exact Or.inl hcn
  | udsSendRequest request withResponse send =>
    obtain ⟨-, he⟩ | ⟨_, -, -, hcs, -, he⟩ := s.udsSendRequest_cases request withResponse send
    · simp only [Client.call, he] at hcn
      exact Or.inl hcn
    · simp only [Client.call, he, emit_uds, hcs] at hcn
      cases hcn
  | lwcanTimeout ms m arg => exact Or.inl hcn
  | lwcanUntimeout m arg => exact Or.inl hcn

/-- **The calls.** -/
theorem Tidy.call (h : s.Tidy) {c : Call} (hc : s.Careful (.call c)) : (s.call cfg c).Tidy := by
  have hok : TimersOk (s.call cfg c).timeouts := TimersOk.next (e := .call c) h.timers
  have hle : ∀ hd, (∀ k, hd ≠ .other k) →
      own 0 hd (s.call cfg c).timeouts ≤ own 0 hd s.timeouts := fun hd hk => own_call_le cfg hk c
  by_cases hs : s.uds.state = .idle
  · have hcl := h.clear_of_idle hs
    exact h.congr hok hle (h.s3_call hc hs) (Or.inl hcl)
  · cases ha : c.acts with
    | false =>
      -- a busy client refuses what does not act in any state
      rw [call_eq_self cfg hs ha]
      exact h
    | true =>
      cases c with
      | udsClientInit isotpPcb =>
        cases isotpPcb with
        | none => exact h
        | some p =>
          obtain ⟨⟨hct, hp2⟩, hp2s, hs3⟩ := hc
          exact ⟨hok, ⟨hs3.le.trans (Nat.zero_le 1), fun _ => hs3⟩, Or.inl ⟨hct, hp2, hp2s⟩⟩
      | udsClientDisconnect =>
        obtain ⟨hcs, hd⟩ | ⟨hcs, hd⟩ := s.udsClientDisconnect_cases cfg
        · simp only [Client.call, hd]
          exact h
        · -- a disconnect cancels P2, P2* and S3, and no retry is pending
          obtain ⟨hp2, hp2s, hs3⟩ := h.own_disconnect cfg hcs
          refine ⟨hok, ⟨hs3.le.trans (Nat.zero_le 1), fun _ => hs3⟩, Or.inl ⟨?_, hp2, hp2s⟩⟩
          refine Nat.le_zero.mp ((hle _ (by simp)).trans ?_)
          by_cases hst : s.uds.state = .connecting
          · exact (hc hcs hst).le
          · exact (h.connectTry hst).le
      | lwcanTimeout ms m arg => exact h.congr hok hle Or.inl (Or.inr ⟨rfl, rfl⟩)
      | lwcanUntimeout m arg => exact h.congr hok hle Or.inl (Or.inr ⟨rfl, rfl⟩)
      | _ => cases ha

/-- A callback of the context is called with none of the three timers pending. -/
theorem Tidy.callContext (h : s.Tidy) (hcl : s.Clear) {callback : UdsContext → Bool} {n : Note}
    {r : Option (Nat × Nat)} : (s.callContext callback n r).Tidy := by
  refine h.congr (by simpa using h.timers) (by simp) (fun hc => Or.inl ?_) (Or.inl hcl)
  obtain ⟨-, hs⟩ | ⟨-, hs⟩ := s.callContext_cases callback n r
  · simpa [hs] using hc
  · simpa [hs] using hc

section Timer

variable {e : Timeout UdsHandler Ptr} {t' : Timeouts UdsHandler Ptr}

/-- The entry that is due leaves the list. -/
theorem own_due (he : s.timeouts.expire s.now = some (e, t')) (hd : UdsHandler) :
    own 0 hd s.timeouts = own 0 hd t' + if e.handler = hd then 1 else 0 := by
  rw [own_expire he]
  simp [ownEntry]

theorem own_rest_le (he : s.timeouts.expire s.now = some (e, t')) (hd : UdsHandler) :
    own 0 hd t' ≤ own 0 hd s.timeouts := by
  rw [own_due he]
  exact Nat.le_add_right _ _

theorem Tidy.due (h : s.Tidy) (he : s.timeouts.expire s.now = some (e, t')) :
    Tidy { s with timeouts := t' } :=
  h.congr (h.timers.expire he) (fun hd _ => own_rest_le he hd) Or.inl (Or.inr ⟨rfl, rfl⟩)

/-- **A retry runs**: it was the only timer of the attempt. -/
theorem Tidy.runConnectTry (h : s.Tidy) (he : s.timeouts.expire s.now = some (e, t'))
    (hh : e.handler = .connectTry) (send : Lwcanerr) :
    Tidy (Client.connectTry { s with timeouts := t' } send) := by
  have h' := h.due he
  have hct := own_due he .connectTry
  rw [if_pos hh] at hct
  have hclear : Clear { s with timeouts := t' } := by
    -- only an attempt has a retry, and no P2 beside it
    obtain hcl | ⟨-, hw⟩ := h.mode
    · have := hcl.connectTry
      omega
    · cases hw with
      | attempt hs h₁ h₂ =>
        have := own_rest_le he .p2TimerHandler
        have := own_rest_le he .p2StarTimerHandler
        exact ⟨by simp only; omega, by simp only; omega, by simp only; omega⟩
      | response hs h₁ h₂ => omega
      | patience hs h₁ h₂ => omega
  exact h'.congr (by simpa using h'.timers) (by simp) (fun hc => Or.inl (by simpa using hc))
    (Or.inl hclear)

/-- **The keep-alive timer runs**: without a session to keep the connection ends, and it was the
only keep-alive timer. -/
theorem Tidy.runS3 (h : s.Tidy) (he : s.timeouts.expire s.now = some (e, t'))
    (hh : e.handler = .s3TimerHandler) (send : Lwcanerr) :
    Tidy (Client.s3TimerHandler cfg { s with timeouts := t' } send) := by
  have h' := h.due he
  unfold Client.s3TimerHandler
  split
  · obtain ⟨-, hc⟩ | ⟨_, -, -, -, hidle, hc⟩ := Client.udsSendRequest_cases
      { s with timeouts := t' } (some [udsTesterPresentSid, cfg.keepSessionSuppress]) 0 send
    · rw [hc]
      exact h'
    · rw [hc]
      exact h'.congr h'.timers (fun _ _ => le_rfl) Or.inl (Or.inl (h'.clear_of_idle hidle))
  · refine h'.congr h'.timers (fun _ _ => le_rfl) (fun _ => Or.inr ?_) (Or.inr ⟨rfl, rfl⟩)
    have hs3 := own_due he .s3TimerHandler
    have hone := h.s3.le
    rw [if_pos hh] at hs3
    simp only
    omega

/-- **P2 runs**: a retry of the attempt under way takes its place, or the response is no longer
awaited. -/
theorem Tidy.runP2 (h : s.Tidy) (he : s.timeouts.expire s.now = some (e, t'))
    (hh : e.handler = .p2TimerHandler) :
    Tidy (Client.p2TimerHandler cfg { s with timeouts := t' }) := by
  have h' := h.due he
  have hp2 := own_due he .p2TimerHandler
  rw [if_pos hh] at hp2
  have hle₁ := own_rest_le he .connectTry
  have hle₂ := own_rest_le he .p2StarTimerHandler
  unfold Client.p2TimerHandler
  obtain hcl | ⟨hstack, hw⟩ := h.mode
  · have := hcl.p2
    omega
  · cases hw with
    | attempt hs h₁ h₂ =>
      -- in `UDS_CONNECTING` the retry takes the place of P2
      rw [if_pos hs]
      refine ⟨h'.timers.lwcanTimeout _ _ (Or.inr rfl), ⟨?_, fun hc => ?_⟩,
        Or.inr ⟨hstack, .attempt hs ?_ ?_⟩⟩
      · exact (own_lwcanTimeout_of_ne _ _ _ _ (by simp)).trans h'.s3.le
      · exact Nat.le_zero.mp ((own_lwcanTimeout_of_ne _ _ _ _ (by simp)).trans
          (h'.s3.connected hc).le)
      · have hct := own_lwcanTimeout_le t' 0 s.now
          (Client.connectTimeout cfg { s with timeouts := t' }) .connectTry .connectTry .null
        have hp := own_lwcanTimeout_of_ne (n := 0) (h := .p2TimerHandler) (t := t') s.now
          (Client.connectTimeout cfg { s with timeouts := t' }) .connectTry .null
          (by simp)
        simp only [lwcanTimeout_timeouts, if_true] at hct ⊢
        omega
      · refine Nat.le_zero.mp ((own_lwcanTimeout_of_ne _ _ _ _ (by simp)).trans ?_)
        simp only
        omega
    | response hs h₁ h₂ h₃ =>
      -- otherwise it was the only timer of the response
      have hclear : Clear { s with timeouts := t' } :=
        ⟨by simp only; omega, by simp only; omega, by simp only; omega⟩
      rw [if_neg (by simp [hs])]
      exact h'.callContext hclear
    | patience hs h₁ h₂ h₃ => omega

/-- P2* runs: the response is no longer awaited. -/
theorem Tidy.runP2Star (h : s.Tidy) (he : s.timeouts.expire s.now = some (e, t'))
    (hh : e.handler = .p2StarTimerHandler) :
    Tidy (Client.p2StarTimerHandler { s with timeouts := t' }) := by
  have h' := h.due he
  have hp2 := own_due he .p2StarTimerHandler
  rw [if_pos hh] at hp2
  have hle₁ := own_rest_le he .connectTry
  have hle₂ := own_rest_le he .p2TimerHandler
  obtain hcl | ⟨-, hw⟩ := h.mode
  · have := hcl.p2Star
    omega
  · cases hw with
    | attempt hs h₁ h₂ => omega
    | response hs h₁ h₂ h₃ => omega
    | patience hs h₁ h₂ h₃ =>
      have hclear : Clear { s with timeouts := t' } :=
        ⟨by simp only; omega, by simp only; omega, by simp only; omega⟩
      exact h'.callContext hclear

/-- A timeout that is due in careful order: P2 or a retry of the attempt under way, the timer of the
response that is awaited, or one that is not of the client's three. -/
theorem Tidy.timer (h : s.Tidy) {send : Lwcanerr} : (s.next cfg (.timer send)).Tidy := by
  simp only [Client.next]
  split
  · exact h
  · next e t' he =>
    unfold runHandler
    split
    · next hh => exact h.runConnectTry he hh send
    · next hh => exact h.runS3 he hh send
    · next hh => exact h.runP2 he hh
    · next hh => exact h.runP2Star he hh
    · exact h.due he

end Timer

/-- **A message.** -/
theorem Tidy.udsReceive (h : s.Tidy) (hst : s.stack = []) {pcb buffer : Nat} {b : LwcanBuffer}
    (hc : s.Careful (.receive pcb buffer b)) : (s.udsReceive pcb buffer b).Tidy := by
  have hok : TimersOk (s.udsReceive pcb buffer b).timeouts :=
    @TimersOk.next .default s h.timers (.receive pcb buffer b)
  by_cases hi : s.uds.state = .idle
  · -- an idle client drops the message
    have hr : s.udsReceive pcb buffer b = s.isotpReceived (some (pcb, buffer)) := by
      simp [Client.udsReceive, hi]
    rw [hr]
    exact h.congr (by simpa using h.timers) (by simp) (fun hcn => Or.inl (by simpa using hcn))
      (Or.inr (by simp))
  by_cases hconn : s.uds.state = .connecting
  · -- no retry is pending, and P2 is cancelled
    have hct := hc hconn
    have hps := h.p2Star_of_connecting hconn
    have hle : ∀ hd, own 0 hd (s.timeouts.lwcanUntimeout .p2TimerHandler .null) ≤
        own 0 hd s.timeouts := fun _ => own_lwcanUntimeout_le _ _
    have hclear : Clear (s.lwcanUntimeout .p2TimerHandler) :=
      ⟨Nat.le_zero.mp ((hle _).trans hct.le),
        own_lwcanUntimeout h.timers h.p2_le firstOwn_zero (by simp),
        Nat.le_zero.mp ((hle _).trans hps.le)⟩
    have h' : Tidy (s.lwcanUntimeout .p2TimerHandler) :=
      h.congr (h.timers.lwcanUntimeout _ _) (fun hd _ => hle hd) Or.inl (Or.inr ⟨rfl, rfl⟩)
    rw [udsReceive_connecting hconn]
    split
    · exact h'.congr h'.timers (fun _ _ => le_rfl) Or.inl (Or.inl hclear)
    · exact h'.congr h'.timers (fun _ _ => le_rfl) (fun hcn => by cases hcn) (Or.inl hclear)
  · -- the response is there: its timer is cancelled
    have hclear := h.untimeoutResponse hconn
    have h' : s.untimeoutResponse.Tidy :=
      h.congr (TimersOk.untimeoutResponse h.timers) (fun _ _ => own_untimeoutResponse_le)
        (by simpa using Or.inl) (Or.inr (by simp))
    obtain ⟨reads, -, hr⟩ | ⟨reads, callback, o, -, -, hr⟩ := udsReceive_cases hi hconn pcb buffer b
    · -- the server asks for more time
      rw [hr] at hok ⊢
      -- P2* is armed, and is the only timer that awaits a response
      have harm := own_lwcanTimeout_le s.untimeoutResponse.timeouts 0 s.untimeoutResponse.now
        s.uds.p2Star
      refine ⟨hok, ⟨?_, fun hcn => ?_⟩, Or.inr ⟨by simpa using hst, .patience (by simp) ?_ ?_ ?_⟩⟩
      · simpa using (harm .s3TimerHandler .p2StarTimerHandler .null).trans h'.s3.le
      · have := h'.s3.connected (by simpa using hcn)
        have hle := harm .s3TimerHandler .p2StarTimerHandler .null
        simpa [this] using hle
      · have hle := harm .p2StarTimerHandler .p2StarTimerHandler .null
        simpa [hclear.p2Star] using hle
      · have hle := harm .connectTry .p2StarTimerHandler .null
        simpa [hclear.connectTry] using hle
      · have hle := harm .p2TimerHandler .p2StarTimerHandler .null
        simpa [hclear.p2] using hle
    · rw [hr]
      have h'' : Tidy { s.untimeoutResponse with log := s.log ++ reads } :=
        h'.congr h'.timers (fun _ _ => le_rfl) Or.inl (Or.inr ⟨rfl, rfl⟩)
      exact h''.callContext ⟨hclear.connectTry, hclear.p2, hclear.p2Star⟩

/-- The Tester Present of an attempt is confirmed: P2 is armed for the answer to it, and is the only
timer of the attempt. -/
theorem Tidy.udsSent_connecting (h : s.Tidy) (hst : s.stack = []) {pcb : Nat}
    (hc : s.Careful (.sent pcb)) (hconn : s.uds.state = .connecting) : (s.udsSent cfg).Tidy := by
  have hok : TimersOk (s.udsSent cfg).timeouts :=
    @TimersOk.next cfg s h.timers (.sent pcb)
  obtain ⟨hct, hp2⟩ := hc.1 hconn
  have hps : own 0 .p2StarTimerHandler s.timeouts = 0 := h.p2Star_of_connecting hconn
  have harm := own_lwcanTimeout_le s.timeouts 0 s.now s.uds.p2
  simp only [Client.udsSent, if_pos hconn] at hok ⊢
  refine ⟨hok, ⟨?_, fun hcn => ?_⟩, Or.inr ⟨hst, .attempt hconn ?_ ?_⟩⟩
  · simpa using (harm .s3TimerHandler .p2TimerHandler .null).trans h.s3.le
  · have hle := harm .s3TimerHandler .p2TimerHandler .null
    simpa [h.s3.connected hcn] using hle
  · have hle₁ := harm .connectTry .p2TimerHandler .null
    have hle₂ := harm .p2TimerHandler .p2TimerHandler .null
    simp only [hct, hp2, reduceCtorEq, if_true, if_false, lwcanTimeout_timeouts] at hle₁ hle₂ ⊢
    omega
  · have hle := harm .p2StarTimerHandler .p2TimerHandler .null
    simpa [hps] using hle

/-- While a request goes out, none of the three timers is pending. -/
theorem Tidy.clear_of_sending (h : s.Tidy) (hsend : s.uds.state = .sendingRequest) : s.Clear := by
  obtain hcl | ⟨-, hw⟩ := h.mode
  · exact hcl
  · cases hw with
    | attempt hs => rw [hs] at hsend; cases hsend
    | response hs => rw [hs] at hsend; cases hsend
    | patience hs => rw [hs] at hsend; cases hsend

/-- Arming the keep-alive timer anew adds no other timer. -/
theorem own_rearmS3_of_ne (t : Timeouts UdsHandler Ptr) (now ms : Nat) {hd : UdsHandler}
    (hne : hd ≠ .s3TimerHandler) :
    own 0 hd ((t.lwcanUntimeout .s3TimerHandler .null).lwcanTimeout now ms .s3TimerHandler .null) ≤
      own 0 hd t :=
  (own_lwcanTimeout_of_ne _ _ _ _ fun he => hne he.symm).trans (own_lwcanUntimeout_le _ _)

/-- Arming the keep-alive timer anew leaves one of it at most. -/
theorem own_rearmS3 {t : Timeouts UdsHandler Ptr} (ht : TimersOk t)
    (hle : own 0 .s3TimerHandler t ≤ 1) (now ms : Nat) :
    own 0 .s3TimerHandler
      ((t.lwcanUntimeout .s3TimerHandler .null).lwcanTimeout now ms .s3TimerHandler .null) ≤ 1 := by
  have hz := own_lwcanUntimeout ht hle firstOwn_zero (by simp)
  have hle := own_lwcanTimeout_le (t.lwcanUntimeout .s3TimerHandler .null) 0 now ms
    .s3TimerHandler .s3TimerHandler .null
  simpa [hz] using hle

/-- A request is confirmed: P2 is armed if there is a response to wait for. -/
theorem Tidy.udsSent_sending (h : s.Tidy) (hst : s.stack = []) (hon : s.uds.isConnected = true)
    (hsend : s.uds.state = .sendingRequest) : (s.udsSent cfg).Tidy := by
  have hcl : s.Clear := h.clear_of_sending hsend
  have hconn : s.uds.state ≠ .connecting := by simp [hsend]
  simp only [Client.udsSent, if_neg hconn, if_neg (not_not.mpr hsend)]
  split
  · have hp := own_lwcanTimeout_le s.timeouts 0 s.now s.uds.p2
    have ht := h.timers.lwcanTimeout s.now s.uds.p2 (h := .p2TimerHandler) (a := .null)
      (Or.inr rfl)
    refine ⟨(ht.lwcanUntimeout _ _).lwcanTimeout _ _ (Or.inr rfl),
      ⟨own_rearmS3 ht ?_ _ _, fun hcn => ?_⟩, Or.inr ⟨hst, .response (by simp) ?_ ?_ ?_⟩⟩
    · simpa using (hp .s3TimerHandler .p2TimerHandler .null).trans h.s3.le
    · simp [hon] at hcn
    · refine (own_rearmS3_of_ne _ _ _ (by simp)).trans ?_
      have hle := hp .p2TimerHandler .p2TimerHandler .null
      simpa [hcl.p2] using hle
    · refine Nat.le_zero.mp ((own_rearmS3_of_ne _ _ _ (by simp)).trans ?_)
      have hle := hp .connectTry .p2TimerHandler .null
      simpa [hcl.connectTry] using hle
    · refine Nat.le_zero.mp ((own_rearmS3_of_ne _ _ _ (by simp)).trans ?_)
      have hle := hp .p2StarTimerHandler .p2TimerHandler .null
      simpa [hcl.p2Star] using hle
  -- a request without a response: the client is idle again, with S3 armed
  · refine ⟨(h.timers.lwcanUntimeout _ _).lwcanTimeout _ _ (Or.inr rfl),
      ⟨own_rearmS3 h.timers h.s3.le _ _, fun hcn => ?_⟩,
      Or.inl (hcl.congr fun hd _ hne => own_rearmS3_of_ne _ _ _ hne)⟩
    simp [hon] at hcn

/-- **The confirmation** arms the attempt's P2, or the response's P2 and the keep-alive timer. -/
theorem Tidy.udsSent (h : s.Tidy) (hst : s.stack = []) {pcb : Nat} (hc : s.Careful (.sent pcb)) :
    (s.udsSent cfg).Tidy := by
  by_cases hconn : s.uds.state = .connecting
  · exact h.udsSent_connecting hst hc hconn
  by_cases hsend : s.uds.state = .sendingRequest
  · exact h.udsSent_sending hst (hc.2 hsend) hsend
  · -- a confirmation of nothing the client waits for
    have hr : s.udsSent cfg = s := by simp [Client.udsSent, hconn, hsend]
    rw [hr]
    exact h

/-- **Every careful step keeps the invariant.** -/
theorem Tidy.step {e : Event} (h : s.Tidy) (hc : s.Careful e) (hst : step cfg s e = some s') :
    s'.Tidy := by
  obtain ⟨hen, rfl⟩ := step_eq_some.mp hst
  have hok : TimersOk (s.next cfg e).timeouts := TimersOk.next h.timers e
  cases e with
  | call c => exact h.call hc
  | receive pcb buffer b => exact h.udsReceive (List.isEmpty_iff.mp hen.1) hc
  | receiveFf pcb =>
    simp only [Client.next, udsReceiveFf] at hok ⊢
    split
    · exact h
    · have hclear : s.untimeoutResponse.Clear := by
        by_cases hconn : s.uds.state = .connecting
        · obtain ⟨hct, hp2⟩ := hc hconn
          have hcl : s.Clear := ⟨hct, hp2, h.p2Star_of_connecting hconn⟩
          exact hcl.congr fun _ _ _ => own_untimeoutResponse_le
        · exact h.untimeoutResponse hconn
      exact ⟨TimersOk.untimeoutResponse h.timers,
        ⟨own_untimeoutResponse_le.trans h.s3.le, fun hcn => Nat.le_zero.mp
          (own_untimeoutResponse_le.trans (h.s3.connected (by simpa using hcn)).le)⟩,
        Or.inl ⟨hclear.connectTry, hclear.p2, hclear.p2Star⟩⟩
  | sent pcb => exact h.udsSent (List.isEmpty_iff.mp hen.1) hc
  | error pcb err =>
    by_cases hconn : s.uds.state = .connecting
    · obtain ⟨hct, hp2⟩ := hc hconn
      -- the error arms the next try, which is the one timer of the attempt
      have hps := h.p2Star_of_connecting hconn
      have harm := own_lwcanTimeout_le s.timeouts 0 s.now (s.connectTimeout cfg)
      simp only [Client.next, udsError, if_pos hconn] at hok ⊢
      refine ⟨hok, ⟨?_, fun hcn => ?_⟩, Or.inr ⟨List.isEmpty_iff.mp hen.1, .attempt hconn ?_ ?_⟩⟩
      · simpa using (harm .s3TimerHandler .connectTry .null).trans h.s3.le
      · have hle := harm .s3TimerHandler .connectTry .null
        simpa [h.s3.connected hcn] using hle
      · have hle₁ := harm .connectTry .connectTry .null
        have hle₂ := harm .p2TimerHandler .connectTry .null
        simp only [hct, hp2, reduceCtorEq, if_true, if_false, lwcanTimeout_timeouts] at hle₁ hle₂ ⊢
        omega
      · have hle := harm .p2StarTimerHandler .connectTry .null
        simpa [hps] using hle
    · simp only [Client.next, udsError, if_neg hconn]
      split
      · exact h
      · -- the timer of the answer is cancelled, and the application is told
        have h' : s.untimeoutResponse.Tidy :=
          h.congr (TimersOk.untimeoutResponse h.timers) (fun _ _ => own_untimeoutResponse_le)
            (by simpa using Or.inl) (Or.inr (by simp))
        exact h'.callContext (h.untimeoutResponse hconn)
  | timer send => exact h.timer
  -- a callback returns to what called it, and arms nothing
  | ret =>
    have hcl : s.Clear := by
      obtain hcl | ⟨hstack, -⟩ := h.mode
      · exact hcl
      · exact absurd (List.isEmpty_iff.mpr hstack) hen
    simp only [Client.next] at hok ⊢
    split
    · exact h
    · exact h.congr (by simpa using h.timers) (by simp) (fun hcn => Or.inl (by simpa using hcn))
        (Or.inl hcl)
  | tick ms => exact h.congr h.timers (fun _ _ => le_rfl) Or.inl (Or.inr ⟨rfl, rfl⟩)

/-! ### After deinitialising -/

/-- The record of a client that was deinitialised: idle, not connected, without a pcb -/
structure Down (s : Client) : Prop where
  state : s.uds.state = .idle
  connected : s.uds.isConnected = false
  pcb : s.uds.isotpPcb = none

theorem Down.congr (h : s.Down) (hs : s'.uds.state = .idle)
    (hc : s'.uds.isConnected = s.uds.isConnected) (hp : s'.uds.isotpPcb = s.uds.isotpPcb) :
    s'.Down :=
  ⟨hs, hc.trans h.connected, hp.trans h.pcb⟩

/-- Without a connection there is nothing to send a request over. -/
theorem Down.udsSendRequest (h : s.Down) (request : Option (List UInt8)) (withResponse : UInt8)
    (send : Lwcanerr) : (s.udsSendRequest request withResponse send).2 = s := by
  obtain ⟨-, hr⟩ | ⟨_, -, -, hc, -⟩ := s.udsSendRequest_cases request withResponse send
  · exact hr
  · rw [h.connected] at hc
    cases hc

/-- **A timer that is left over** finds nothing to do. -/
theorem Down.runHandler (h : s.Down) (handler : UdsHandler) (send : Lwcanerr) :
    (s.runHandler cfg handler send).Down := by
  have hcall : (s.callContext (·.error) (.error s.uds.handle .receiveTimeout) none).Down := by
    obtain ⟨-, hd⟩ | ⟨-, hd⟩ := s.callContext_cases (·.error)
      (.error s.uds.handle .receiveTimeout) none
    · rw [hd]
      exact h.congr h.state rfl rfl
    · rw [hd]
      exact h.congr (by simp) (by simp) (by simp)
  cases handler with
  | connectTry =>
    refine h.congr (by simpa [Client.runHandler] using h.state) (by simp [Client.runHandler]) ?_
    -- whether it sends, gives up or is refused, a client that is down stays so
    obtain ⟨-, -, hd⟩ | ⟨-, -, hd⟩ | ⟨-, hd⟩ := s.connectTry_cases send
    · simp [Client.runHandler, hd]
    · simp [Client.runHandler, hd]
    · simp [Client.runHandler, hd]
  | s3TimerHandler =>
    simp only [Client.runHandler, s3TimerHandler]
    split
    · rw [h.udsSendRequest]
      exact h
    · exact h.congr h.state h.connected.symm rfl
  | p2TimerHandler =>
    simp only [Client.runHandler, p2TimerHandler, h.state]
    exact hcall
  | p2StarTimerHandler => exact hcall
  | other n => exact h

/-- **Every event but `uds_client_init`** leaves the client down: connects and requests are refused,
and what ISO-TP reports is ignored. -/
theorem Down.next {e : Event} (h : s.Down) (hi : e.isInit = false) : (s.next cfg e).Down := by
  cases e with
  | call c =>
    cases c with
    | udsClientInit isotpPcb =>
      cases isotpPcb with
      | none => exact h
      | some p => cases hi
    | udsClientDeinit =>
      obtain ⟨hne, -⟩ | ⟨-, -, hd⟩ := s.udsClientDeinit_cases
      · exact absurd h.state hne
      · simp only [Client.next, Client.call, hd]
        exact h.congr rfl h.connected.symm h.pcb.symm
    -- without a pcb there is nothing to send with
    | udsClientConnect cb arg bind send =>
      have hr : (s.udsClientConnect cfg cb arg bind send).2 = s := by
        simp [udsClientConnect, isotpAnswer, h.pcb, h.state]
      simp only [Client.next, Client.call, hr]
      exact h
    | udsClientDisconnect =>
      obtain ⟨-, hd⟩ | ⟨hc, -⟩ := s.udsClientDisconnect_cases cfg
      · simp only [Client.next, Client.call, hd]
        exact h
      · rw [h.connected] at hc
        cases hc
    | udsSetContext context handle =>
      simp only [Client.next, Client.call, udsSetContext, h.state]
      exact h.congr rfl rfl rfl
    | udsSetP2Timer time =>
      simp only [Client.next, Client.call, udsSetP2Timer, h.state]
      exact h.congr rfl rfl rfl
    | udsSetP2StarTimer time =>
      simp only [Client.next, Client.call, udsSetP2StarTimer, h.state]
      exact h.congr rfl rfl rfl
    | udsSendRequest request withResponse send =>
      simp only [Client.next, Client.call, h.udsSendRequest]
      exact h
    | lwcanTimeout ms m arg => exact h.congr h.state rfl rfl
    | lwcanUntimeout m arg => exact h.congr h.state rfl rfl
  | receive p buffer b =>
    simp only [Client.next, Client.udsReceive, if_pos h.state]
    exact h.congr (by simpa using h.state) (by simp) (by simp)
  | receiveFf p =>
    simp only [Client.next, udsReceiveFf, if_pos h.state]
    exact h
  | sent p =>
    simp only [Client.next, Client.udsSent, h.state]
    exact h
  | error p err =>
    simp only [Client.next, udsError, h.state]
    exact h
  | timer send =>
    simp only [Client.next]
    split
    · exact h
    · next e t' _ =>
      have hd : Down { s with timeouts := t' } := h.congr h.state rfl rfl
      exact hd.runHandler e.handler send
  | ret =>
    simp only [Client.next]
    split
    · exact h
    · exact h.congr (by simp) (by simp) (by simp)
  | tick ms => exact h.congr h.state rfl rfl

/-- A client that was deinitialised, and without a timer -/
structure Dead (s : Client) : Prop where
  state : s.uds.state = .idle
  connected : s.uds.isConnected = false
  pcb : s.uds.isotpPcb = none
  timers : s.NoClientTimer

/-- **Every step but `uds_client_init`** leaves the client dead: an idle client arms none of its
timers. -/
theorem Dead.step {e : Event} (h : s.Dead) (hi : e.isInit = false)
    (hst : step cfg s e = some s') : s'.Dead := by
  obtain ⟨-, rfl⟩ := step_eq_some.mp hst
  have hdown : (s.next cfg e).Down := Down.next ⟨h.state, h.connected, h.pcb⟩ hi
  refine ⟨hdown.state, hdown.connected, hdown.pcb, ?_⟩
  refine timeouts_of_next (P := fun t => ∀ e' ∈ t.nextTimeout, ∃ n, e'.handler = .other n)
    ?_ ?_ ?_ h.timers
  · intro t ms hd a hm ht e' he
    obtain he | ⟨hh, -⟩ := Timeouts.mem_lwcanTimeout he
    · exact ht e' he
    · obtain ⟨n, hn⟩ | ⟨-, hbusy, -⟩ := hm
      · exact ⟨n, hh.trans hn⟩
      · exact absurd h.state hbusy
  · exact fun t hd a _ ht e' he => ht e' (Timeouts.mem_of_mem_lwcanUntimeout he)
  · intro _ _ e' t' he x hx
    exact h.timers x ((Timeouts.expire_eq_some he).1 ▸ List.mem_cons_of_mem _ hx)

/-- Deinitialising a tidy client leaves no timer of the client. -/
theorem Tidy.dead (h : s.Tidy) (hok : s.udsClientDeinit.1 = .ok) : s.udsClientDeinit.2.Dead := by
  obtain ⟨-, hd⟩ | ⟨hs, -, hd⟩ := s.udsClientDeinit_cases
  · rw [hd] at hok
    cases hok
  · have hcl := h.clear_of_idle hs
    have hs3 : own 0 .s3TimerHandler s.udsClientDeinit.2.timeouts = 0 := by
      rw [hd]
      cases hc : s.uds.isConnected with
      | false => exact h.s3.connected hc
      | true => exact own_lwcanUntimeout h.timers h.s3.le firstOwn_zero (by simp)
    have hle : ∀ hd, (∀ k, hd ≠ .other k) → own 0 hd s.udsClientDeinit.2.timeouts ≤
        own 0 hd s.timeouts := fun hd hk => own_call_le .default hk .udsClientDeinit
    have hnone : ∀ hd, own 0 hd s.udsClientDeinit.2.timeouts = 0 →
        ∀ e ∈ s.udsClientDeinit.2.timeouts.nextTimeout, e.handler ≠ hd := fun hd hz e he hh =>
      absurd (own_eq_zero.mp hz e he hh) (Nat.not_lt_zero _)
    have hclear := hcl.congr fun hd hk _ => hle hd hk
    refine ⟨by rw [hd], by rw [hd], by rw [hd], fun e he => ?_⟩
    cases hh : e.handler with
    | connectTry => exact absurd hh (hnone _ hclear.connectTry e he)
    | p2TimerHandler => exact absurd hh (hnone _ hclear.p2 e he)
    | p2StarTimerHandler => exact absurd hh (hnone _ hclear.p2Star e he)
    | s3TimerHandler => exact absurd hh (hnone _ hs3 e he)
    | other n => exact ⟨n, rfl⟩

/-- **Deinitialising is final** after every careful run. -/
theorem deinit_final {cfg : UdsConfig} {es : List Event} {s : Client}
    (hc : RunAlong cfg Careful es) (hr : Run cfg es s) : s.DeinitFinal cfg := by
  intro hok fs t hinit hrun
  have htidy : s.Tidy :=
    Runs.run_inv (fun _ _ _ hi hc hst => hi.step hc hst) Tidy.initial hc hr
  have halong : Runs.Along (step cfg) (fun _ e => e.isInit = false) s.udsClientDeinit.2 fs :=
    Runs.Along.of_forall (fun e he _ => hinit e he) _
  exact (Runs.run_inv (fun _ _ _ hd hi hst => hd.step hi hst) (htidy.dead hok) halong hrun).timers

/-- A connection, a request with its response, and the end of the session -/
def sessionRun : List Event :=
  [.call (.udsClientInit (some 0)), .call (.udsClientConnect (some 1) .null .ok .ok), .sent 0,
    .receive 0 5 ⟨0, 2, fun i => if i = 0 then 0x7E else 0⟩, .ret,
    .call (.udsSendRequest (some [0x10, 1]) 1 .ok), .sent 0,
    .receive 0 6 ⟨0, 2, fun i => if i = 0 then 0x50 else 1⟩]

theorem deinit_final_sessionRun : ∃ s, Run .default sessionRun s ∧ s.DeinitFinal .default := by
  obtain ⟨s, hr, -⟩ := Runs.exists_run (step .default) (powerUp .default) sessionRun
    (fun _ => True) (by decide)
  exact ⟨s, hr, deinit_final (by decide) hr⟩

/-- After a late answer to a connect, deinitialising leaves `connect_try` behind. -/
theorem deinit_leaves_retry :
    ¬∀ (cfg : UdsConfig) (es : List Event) (s : Client), Run cfg es s → s.DeinitFinal cfg := by
  intro h
  obtain ⟨s, hr, hok, hleft⟩ := Runs.exists_run (step .default) (powerUp .default)
    [.call (.udsClientInit (some 0)), .call (.udsSetP2Timer 20),
      .call (.udsClientConnect (some 1) .null .ok .ok), .sent 0, .tick 20, .timer .ok,
      .receive 0 5 ⟨0, 2, fun i => if i = 0 then 0x7E else 0⟩, .ret]
    (fun s => s.udsClientDeinit.1 = .ok ∧ ∃ e ∈ s.udsClientDeinit.2.timeouts.nextTimeout,
      e.handler = .connectTry) (by decide)
  obtain ⟨e, he, hh⟩ := hleft
  obtain ⟨n, hn⟩ := h .default _ s hr hok [] _ (by simp) rfl e he
  rw [hh] at hn
  cases hn

end Client
end Uds
end Lwcan
