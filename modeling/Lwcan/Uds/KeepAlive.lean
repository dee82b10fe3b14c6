import Lwcan.Uds.Steps

/-!
# The keep-alive of a session

With `UDS_KEEP_SESSION` the S3 timer sends a Tester Present whenever nothing else is sent for
`UDS_S3_CLIENT`. Only `uds_sent` arms it, for the Tester Present as for any other request. When it
runs while a request is under way, `uds_send_request` refuses and the handler leaves it at that: the
timer is gone, and comes back only if a request is confirmed later. `Timely` says which steps avoid
this.

* `Alive` — a connected client has the S3 timer pending, or sends a request whose confirmation arms
  it;
* `Alive.step` — timely steps keep it;
* `session_alive` — from a confirmed request to the end of the session, an idle client has the S3
  timer pending.
-/

namespace Lwcan
namespace Uds
namespace Client

variable {cfg : UdsConfig} {s s' : Client}

/-! ### The property -/

/-- The keep-alive timer is pending. -/
def S3Pending (s : Client) : Prop := 0 < own 0 .s3TimerHandler s.timeouts

instance (s : Client) : Decidable s.S3Pending := inferInstanceAs (Decidable (_ < _))

/-- Between events, a connected idle client has the keep-alive timer pending. -/
def KeptAlive (s : Client) : Prop :=
  s.BetweenEvents → s.uds.isConnected = true → s.uds.state = .idle → s.S3Pending

/-- ISO-TP accepts what a timeout handler sends, and the timeout list has room for the keep-alive
timer where `uds_sent` arms it. -/
def Supplied (s : Client) : Event → Prop
  | .timer send => s.isotpAnswer send = .ok
  | .sent _ =>
    s.uds.state = .sendingRequest →
      ((if s.uds.withResponse ≠ 0 then s.timeouts.lwcanTimeout s.now s.uds.p2 .p2TimerHandler .null
        else s.timeouts).lwcanUntimeout .s3TimerHandler .null).slotFree = true
  | _ => True

instance (s : Client) : (e : Event) → Decidable (s.Supplied e)
  | .timer _ => inferInstanceAs (Decidable (_ = _))
  | .sent _ => inferInstanceAs (Decidable (_ → _))
  | .call _ | .receive _ _ _ | .receiveFf _ | .error _ _ | .ret | .tick _ =>
    inferInstanceAs (Decidable True)

/-! ### The steps that go well -/

/-- The last S3 timer runs while the client is idle or sends a request; P2 and P2* do not run while
it sends one without an S3 timer. -/
def TimelyTimeout (s : Client) : List (Timeout UdsHandler Ptr) → Prop
  | [] => True
  | e :: _ =>
    (e.handler = .s3TimerHandler → own 0 .s3TimerHandler s.timeouts = 1 →
        s.uds.state = .idle ∨ s.uds.state = .sendingRequest) ∧
      (e.handler = .p2TimerHandler ∨ e.handler = .p2StarTimerHandler →
        s.uds.state = .sendingRequest → s.S3Pending)

instance (s : Client) : (ts : List (Timeout UdsHandler Ptr)) → Decidable (s.TimelyTimeout ts)
  | [] => inferInstanceAs (Decidable True)
  | _ :: _ => inferInstanceAs (Decidable ((_ → _ → _ ∨ _) ∧ (_ ∨ _ → _ → _)))

/-- While the client sends a request without an S3 timer, nothing but the confirmation comes; the
last S3 timer runs while the client is idle or sends a request. -/
def Timely (s : Client) : Event → Prop
  | .receive _ _ _ | .receiveFf _ | .error _ _ => s.uds.state = .sendingRequest → s.S3Pending
  | .timer _ => s.TimelyTimeout s.timeouts.nextTimeout
  | _ => True

instance (s : Client) : (e : Event) → Decidable (s.Timely e)
  | .receive _ _ _ | .receiveFf _ | .error _ _ => inferInstanceAs (Decidable (_ → _))
  | .timer _ => inferInstanceAs (Decidable (s.TimelyTimeout _))
  | .call _ | .sent _ | .ret | .tick _ => inferInstanceAs (Decidable True)

/-! ### Every timely step keeps the session alive -/

/-- **The invariant.** While the client is connected, the S3 timer is pending, or a request is sent
whose confirmation arms it. -/
def Alive (s : Client) : Prop :=
  s.uds.isConnected = true → s.S3Pending ∨ (s.uds.state = .sendingRequest ∧ s.stack = [])

/-- A confirmed request arms the timer. -/
theorem s3Pending_udsSent {p : Nat} (hs : s.uds.state = .sendingRequest)
    (hsup : s.Supplied (.sent p)) : (s.udsSent cfg).S3Pending := by
  have hroom := hsup hs
  -- `uds_sent` arms P2 if a response is awaited, cancels S3 and arms it again
  have hsent : (s.udsSent cfg).timeouts =
      ((if s.uds.withResponse ≠ 0 then s.timeouts.lwcanTimeout s.now s.uds.p2 .p2TimerHandler .null
        else s.timeouts).lwcanUntimeout .s3TimerHandler .null).lwcanTimeout s.now cfg.s3Client
          .s3TimerHandler .null := by
    unfold udsSent
    rw [if_neg (by simp [hs]), if_neg (by simp [hs])]
    dsimp only
    split <;> rfl
  unfold S3Pending
  rw [hsent]
  generalize
    (if s.uds.withResponse ≠ 0 then _ else s.timeouts).lwcanUntimeout .s3TimerHandler .null =
    t at hroom
  -- there is room for the entry, so it is in the list
  obtain ⟨hno, -⟩ | ⟨mem, pool, -, -, hc⟩ := t.lwcanTimeout_cases s.now cfg.s3Client
    UdsHandler.s3TimerHandler .null
  · rw [hno] at hroom
    cases hroom
  · rw [hc]
    unfold own
    rw [(Timeouts.insert_perm _ _).countP_eq, List.countP_cons]
    simp [ownEntry]

/-- **A pending S3 timer stays**, unless it runs or the event cancels it. -/
theorem S3Pending.next (h : s.S3Pending) {e : Event} (hcancel : ¬CancelsS3 e)
    (hexpire : ∀ send, e = .timer send → ∀ e' t', s.timeouts.expire s.now = some (e', t') →
      0 < own 0 .s3TimerHandler t') :
    (s.next cfg e).S3Pending := by
  refine timeouts_of_next (P := fun t => 0 < own 0 .s3TimerHandler t) ?_ ?_ hexpire h
  · exact fun t ms hd a _ ht => lt_of_lt_of_le ht (own_le_lwcanTimeout t 0 s.now ms _ hd a)
  · intro t hd a hne ht
    have hs3 : hd ≠ .s3TimerHandler := fun he => hcancel (hne he)
    rwa [own_lwcanUntimeout_of_ne t 0 a hs3]

/-- A confirmation cancels the timer only where it arms it again. -/
theorem Alive.udsSent (h : s.Alive) {p : Nat} (hsup : s.Supplied (.sent p)) :
    (s.udsSent cfg).Alive := by
  by_cases hs : s.uds.state = .sendingRequest
  · exact fun _ => Or.inl (s3Pending_udsSent hs hsup)
  · intro hconn
    by_cases hc : s.uds.state = .connecting
    · simp only [Client.udsSent, if_pos hc] at hconn ⊢
      obtain hp | ⟨hs', -⟩ := h hconn
      · exact Or.inl (lt_of_lt_of_le hp (own_le_lwcanTimeout _ _ _ _ _ _ _))
      · exact absurd hs' hs
    · have hsame : s.udsSent cfg = s := by simp [Client.udsSent, hs, hc]
      rw [hsame] at hconn ⊢
      exact h hconn

/-- A disconnect or `uds_client_deinit` that cancels the timer ends the connection. -/
theorem Alive.of_ended (h : s.Alive) (hs : s' = s ∨ s'.uds.isConnected = false) : s'.Alive := by
  obtain rfl | hno := hs
  · exact h
  · intro hconn
    rw [hno] at hconn
    cases hconn

theorem Alive.udsClientDeinit (h : s.Alive) : s.udsClientDeinit.2.Alive := by
  obtain ⟨-, hd⟩ | ⟨-, -, hd⟩ := s.udsClientDeinit_cases
  · exact h.of_ended (Or.inl (by rw [hd]))
  · exact h.of_ended (Or.inr (by rw [hd]))

theorem Alive.udsClientDisconnect (h : s.Alive) : (s.udsClientDisconnect cfg).Alive := by
  obtain ⟨-, hd⟩ | ⟨-, hd⟩ := s.udsClientDisconnect_cases cfg
  · exact h.of_ended (Or.inl hd)
  · exact h.of_ended (Or.inr (by rw [hd]))

theorem Alive.call (h : s.Alive) (hconn : s.uds.isConnected = true) (c : Call) :
    (s.call cfg c).Alive := by
  obtain hp | ⟨hs, hstack⟩ := h hconn
  · -- S3 is pending: it stays so but where the call ends the session
    by_cases hc : CancelsS3 (.call c)
    · cases c with
      | udsClientDeinit => exact h.udsClientDeinit
      | udsClientDisconnect => exact h.udsClientDisconnect
      | _ => exact hc.elim
    · exact fun _ => Or.inl (hp.next (e := .call c) hc (by simp))
  · -- the client sends a request: what acts all the same ends the session or leaves it alone
    cases ha : c.acts with
    | false =>
      rw [call_eq_self cfg (by simp [hs]) ha]
      exact h
    | true =>
      cases c with
      | udsClientInit isotpPcb =>
        cases isotpPcb with
        | none => exact h
        | some p => exact h.of_ended (Or.inr rfl)
      | udsClientDisconnect => exact h.udsClientDisconnect
      | lwcanTimeout ms n arg => exact fun _ => Or.inr ⟨hs, hstack⟩
      | lwcanUntimeout n arg => exact fun _ => Or.inr ⟨hs, hstack⟩
      | _ => cases ha

/-- The timeout that is due. -/
theorem Alive.timer (h : s.Alive) (hk : cfg.keepSession = true) (hconn : s.uds.isConnected = true)
    (hstack : s.stack = []) {send : Lwcanerr} (hsup : s.Supplied (.timer send))
    (ht : s.Timely (.timer send)) : (s.next cfg (.timer send)).Alive := by
  cases he : s.timeouts.expire s.now with
  | none =>
    have hsame : s.next cfg (.timer send) = s := by simp only [Client.next, he]
    rw [hsame]
    exact h
  | some entry =>
    obtain ⟨e, t'⟩ := entry
    have hown := own_expire (n := 0) (h := .s3TimerHandler) he
    have hlist : s.timeouts.nextTimeout = e :: t'.nextTimeout := (Timeouts.expire_eq_some he).1
    unfold Timely TimelyTimeout at ht
    rw [hlist] at ht
    -- where an S3 timer is left, it stays; otherwise the client sends a request, or starts to
    by_cases hleft : 0 < own 0 .s3TimerHandler t'
    · refine fun _ => Or.inl (S3Pending.next ?_ (by simp [CancelsS3]) ?_)
      · unfold S3Pending
        omega
      · intro send' _ e' t'' he'
        rw [he] at he'
        cases he'
        exact hleft
    · have hsend : s.uds.state = .idle ∧ e.handler = .s3TimerHandler ∨
          s.uds.state = .sendingRequest := by
        obtain hp | ⟨hs, -⟩ := h hconn
        · by_cases hs3 : e.handler = .s3TimerHandler
          · -- S3 itself runs, and it was the only one: then it is due in time
            have hone : own 0 .s3TimerHandler s.timeouts = 1 := by
              simp only [ownEntry, hs3] at hown
              simpa [Nat.eq_zero_of_not_pos hleft] using hown
            obtain hs | hs := ht.1 hs3 hone
            · exact Or.inl ⟨hs, hs3⟩
            · exact Or.inr hs
          · simp only [S3Pending, hown, ownEntry, hs3] at hp
            simp [Nat.eq_zero_of_not_pos hleft] at hp
        · exact Or.inr hs
      refine fun _ => Or.inr ?_
      simp only [Client.next, he]
      obtain ⟨hs, hs3⟩ | hs := hsend
      · rw [hs3]
        -- an idle client keeps the session alive with a Tester Present
        simp [runHandler, Client.s3TimerHandler, hk, udsSendRequest, hconn, hs, hstack]
      · cases hh : e.handler with
        | connectTry =>
          obtain ⟨hno, -⟩ | ⟨-, hr, -⟩ | ⟨-, hc⟩ := connectTry_cases { s with timeouts := t' } send
          · rw [hconn] at hno
            cases hno
          · exact absurd hsup hr
          · simp only [runHandler, hc]
            exact ⟨hs, hstack⟩
        | s3TimerHandler =>
          simp [runHandler, Client.s3TimerHandler, hk, udsSendRequest, hconn, hs, hstack]
        | p2TimerHandler =>
          -- P2 and P2* would end the request that is on its way; they are not due in time
          have hp := ht.2 (Or.inl hh) hs
          simp [S3Pending, hown, ownEntry, hh, Nat.eq_zero_of_not_pos hleft] at hp
        | p2StarTimerHandler =>
          have hp := ht.2 (Or.inr hh) hs
          simp [S3Pending, hown, ownEntry, hh, Nat.eq_zero_of_not_pos hleft] at hp
        | other n => exact ⟨hs, hstack⟩

/-- **One step** of a connected session. -/
theorem Alive.step (hk : cfg.keepSession = true) (h : s.Alive) {e : Event}
    (hc : s.uds.isConnected = true ∧ s.Supplied e ∧ s.Timely e) (hst : step cfg s e = some s') :
    s'.Alive := by
  obtain ⟨hconn, hsup, ht⟩ := hc
  obtain ⟨hen, rfl⟩ := step_eq_some.mp hst
  -- a message, a first frame and an error find the timer pending
  have hpending : (s.uds.state = .sendingRequest → s.S3Pending) → s.S3Pending := fun hs =>
    (h hconn).elim id fun hsend => hs hsend.1
  cases e with
  | call c => exact h.call hconn c
  | receive p buffer b => exact fun _ => Or.inl ((hpending ht).next (by simp [CancelsS3]) (by simp))
  | receiveFf p => exact fun _ => Or.inl ((hpending ht).next (by simp [CancelsS3]) (by simp))
  | sent p => exact h.udsSent hsup
  | error p err => exact fun _ => Or.inl ((hpending ht).next (by simp [CancelsS3]) (by simp))
  | timer send => exact h.timer hk hconn (List.isEmpty_iff.mp hen.1) hsup ht
  | ret =>
    -- a callback that returns is running, so the client is not on its way with a request
    obtain hp | ⟨-, hstack⟩ := h hconn
    · exact fun _ => Or.inl (hp.next (by simp [CancelsS3]) (by simp))
    · exact absurd (List.isEmpty_iff.mpr hstack) hen
  | tick ms => exact fun _ => h hconn

/-! ### The keep-alive is not lost -/

/-- **The keep-alive is not lost**: after a confirmed request, as long as the session lasts and
every step is timely, a connected idle client has the S3 timer pending between events. -/
theorem session_alive {cfg : UdsConfig} (hk : cfg.keepSession = true) {es fs : List Event} {p : Nat}
    {s t : Client} (hs : Run cfg es s) (hreq : s.uds.state = .sendingRequest)
    (hsession : Runs.Along (step cfg)
      (fun s e => s.uds.isConnected = true ∧ s.Supplied e ∧ s.Timely e) s (.sent p :: fs))
    (ht : Run cfg (es ++ .sent p :: fs) t) : t.KeptAlive := by
  obtain ⟨s₁, hs₁, hrun⟩ := Runs.run_append.mp ht
  obtain rfl : s = s₁ := Option.some.inj (hs.symm.trans hs₁)
  obtain ⟨s₂, hsent, hrun⟩ := Runs.run_cons.mp hrun
  obtain ⟨-, rfl⟩ := step_eq_some.mp hsent
  -- the confirmation arms S3, and from there on it is kept
  have halive : (s.udsSent cfg).Alive := fun _ => Or.inl (s3Pending_udsSent hreq hsession.1.2.1)
  have hend : t.Alive :=
    Runs.run_inv (fun _ _ _ hi hc hst => hi.step hk hc hst) halive (hsession.2 _ hsent) hrun
  intro _ hconn hidle
  obtain hp | ⟨hsend, -⟩ := hend hconn
  · exact hp
  · rw [hidle] at hsend
    cases hsend

/-- Up to the first request of a session: the server grants itself more time than S3 lasts. -/
def requestRun : List Event :=
  [.call (.udsClientInit (some 0)), .call (.udsSetP2StarTimer 10000),
    .call (.udsClientConnect (some 1) .null .ok .ok), .sent 0,
    .receive 0 5 ⟨0, 2, fun i => if i = 0 then 0x7E else 0⟩, .ret,
    .call (.udsSendRequest (some [0x10, 1]) 1 .ok)]

/-- The request is confirmed and answered, and the session is kept alive once. -/
def keptRun : List Event :=
  [.receive 0 6 ⟨0, 2, fun i => if i = 0 then 0x50 else 1⟩, .tick 9000, .timer .ok, .sent 0]

theorem session_alive_keptRun :
    ∃ t, Run .default (requestRun ++ .sent 0 :: keptRun) t ∧ t.KeptAlive := by
  obtain ⟨s, hs, hreq, hsession⟩ := Runs.exists_run (step .default) (powerUp .default) requestRun
    (fun s => s.uds.state = .sendingRequest ∧ Runs.Along (step .default)
      (fun s e => s.uds.isConnected = true ∧ s.Supplied e ∧ s.Timely e) s (.sent 0 :: keptRun))
    (by decide)
  obtain ⟨t, ht, -⟩ := Runs.exists_run (step .default) (powerUp .default)
    (requestRun ++ .sent 0 :: keptRun) (fun _ => True) (by decide)
  exact ⟨t, ht, session_alive rfl hs hreq hsession ht⟩

/-- The server asks for patience, S3 runs out meanwhile, and the final answer comes: the client is
idle and nothing keeps the session alive. -/
theorem session_expires :
    ¬∀ (cfg : UdsConfig) (es fs : List Event) (p : Nat) (s t : Client), cfg.keepSession = true →
      Run cfg es s → s.uds.state = .sendingRequest →
      Runs.Along (step cfg) (fun s e => s.uds.isConnected = true ∧ s.Supplied e) s (.sent p :: fs) →
      Run cfg (es ++ .sent p :: fs) t → t.KeptAlive := by
  intro h
  -- the server asks for more time, and takes longer than S3
  let fs : List Event :=
    [.receive 0 6 ⟨0, 3, fun i => if i = 0 then 0x7F else if i = 1 then 0x10 else 0x78⟩,
      .tick 9000, .timer .ok, .receive 0 7 ⟨0, 2, fun i => if i = 0 then 0x50 else 1⟩]
  obtain ⟨s, hs, hreq, hsession⟩ := Runs.exists_run (step .default) (powerUp .default) requestRun
    (fun s => s.uds.state = .sendingRequest ∧ Runs.Along (step .default)
      (fun s e => s.uds.isConnected = true ∧ s.Supplied e) s (.sent 0 :: fs)) (by decide)
  obtain ⟨t, ht, hstack, hconn, hidle, hnone⟩ := Runs.exists_run (step .default) (powerUp .default)
    (requestRun ++ .sent 0 :: fs)
    (fun t => t.BetweenEvents ∧ t.uds.isConnected = true ∧ t.uds.state = .idle ∧ ¬t.S3Pending)
    (by decide)
  exact hnone (h .default requestRun fs 0 s t rfl hs hreq hsession ht hstack hconn hidle)

end Client
end Uds
end Lwcan
