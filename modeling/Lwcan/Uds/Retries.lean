import Lwcan.Uds.Steps

/-!
# How often a connect is tried

`uds_client_connect` fills `connect_try_num`, and each run of `connect_try` takes one off, until
none is left and `connect_cb` is called. That last test also asks for `is_connected` to be clear:
after a connect on top of a connection that is still marked, `connect_try` never stops, and the
eight-bit counter wraps.

* `tries` — the Tester Presents in the log since the last connect that was accepted;
* `Bounded` — these and the tries that are left are no more than `UDS_CONNECT_RETRY_NUM`, so that
  the counter has not wrapped;
* `Attempting.exists_tries` — on top of a connection an attempt can go on for as many tries as one
  likes;
* `retries_bounded_iff` — along a run without answers every state is bounded if and only if
  `connect_try` never runs without a try left while `is_connected` is set; it never does so after a
  connect with `is_connected` clear, and after one with `is_connected` set some run exceeds every
  bound.
-/

namespace Lwcan
namespace Uds

/-- The server answers. -/
def Event.isAnswer : Event → Bool
  | .receive _ _ _ | .receiveFf _ => true
  | _ => false

/-- A call of `connect_cb` -/
def Note.isConnectCb : Note → Bool
  | .connectCb _ _ _ => true
  | _ => false

/-! ### Counting the tries -/

/-- A connect starts the count anew, a Tester Present of `connect_try` adds one. -/
def recordTry (tries : Nat) : Note → Nat
  | .connect _ _ _ => 0
  | .testerPresent _ _ => tries + 1
  | _ => tries

/-- How many Tester Presents `connect_try` has sent since the last connect -/
def tries (log : List Note) : Nat := log.foldl recordTry 0

@[simp] theorem tries_append (log notes : List Note) :
    tries (log ++ notes) = notes.foldl recordTry (tries log) := by
  simp [tries]

namespace Client

variable {cfg : UdsConfig} {s s' : Client}

@[simp] theorem tries_isotpReceived (s : Client) (r : Option (Nat × Nat)) :
    tries (s.isotpReceived r).log = tries s.log := by
  cases r with
  | none => rfl
  | some r => simp [isotpReceived, recordTry]

@[simp] theorem tries_finish (s : Client) (r : Option (Nat × Nat)) :
    tries (s.finish r).log = tries s.log := by
  simp [finish]

/-! ### The property -/

/-- **The tries are bounded**: with those that are left they are no more than
`UDS_CONNECT_RETRY_NUM`, as `uint8_t` holds it. -/
def Bounded (cfg : UdsConfig) (s : Client) : Prop :=
  tries s.log + s.uds.connectTryNum ≤ u8 cfg.connectRetryNum

instance (cfg : UdsConfig) (s : Client) : Decidable (s.Bounded cfg) :=
  inferInstanceAs (Decidable (_ ≤ _))

/-- The event leads to a bounded state. -/
def LeadsToBounded (cfg : UdsConfig) (s : Client) (e : Event) : Prop :=
  (s.next cfg e).Bounded cfg

instance (cfg : UdsConfig) (s : Client) (e : Event) : Decidable (s.LeadsToBounded cfg e) :=
  inferInstanceAs (Decidable (Bounded _ _))

/-! ### The steps that go well -/

/-- `connect_try`, with `n` tries left, does not go past its stop condition on account of
`is_connected`. -/
def Stops (s : Client) (n : Nat) : Prop := s.uds.isConnected = true → n ≠ 0

instance (s : Client) (n : Nat) : Decidable (s.Stops n) := inferInstanceAs (Decidable (_ → _))

/-- The timeout that is due is not a `connect_try` that fails to stop. -/
def CountedTimeout (s : Client) : List (Timeout UdsHandler Ptr) → Prop
  | [] => True
  | e :: _ => e.handler = .connectTry → s.Stops s.uds.connectTryNum

instance (s : Client) : (ts : List (Timeout UdsHandler Ptr)) → Decidable (s.CountedTimeout ts)
  | [] => inferInstanceAs (Decidable True)
  | _ :: _ => inferInstanceAs (Decidable (_ → _))

/-- `connect_try` does not run without a try left while `is_connected` is set, neither as a timeout
nor from `uds_client_connect`. -/
def Counted (cfg : UdsConfig) (s : Client) : Event → Prop
  | .call (.udsClientConnect cb arg bind send) =>
    (s.udsClientConnect cfg cb arg bind send).1 = .ok → s.Stops (u8 cfg.connectRetryNum)
  | .timer _ => s.CountedTimeout s.timeouts.nextTimeout
  | _ => True

instance (cfg : UdsConfig) (s : Client) : (e : Event) → Decidable (s.Counted cfg e)
  | .call (.udsClientConnect _ _ _ _) => inferInstanceAs (Decidable (_ → _))
  | .timer _ => inferInstanceAs (Decidable (s.CountedTimeout _))
  | .call (.udsClientInit _) | .call .udsClientDeinit | .call .udsClientDisconnect
  | .call (.udsSetContext _ _) | .call (.udsSetP2Timer _) | .call (.udsSetP2StarTimer _)
  | .call (.udsSendRequest _ _ _) | .call (.lwcanTimeout _ _ _) | .call (.lwcanUntimeout _ _)
  | .receive _ _ _ | .receiveFf _ | .sent _ | .error _ _ | .ret | .tick _ =>
    inferInstanceAs (Decidable True)

/-! ### One step -/

theorem u8_le (n : Nat) : u8 n ≤ 255 := by
  unfold u8
  omega

/-- One try less, or the counter wraps. -/
theorem u8_pred (n : Nat) (hn : n ≤ 255) :
    u8 ((n : Int) - 1) = if n = 0 then 255 else n - 1 := by
  unfold u8
  split <;> omega

/-- **`connect_try`** keeps the tries bounded exactly where it stops. -/
theorem bounded_connectTry (h : s.Bounded cfg) (send : Lwcanerr) :
    (s.connectTry send).Bounded cfg ↔ s.Stops s.uds.connectTryNum := by
  have hle := u8_le cfg.connectRetryNum
  have hnum : s.uds.connectTryNum ≤ 255 := by
    unfold Bounded at h
    omega
  have hpred := u8_pred s.uds.connectTryNum hnum
  -- a client that is not connected stops by itself at zero
  have hstops : s.uds.isConnected = false → s.Stops s.uds.connectTryNum := by
    intro hc hc'
    rw [hc] at hc'
    cases hc'
  -- a Tester Present costs one try, or the counter wraps to more than can be left
  have hsent : ¬(s.uds.isConnected = false ∧ s.uds.connectTryNum = 0) →
      (tries s.log + 1 + u8 ((s.uds.connectTryNum : Int) - 1) ≤ u8 cfg.connectRetryNum ↔
        s.Stops s.uds.connectTryNum) := by
    intro hno
    rw [hpred]
    unfold Bounded at h
    unfold Stops
    split
    · next hz =>
      have hc : s.uds.isConnected = true := by
        by_contra hc
        exact hno ⟨by simpa using hc, hz⟩
      simp only [hc, hz, forall_const, ne_eq, not_true_eq_false, iff_false]
      omega
    · next hz =>
      simp only [hz, ne_eq, not_false_eq_true, implies_true, iff_true]
      omega
  -- `connect_try` gives up without a Tester Present, or sends one and may give up after it
  obtain ⟨hc, hz, he⟩ | ⟨hno, -, he⟩ | ⟨hno, he⟩ := s.connectTry_cases send
  · rw [he]
    refine iff_of_true ?_ (hstops hc)
    simpa [Bounded, recordTry] using h
  · rw [he]
    simpa [Bounded, recordTry] using hsent hno
  · rw [he]
    simpa [Bounded, recordTry] using hsent fun hz => hno (Or.inl hz)

/-- A connect that is accepted starts with every try left. -/
theorem bounded_udsClientConnect {cb : Option Nat} {arg : Ptr} {bind send : Lwcanerr}
    (hacc : (s.udsClientConnect cfg cb arg bind send).1 = .ok) :
    (s.udsClientConnect cfg cb arg bind send).2.Bounded cfg ↔
      s.Stops (u8 cfg.connectRetryNum) := by
  obtain ⟨hno, -⟩ | ⟨-, he⟩ := s.udsClientConnect_cases cfg cb arg bind send
  · exact absurd hacc hno
  · rw [he]
    refine (bounded_connectTry ?_ send).trans Iff.rfl
    simp [Bounded, recordTry]

/-- A step that sends no Tester Present and gives no try back -/
theorem Bounded.congr (h : s.Bounded cfg) (hlog : tries s'.log = tries s.log)
    (hnum : s'.uds.connectTryNum = s.uds.connectTryNum ∨ s'.uds.connectTryNum = 0) :
    s'.Bounded cfg := by
  unfold Bounded at h ⊢
  omega

theorem Bounded.callContext (h : s.Bounded cfg) {callback : UdsContext → Bool} {n : Note}
    (hn : ∀ k, recordTry k n = k) {r : Option (Nat × Nat)} :
    (s.callContext callback n r).Bounded cfg := by
  obtain ⟨-, he⟩ | ⟨-, he⟩ := s.callContext_cases callback n r
  · rw [he]
    exact h.congr (by simp [hn]) (Or.inl rfl)
  · rw [he]
    exact h.congr (by simp) (Or.inl (by simp))

/-- A call that is not a connect -/
theorem Bounded.udsSendRequest (h : s.Bounded cfg) {request : Option (List UInt8)}
    {withResponse : UInt8} {ret : Lwcanerr} :
    (s.udsSendRequest request withResponse ret).2.Bounded cfg := by
  obtain ⟨-, he⟩ | ⟨data, -, -, -, -, he⟩ := s.udsSendRequest_cases request withResponse ret
  · rw [he]
    exact h
  · rw [he]
    exact h.congr (by simp [recordTry]) (Or.inl rfl)

/-- **The calls.** -/
theorem bounded_call (h : s.Bounded cfg) (c : Call) :
    (s.call cfg c).Bounded cfg ↔ s.Counted cfg (.call c) := by
  cases c with
  | udsClientConnect cb arg bind send =>
    -- the only call that sends Tester Presents of an attempt; the others keep the counts
    by_cases hacc : (s.udsClientConnect cfg cb arg bind send).1 = .ok
    · exact (bounded_udsClientConnect hacc).trans ⟨fun hs _ => hs, fun hs => hs hacc⟩
    · obtain ⟨-, he⟩ | ⟨-, he⟩ := s.udsClientConnect_cases cfg cb arg bind send
      · refine iff_of_true ?_ fun hok => absurd hok hacc
        simpa only [call, he] using h
      · exact absurd (by rw [he]) hacc
  | udsClientInit isotpPcb =>
    refine iff_of_true ?_ True.intro
    cases isotpPcb with
    | none => exact h
    | some p => exact h.congr rfl (Or.inr rfl)
  | udsClientDeinit =>
    refine iff_of_true ?_ True.intro
    obtain ⟨-, he⟩ | ⟨-, -, he⟩ := s.udsClientDeinit_cases
    · simpa only [call, he] using h
    · simp only [call, he]
      exact h.congr rfl (Or.inr rfl)
  | udsClientDisconnect =>
    refine iff_of_true ?_ True.intro
    obtain ⟨-, he⟩ | ⟨-, he⟩ := s.udsClientDisconnect_cases cfg
    · simpa only [call, he] using h
    · simp only [call, he]
      exact h.congr (by simp [recordTry]) (Or.inl rfl)
  | udsSetContext context handle =>
    refine iff_of_true ?_ True.intro
    simp only [call, udsSetContext]
    split <;> exact h
  | udsSetP2Timer time =>
    refine iff_of_true ?_ True.intro
    simp only [call, udsSetP2Timer]
    split <;> exact h
  | udsSetP2StarTimer time =>
    refine iff_of_true ?_ True.intro
    simp only [call, udsSetP2StarTimer]
    split <;> exact h
  | udsSendRequest request withResponse send => exact iff_of_true h.udsSendRequest True.intro
  | lwcanTimeout ms n arg => exact iff_of_true h True.intro
  | lwcanUntimeout n arg => exact iff_of_true h True.intro

/-- **The timeout that is due.** -/
theorem bounded_timer (h : s.Bounded cfg) {send : Lwcanerr}
    (hen : (s.timeouts.expire s.now).isSome) :
    (s.next cfg (.timer send)).Bounded cfg ↔ s.Counted cfg (.timer send) := by
  obtain ⟨⟨e, t'⟩, he⟩ := Option.isSome_iff_exists.mp hen
  have hlist : s.timeouts.nextTimeout = e :: t'.nextTimeout := (Timeouts.expire_eq_some he).1
  -- the entry that is due leaves the list, and no count depends on the list
  have hu : Bounded cfg { s with timeouts := t' } := h
  simp only [Counted, hlist, CountedTimeout, next, he]
  cases hh : e.handler with
  | connectTry =>
    simp only [runHandler, forall_const]
    -- a retry counts one try; no other handler does
    exact bounded_connectTry hu send
  | s3TimerHandler =>
    simp only [runHandler, s3TimerHandler]
    refine iff_of_true ?_ (by simp)
    split
    · exact hu.udsSendRequest
    · exact h
  | p2TimerHandler =>
    simp only [runHandler, p2TimerHandler]
    refine iff_of_true ?_ (by simp)
    split
    · exact h
    · exact hu.callContext fun _ => rfl
  | p2StarTimerHandler => exact iff_of_true (hu.callContext fun _ => rfl) (by simp)
  | other n => exact iff_of_true h (by simp)

/-- **One step** without an answer. -/
theorem leadsToBounded_iff (h : s.Bounded cfg) {e : Event} (hq : e.isAnswer = false)
    (hst : step cfg s e = some s') : s.LeadsToBounded cfg e ↔ s.Counted cfg e := by
  obtain ⟨hen, -⟩ := step_eq_some.mp hst
  unfold LeadsToBounded
  cases e with
  | call c => exact bounded_call h c
  | receive p buffer b => cases hq
  | receiveFf p => cases hq
  | sent p =>
    refine iff_of_true ?_ True.intro
    simp only [next, udsSent]
    split
    · exact h
    split
    · exact h
    · split <;> exact h
  | error p err =>
    refine iff_of_true ?_ True.intro
    simp only [next, udsError]
    split
    · exact h
    split
    · exact h
    · -- an error outside an attempt ends the request
      have hu : s.untimeoutResponse.Bounded cfg := h.congr (by simp) (Or.inl (by simp))
      exact hu.callContext fun _ => rfl
  | timer send => exact bounded_timer h hen.2
  | ret =>
    refine iff_of_true ?_ True.intro
    simp only [next]
    split
    · exact h
    · exact h.congr (by simp) (Or.inl (by simp))
  | tick ms => exact iff_of_true h True.intro

/-! ### Without an answer the client does not become connected -/

theorem isConnected_callContext (callback : UdsContext → Bool) (n : Note) (r : Option (Nat × Nat)) :
    (s.callContext callback n r).uds.isConnected = s.uds.isConnected := by
  obtain ⟨-, he⟩ | ⟨-, he⟩ := s.callContext_cases callback n r <;> simp [he]

theorem isConnected_udsSendRequest (request : Option (List UInt8)) (withResponse : UInt8)
    (ret : Lwcanerr) :
    (s.udsSendRequest request withResponse ret).2.uds.isConnected = s.uds.isConnected := by
  obtain ⟨-, he⟩ | ⟨data, -, -, -, -, he⟩ := s.udsSendRequest_cases request withResponse ret <;>
    simp [he]

theorem isConnected_call (h : s.uds.isConnected = false) (c : Call) :
    (s.call cfg c).uds.isConnected = false := by
  cases c with
  | udsClientInit isotpPcb => cases isotpPcb <;> simp [call, udsClientInit, h]
  | udsClientDeinit =>
    obtain ⟨-, he⟩ | ⟨-, -, he⟩ := s.udsClientDeinit_cases <;> simp [call, he, h]
  | udsClientConnect cb arg bind send =>
    -- a connect does not touch the flag: a second one finds it set
    obtain ⟨-, he⟩ | ⟨-, he⟩ := s.udsClientConnect_cases cfg cb arg bind send <;>
      simp [call, he, h]
  | udsClientDisconnect =>
    obtain ⟨-, he⟩ | ⟨-, he⟩ := s.udsClientDisconnect_cases cfg <;> simp [call, he, h]
  | udsSetContext context handle =>
    simp only [call, udsSetContext]
    split <;> exact h
  | udsSetP2Timer time =>
    simp only [call, udsSetP2Timer]
    split <;> exact h
  | udsSetP2StarTimer time =>
    simp only [call, udsSetP2StarTimer]
    split <;> exact h
  | udsSendRequest request withResponse send =>
    exact (isConnected_udsSendRequest request withResponse send).trans h
  | lwcanTimeout ms n arg => exact h
  | lwcanUntimeout n arg => exact h

/-- Only a positive answer sets `is_connected`. -/
theorem isConnected_next (h : s.uds.isConnected = false) {e : Event} (hq : e.isAnswer = false) :
    (s.next cfg e).uds.isConnected = false := by
  cases e with
  | call c => exact isConnected_call h c
  -- only an answer connects, and none comes
  | receive p buffer b => cases hq
  | receiveFf p => cases hq
  | sent p =>
    simp only [next, udsSent]
    split
    · exact h
    split
    · exact h
    · split <;> exact h
  | error p err =>
    simp only [next, udsError]
    split
    · exact h
    split
    · exact h
    · rw [isConnected_callContext]
      simpa using h
  | timer send =>
    simp only [next]
    split
    · exact h
    · next e t' he =>
      cases e.handler with
      | connectTry => exact (connectTry_isConnected _ _).trans h
      | s3TimerHandler =>
        simp only [runHandler, s3TimerHandler]
        split
        · exact (isConnected_udsSendRequest _ _ _).trans h
        · rfl
      | p2TimerHandler =>
        simp only [runHandler, p2TimerHandler]
        split
        · exact h
        · exact (isConnected_callContext _ _ _).trans h
      | p2StarTimerHandler => exact (isConnected_callContext _ _ _).trans h
      | other n => exact h
  | ret =>
    simp only [next]
    split
    · exact h
    · simpa using h
  | tick ms => exact h

theorem counted_of_disconnected (h : s.uds.isConnected = false) (e : Event) : s.Counted cfg e := by
  have hstops : ∀ n, s.Stops n := by
    intro n hc
    rw [h] at hc
    cases hc
  cases e with
  | call c =>
    cases c with
    | udsClientConnect cb arg bind send => exact fun _ => hstops _
    | _ => trivial
  | timer send =>
    change s.CountedTimeout s.timeouts.nextTimeout
    cases s.timeouts.nextTimeout with
    | nil => trivial
    | cons e l => exact fun _ => hstops _
  | _ => trivial

/-! ### An attempt that never stops -/

/-- Nothing hinders an attempt that starts here: no callback is running, a timer chunk is free, the
pcb is one that the client has created, and no timer of an earlier request is left that would end
the attempt or the connection. -/
structure Unhindered (cfg : UdsConfig) (s : Client) : Prop where
  between : s.BetweenEvents
  slot : s.timeouts.slotFree
  pcb : ∃ p ∈ s.pcbs, s.uds.isotpPcb = some p
  timers : ∀ e ∈ s.timeouts.nextTimeout,
    e.handler ≠ .p2StarTimerHandler ∧ (e.handler = .s3TimerHandler → cfg.keepSession = true)

/-- An attempt is under way on top of a connection. -/
structure Attempting (cfg : UdsConfig) (s : Client) : Prop where
  between : s.BetweenEvents
  pcb : ∃ p ∈ s.pcbs, s.uds.isotpPcb = some p
  timers : ∀ e ∈ s.timeouts.nextTimeout,
    e.handler ≠ .p2StarTimerHandler ∧ (e.handler = .s3TimerHandler → cfg.keepSession = true)
  slots : Timeouts.SlotsOk s.timeouts
  state : s.uds.state = .connecting
  connected : s.uds.isConnected = true

namespace Attempting

/-- The list may lose entries, and the clock may move. -/
theorem congr (h : Attempting cfg s) {t : Timeouts UdsHandler Ptr} {now : Nat}
    (ht : ∀ e ∈ t.nextTimeout, e ∈ s.timeouts.nextTimeout) (hslots : Timeouts.SlotsOk t) :
    Attempting cfg { s with timeouts := t, now } :=
  ⟨h.between, h.pcb, fun e he => h.timers e (ht e he), hslots, h.state, h.connected⟩

/-- **A try**: a Tester Present is sent, and the attempt goes on. -/
theorem connectTry (h : Attempting cfg s) :
    Attempting cfg (s.connectTry .ok) ∧ tries (s.connectTry .ok).log = tries s.log + 1 := by
  obtain ⟨p, hp, hpcb⟩ := h.pcb
  have hans : s.isotpAnswer .ok = .ok := by
    unfold isotpAnswer
    rw [hpcb]
    rfl
  obtain ⟨hc, -⟩ | ⟨-, hno, -⟩ | ⟨-, he⟩ := s.connectTry_cases .ok
  · -- the exit that `is_connected` keeps closed
    rw [h.connected] at hc
    cases hc
  · exact absurd hans hno
  · rw [he]
    refine ⟨⟨h.between, ⟨p, hp, hpcb⟩, h.timers, h.slots, h.state, h.connected⟩, ?_⟩
    simp [recordTry]

/-- The next try is armed. -/
theorem arm (h : Attempting cfg s) (hslot : s.timeouts.slotFree) (ms : Nat) :
    Attempting cfg (s.lwcanTimeout ms .connectTry) ∧
      ∃ e, e.handler = .connectTry ∧
        (s.lwcanTimeout ms .connectTry).timeouts.nextTimeout.Perm
        (e :: s.timeouts.nextTimeout) := by
  constructor
  · refine ⟨h.between, h.pcb, fun e he => ?_, h.slots.lwcanTimeout _ _ _ _, h.state, h.connected⟩
    obtain he | ⟨hh, -⟩ := Timeouts.mem_lwcanTimeout he
    · exact h.timers e he
    · rw [hh]
      exact ⟨nofun, nofun⟩
  · obtain ⟨hno, -⟩ | ⟨mem, pool, -, -, he⟩ :=
      s.timeouts.lwcanTimeout_cases s.now ms .connectTry .null
    · rw [hslot] at hno
      cases hno
    · rw [lwcanTimeout_timeouts, he]
      exact ⟨_, rfl, Timeouts.insert_perm _ _⟩

/-- **A handler** that is no try does nothing, or arms the next try. -/
theorem runHandler (h : Attempting cfg s) (hslot : s.timeouts.slotFree) {hd : UdsHandler}
    (hne : hd ≠ .connectTry) (hstar : hd ≠ .p2StarTimerHandler)
    (hs3 : hd = .s3TimerHandler → cfg.keepSession = true) :
    Attempting cfg (s.runHandler cfg hd .ok) ∧ (s.runHandler cfg hd .ok).log = s.log ∧
      ∃ armed, (∀ e ∈ armed, e.handler = .connectTry) ∧
        (s.runHandler cfg hd .ok).timeouts.nextTimeout.Perm (armed ++ s.timeouts.nextTimeout) := by
  have hnothing : Attempting cfg s ∧ s.log = s.log ∧ ∃ armed : List (Timeout UdsHandler Ptr),
      (∀ e ∈ armed, e.handler = .connectTry) ∧
        s.timeouts.nextTimeout.Perm (armed ++ s.timeouts.nextTimeout) :=
    ⟨h, rfl, [], nofun, List.Perm.refl _⟩
  cases hd with
  | connectTry => exact absurd rfl hne
  | s3TimerHandler =>
    -- the keep-alive request is refused while the attempt is under way
    obtain ⟨-, he⟩ | ⟨_, -, -, -, hidle, -⟩ :=
      s.udsSendRequest_cases (some [udsTesterPresentSid, cfg.keepSessionSuppress]) 0 .ok
    · have hs : s.runHandler cfg .s3TimerHandler .ok = s := (if_pos (hs3 rfl)).trans he
      rw [hs]
      exact hnothing
    · rw [h.state] at hidle
      cases hidle
  | p2TimerHandler =>
    have hs : s.runHandler cfg .p2TimerHandler .ok = s.lwcanTimeout
        (s.connectTimeout cfg) .connectTry :=
      if_pos h.state
    obtain ⟨hatt, e, he, hperm⟩ := h.arm hslot (s.connectTimeout cfg)
    rw [hs]
    exact ⟨hatt, rfl, [e], by simpa using he, hperm⟩
  | p2StarTimerHandler => exact absurd rfl hstar
  | other n => exact hnothing

/-- **The timeout in front** runs once it is due. -/
theorem exists_front (h : Attempting cfg s) {e : Timeout UdsHandler Ptr}
    {rest : List (Timeout UdsHandler Ptr)} (hcons : s.timeouts.nextTimeout = e :: rest) :
    ∃ ms u, Runs.run (step cfg) s [.tick ms, .timer .ok] = some (u.runHandler cfg e.handler .ok) ∧
      Attempting cfg u ∧ u.timeouts.slotFree ∧ u.timeouts.nextTimeout = rest ∧ u.log = s.log := by
  obtain ⟨ms, timeouts, hex⟩ := Timeouts.exists_expire hcons s.now
  have hlist : timeouts.nextTimeout = rest := by
    have hl := (Timeouts.expire_eq_some hex).1
    rw [hcons] at hl
    exact (List.cons.inj hl).2.symm
  have hmem : ∀ e' ∈ timeouts.nextTimeout, e' ∈ s.timeouts.nextTimeout := by
    intro e' he'
    rw [hcons, ← hlist]
    exact List.mem_cons_of_mem _ he'
  refine ⟨ms, { s with timeouts, now := u32 ((s.now : Int) + ms) }, ?_,
    h.congr hmem (h.slots.expire hex), h.slots.slotFree_expire hex, hlist, rfl⟩
  refine Runs.run_cons.mpr ⟨_, rfl, Runs.run_cons.mpr ⟨_, step_eq_some.mpr ⟨⟨?_, ?_⟩, ?_⟩, rfl⟩⟩
  · exact List.isEmpty_iff.mpr h.between
  · exact Option.isSome_of_eq_some hex
  · simp only [next, hex]

/-- **A try that is armed** is made, once the entries in front of it have run. -/
theorem exists_try (h : Attempting cfg s)
    (harmed : ∃ e ∈ s.timeouts.nextTimeout, e.handler = .connectTry) :
    ∃ es t, (∀ e ∈ es, e.isAnswer = false) ∧ Runs.run (step cfg) s es = some t ∧
      Attempting cfg t ∧ t.timeouts.slotFree ∧ tries t.log = tries s.log + 1 := by
  -- by induction on the entries of others: each that runs is one less, and what it arms is a try
  generalize hl : s.timeouts.nextTimeout.countP (·.handler ≠ .connectTry) = n
  induction n using Nat.strong_induction_on generalizing s with
  | _ n ih =>
    obtain ⟨e, rest, hcons⟩ := List.exists_cons_of_ne_nil (List.ne_nil_of_mem harmed.choose_spec.1)
    obtain ⟨ms, u, hrun, hu, hslot, hrest, hlog⟩ := h.exists_front hcons
    have hquiet : ∀ e' ∈ [Event.tick ms, .timer .ok], e'.isAnswer = false := by
      simp [Event.isAnswer]
    by_cases htry : e.handler = .connectTry
    · rw [htry] at hrun
      obtain ⟨hatt, htries⟩ := hu.connectTry
      refine ⟨_, _, hquiet, hrun, hatt, ?_, htries.trans (by rw [hlog])⟩
      exact (congrArg Timeouts.slotFree (connectTry_timeouts _ _)).trans hslot
    · have hmem : e ∈ s.timeouts.nextTimeout := hcons ▸ List.mem_cons_self
      obtain ⟨hatt, hlog', armed, harm, hperm⟩ :=
        hu.runHandler hslot htry (h.timers e hmem).1 (h.timers e hmem).2
      rw [hrest] at hperm
      -- the try is still pending, behind one entry less
      have harmed' : ∃ e' ∈ (u.runHandler cfg e.handler .ok).timeouts.nextTimeout,
          e'.handler = .connectTry := by
        obtain ⟨e', he', hh⟩ := harmed
        rw [hcons] at he'
        obtain rfl | he' := List.mem_cons.mp he'
        · exact absurd hh htry
        · exact ⟨e', hperm.mem_iff.mpr (List.mem_append_right _ he'), hh⟩
      have hcount : (u.runHandler cfg e.handler .ok).timeouts.nextTimeout.countP
          (·.handler ≠ .connectTry) < n := by
        have hnone : armed.countP (·.handler ≠ .connectTry) = 0 :=
          List.countP_eq_zero.mpr (by simpa using harm)
        rw [hperm.countP_eq, List.countP_append, hnone, Nat.zero_add, ← hl, hcons,
          List.countP_cons_of_pos (by simpa using htry)]
        exact Nat.lt_succ_self _
      obtain ⟨es, t, hes, hrun', ht⟩ := ih _ hcount hatt harmed' rfl
      refine ⟨_ ++ es, t, ?_, Runs.run_append.mpr ⟨_, hrun, hrun'⟩, ?_⟩
      · exact List.forall_mem_append.mpr ⟨hquiet, hes⟩
      · rw [hlog', hlog] at ht
        exact ht

/-- **As many tries as one likes**: each Tester Present is given up by ISO-TP, and the next is
sent. -/
theorem exists_tries (h : Attempting cfg s) (hslot : s.timeouts.slotFree) (n : Nat) :
    ∃ es t, (∀ e ∈ es, e.isAnswer = false) ∧ Runs.run (step cfg) s es = some t ∧
      Attempting cfg t ∧ t.timeouts.slotFree ∧ tries t.log = tries s.log + n := by
  induction n with
  | zero => exact ⟨[], s, nofun, rfl, h, hslot, rfl⟩
  | succ n ih =>
    obtain ⟨es, t, hes, hrun, ht, htslot, htries⟩ := ih
    obtain ⟨p, hp, -⟩ := ht.pcb
    -- the error arms the next try
    obtain ⟨hatt, e, he, hperm⟩ := ht.arm htslot (t.connectTimeout cfg)
    have hst : step cfg t (.error p .aborted) =
        some (t.lwcanTimeout (t.connectTimeout cfg) .connectTry) :=
      step_eq_some.mpr ⟨⟨List.isEmpty_iff.mpr ht.between, hp⟩, if_pos ht.state⟩
    obtain ⟨fs, u, hfs, hrun', hu, huslot, hutries⟩ :=
      hatt.exists_try ⟨e, hperm.mem_iff.mpr List.mem_cons_self, he⟩
    refine ⟨es ++ .error p .aborted :: fs, u, ?_,
      Runs.run_append.mpr ⟨t, hrun, Runs.run_cons.mpr ⟨_, hst, hrun'⟩⟩, hu, huslot, ?_⟩
    · exact List.forall_mem_append.mpr ⟨hes, List.forall_mem_cons.mpr ⟨rfl, hfs⟩⟩
    · rw [hutries, lwcanTimeout_log, htries]
      rfl

end Attempting

/-- **A connect on top of a connection** starts such an attempt. -/
theorem attempting_udsClientConnect {cb : Option Nat} {arg : Ptr} {bind : Lwcanerr}
    (hacc : (s.udsClientConnect cfg cb arg bind .ok).1 = .ok) (hu : s.Unhindered cfg)
    (hc : s.uds.isConnected = true) (hslots : Timeouts.SlotsOk s.timeouts) :
    Attempting cfg (s.udsClientConnect cfg cb arg bind .ok).2 ∧
      (s.udsClientConnect cfg cb arg bind .ok).2.timeouts.slotFree ∧
      tries (s.udsClientConnect cfg cb arg bind .ok).2.log = 1 := by
  obtain ⟨hno, -⟩ | ⟨-, he⟩ := s.udsClientConnect_cases cfg cb arg bind .ok
  · exact absurd hacc hno
  · rw [he]
    obtain ⟨hatt, htries⟩ := Attempting.connectTry
      (s := { s with
        uds := { s.uds with
          state := .connecting
          connectTryNum := u8 cfg.connectRetryNum
          connectCb := cb
          connectCbArg := arg }
        connects := s.connects + 1 }.emit (.connect cb arg s.timeouts.armed))
      ⟨hu.between, hu.pcb, hu.timers, hslots, rfl, hc⟩
    refine ⟨hatt, ?_, htries.trans (by simp [recordTry])⟩
    rw [connectTry_timeouts]
    exact hu.slot

/-- Every run keeps the entries in their chunks. -/
theorem slotsOk_of_run {es : List Event} (hr : Run cfg es s) : Timeouts.SlotsOk s.timeouts :=
  Runs.run_inv (I := fun s => Timeouts.SlotsOk s.timeouts)
    (fun s e _ h _ hst => (step_eq_some.mp hst).2 ▸
      timeouts_of_next (s := s) (e := e) (fun _ _ _ _ _ ht => ht.lwcanTimeout _ _ _ _)
        (fun _ _ _ _ ht => ht.lwcanUntimeout _ _) (fun _ _ _ _ he => h.expire he) h)
    (Timeouts.SlotsOk.initial cfg.lwcan) (Runs.Along.trivial _ es) hr

/-! ### The tries of a connect -/

/-- **The tries are bounded** along a run without answers, from the connect that is accepted on, if
and only if `connect_try` never runs with no try left while `is_connected` is set. It never does so
where `is_connected` is clear when the connect is accepted; and where it is set and nothing hinders
the attempt, some run without answers sends as many Tester Presents as one likes. -/
theorem retries_bounded_iff {cfg : UdsConfig} {s : Client} {cb : Option Nat} {arg : Ptr}
    {bind send : Lwcanerr} (hacc : (s.udsClientConnect cfg cb arg bind send).1 = .ok) :
    (∀ es t, (∀ e ∈ es, e.isAnswer = false) →
      Runs.run (step cfg) s (.call (.udsClientConnect cb arg bind send) :: es) = some t →
      (Runs.Along (step cfg) (LeadsToBounded cfg) s
          (.call (.udsClientConnect cb arg bind send) :: es) ↔
        Runs.Along (step cfg) (Counted cfg) s (.call (.udsClientConnect cb arg bind send) :: es)) ∧
      (s.uds.isConnected = false →
        Runs.Along (step cfg) (Counted cfg) s
          (.call (.udsClientConnect cb arg bind send) :: es))) ∧
    (∀ before, Run cfg before s → s.uds.isConnected = true → s.Unhindered cfg → send = .ok →
      ∀ n, ∃ es t, (∀ e ∈ es, e.isAnswer = false) ∧
        Runs.run (step cfg) s (.call (.udsClientConnect cb arg bind send) :: es) = some t ∧
        t.uds.state = .connecting ∧ tries t.log = n + 1) := by
  constructor
  · intro es t hquiet hr
    obtain ⟨u, hu, hrest⟩ := Runs.run_cons.mp hr
    have hnext : u = (s.udsClientConnect cfg cb arg bind send).2 := (step_eq_some.mp hu).2.symm
    constructor
    · -- the connect itself counts from the start, whatever was before it
      have hfirst : LeadsToBounded cfg s (.call (.udsClientConnect cb arg bind send)) ↔
          s.Counted cfg (.call (.udsClientConnect cb arg bind send)) :=
        (bounded_udsClientConnect hacc).trans ⟨fun hs _ => hs, fun hs => hs hacc⟩
      -- from there on the counts hold as long as every step is counted, and no longer
      have hloop : u.Bounded cfg → (Runs.Along (step cfg) (LeadsToBounded cfg) u es ↔
          Runs.Along (step cfg) (Counted cfg) u es) := fun hb =>
        Runs.along_congr (I := Bounded cfg) (E := fun e => e.isAnswer = false)
          (fun s e v hs hq hv => ⟨leadsToBounded_iff hs hq hv,
            fun hlead => (step_eq_some.mp hv).2 ▸ hlead⟩) hb hquiet hrest
      constructor
      · rintro ⟨hlead, ha⟩
        refine ⟨hfirst.mp hlead, fun v hv => ?_⟩
        obtain rfl : u = v := Option.some.inj (hu.symm.trans hv)
        exact (hloop (hnext ▸ hlead)).mp (ha u hu)
      · rintro ⟨hcount, ha⟩
        refine ⟨hfirst.mpr hcount, fun v hv => ?_⟩
        obtain rfl : u = v := Option.some.inj (hu.symm.trans hv)
        exact (hloop (hnext ▸ hfirst.mpr hcount)).mpr (ha u hu)
    · intro hc
      -- without an answer a disconnected client stays so, and its attempts stop
      have hquiet' : ∀ e ∈ Event.call (.udsClientConnect cb arg bind send) :: es,
          e.isAnswer = false :=
        List.forall_mem_cons.mpr ⟨rfl, hquiet⟩
      have halong : Runs.Along (step cfg) (fun s _ => s.uds.isConnected = false) s
          (.call (.udsClientConnect cb arg bind send) :: es) :=
        Runs.along_inv (C := fun _ e => e.isAnswer = false)
          (fun s e v hs hq hv => (step_eq_some.mp hv).2 ▸ isConnected_next hs hq) hc
          (Runs.Along.of_forall (fun e he _ => hquiet' e he) s)
      exact halong.mono fun s e hs => counted_of_disconnected hs e
  · rintro before hrun hc hu rfl n
    -- each try is given up, and `is_connected` lets the next one follow
    obtain ⟨hatt, hslot, htries⟩ :=
      attempting_udsClientConnect hacc hu hc (slotsOk_of_run hrun)
    obtain ⟨es, t, hes, hr, ht, -, hn⟩ := hatt.exists_tries hslot n
    refine ⟨es, t, hes, Runs.run_cons.mpr ⟨_, step_eq_some.mpr ⟨True.intro, rfl⟩, hr⟩, ht.state, ?_⟩
    rw [hn, htries, Nat.add_comm]

/-- The client is initialised and connects. -/
def connectCall : Event := .call (.udsClientConnect (some 1) .null .ok .ok)

/-- The first Tester Present is not answered, the second is not sent. -/
def unansweredRun : List Event := [.sent 0, .tick 50, .timer .ok, .timer .ok, .error 0 .aborted]

/-- The client is connected. -/
def connectedBefore : List Event :=
  [.call (.udsClientInit (some 0)), connectCall, .sent 0,
    .receive 0 5 ⟨0, 2, fun i => if i = 0 then 0x7E else 0⟩, .ret]

/-- After power-up an attempt is bounded; once the client is connected, another one is not. -/
theorem retries_bounded_unansweredRun :
    (∃ s t, Run .default [.call (.udsClientInit (some 0))] s ∧
      Runs.run (step .default) s (connectCall :: unansweredRun) = some t ∧
      Runs.Along (step .default) (LeadsToBounded .default) s (connectCall :: unansweredRun)) ∧
    ∃ s es t, Run .default connectedBefore s ∧ (∀ e ∈ es, e.isAnswer = false) ∧
      Runs.run (step .default) s (connectCall :: es) = some t ∧ tries t.log = 300 := by
  constructor
  · obtain ⟨s, hs, hc, hacc, hrun⟩ := Runs.exists_run (step .default) (powerUp .default)
      [.call (.udsClientInit (some 0))]
      (fun s => s.uds.isConnected = false ∧
        (s.udsClientConnect .default (some 1) .null .ok .ok).1 = .ok ∧
        (Runs.run (step .default) s (connectCall :: unansweredRun)).isSome) (by decide)
    obtain ⟨t, ht⟩ := Option.isSome_iff_exists.mp hrun
    obtain ⟨hiff, hcount⟩ := (retries_bounded_iff hacc).1 _ t (by decide) ht
    exact ⟨s, t, hs, ht, hiff.mpr (hcount hc)⟩
  · obtain ⟨s, hs, hacc, hc, hbetween, hslot, hp, hpcb, hlist⟩ :=
      Runs.exists_run (step .default) (powerUp .default) connectedBefore
        (fun s => (s.udsClientConnect .default (some 1) .null .ok .ok).1 = .ok ∧
          s.uds.isConnected = true ∧ s.stack = [] ∧ s.timeouts.slotFree ∧ 0 ∈ s.pcbs ∧
          s.uds.isotpPcb = some 0 ∧ s.timeouts.nextTimeout.length = 0) (by decide)
    -- the answer has cancelled every timer
    have hnil := List.length_eq_zero_iff.mp hlist
    obtain ⟨es, t, hes, hr, -, hn⟩ := (retries_bounded_iff hacc).2 _ hs hc
      ⟨hbetween, hslot, ⟨0, hp, hpcb⟩, by rw [hnil]; nofun⟩ rfl 299
    exact ⟨s, es, t, hs, hes, hr, hn⟩

/-- A connect on top of a connection that is still marked: every Tester Present fails, and
`connect_try` goes on past the twentieth. -/
theorem retries_unbounded :
    ¬∀ (cfg : UdsConfig) (es fs : List Event) (s t : Client) (cb : Option Nat) (arg : Ptr)
      (bind send : Lwcanerr), Run cfg es s → (s.udsClientConnect cfg cb arg bind send).1 = .ok →
      (∀ e ∈ fs, e.isAnswer = false) →
      Runs.run (step cfg) s (.call (.udsClientConnect cb arg bind send) :: fs) = some t →
      tries t.log ≤ cfg.connectRetryNum ∨ ∃ n ∈ t.log.drop s.log.length, n.isConnectCb := by
  intro h
  let fs : List Event :=
    (List.replicate 20 [Event.error 0 .aborted, .tick 50, .timer .ok]).flatten
  -- a connected client connects once more, and every send fails: the counter passes zero
  obtain ⟨s, hs, hacc, hmany⟩ := Runs.exists_run (step .default) (powerUp .default)
    connectedBefore
    (fun s => (s.udsClientConnect .default (some 1) .null .ok .ok).1 = .ok ∧
      (Runs.run (step .default) s (connectCall :: fs)).any fun t => 20 < tries t.log ∧
        ∀ n ∈ t.log.drop s.log.length, ¬n.isConnectCb) (by decide)
  obtain ⟨t, ht, hlt⟩ := (Option.any_eq_true _ _).mp hmany
  obtain ⟨hlt, hnone⟩ := of_decide_eq_true hlt
  obtain hle | ⟨n, hn, hcb⟩ := h .default _ fs s t (some 1) .null .ok .ok hs hacc (by decide) ht
  · exact absurd hle (Nat.not_le.mpr hlt)
  · exact hnone n hn hcb

end Client
end Uds
end Lwcan
