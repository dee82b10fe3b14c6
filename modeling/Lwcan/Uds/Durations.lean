import Lwcan.Uds.Deinit

/-!
# How long the response timers run

`uds_set_p2_timer` and `uds_set_p2_star_timer` take a `uint32_t`; the record keeps a `uint16_t`, and
that is what `lwcan_timeout` is called with.

* `ResponseTimer` — P2 and P2*, each with its handler, what is stored for it and what it is by
  default;
* `armed_time` — a step arms a response timer for the time that is stored;
* `time_next`, `time_of_endsSession` — what a step leaves stored;
* `armed_for_iff` — after a set, the timers run for the time that was set if and only if it fits, or
  the session has ended since and it is the default.
-/

namespace Lwcan
namespace Uds

theorem u16_lt (n : Nat) : u16 n < 65536 := Nat.mod_lt _ (by decide)

theorem u16_eq_self_iff {n : Nat} : u16 n = n ↔ n < 65536 := by
  constructor
  · intro h
    exact h ▸ u16_lt n
  · exact Nat.mod_eq_of_lt

/-- The two timers that await a response -/
inductive ResponseTimer
  | p2
  | p2Star
  deriving DecidableEq, Repr

namespace ResponseTimer

/-- The handler that is armed -/
def handler : ResponseTimer → UdsHandler
  | .p2 => .p2TimerHandler
  | .p2Star => .p2StarTimerHandler

/-- The field of the record -/
def time (u : UdsState) : ResponseTimer → Nat
  | .p2 => u.p2
  | .p2Star => u.p2Star

/-- `UDS_P2_DEFAULT` and `UDS_P2_STAR_DEFAULT`, as they are stored -/
def default (cfg : UdsConfig) : ResponseTimer → Nat
  | .p2 => u16 cfg.p2Default
  | .p2Star => u16 cfg.p2StarDefault

/-- `uds_set_p2_timer(time)` or `uds_set_p2_star_timer(time)` -/
def set (s : Client) (time : Nat) : ResponseTimer → Lwcanerr × Client
  | .p2 => s.udsSetP2Timer time
  | .p2Star => s.udsSetP2StarTimer time

/-- The event is another set of this timer, a disconnect or a new init. -/
def resets (k : ResponseTimer) : Event → Bool
  | .call (.udsSetP2Timer _) => k = .p2
  | .call (.udsSetP2StarTimer _) => k = .p2Star
  | .call .udsClientDisconnect => true
  | e => e.isInit

variable {k : ResponseTimer}

/-- The times are read from two fields. -/
theorem time_congr {u u' : UdsState} (hp2 : u'.p2 = u.p2) (hstar : u'.p2Star = u.p2Star) :
    time u' k = time u k := by
  cases k with
  | p2 => exact hp2
  | p2Star => exact hstar

theorem default_lt (k : ResponseTimer) (cfg : UdsConfig) : k.default cfg < 65536 := by
  cases k with
  | p2 => exact u16_lt _
  | p2Star => exact u16_lt _

theorem isInit_of_resets {e : Event} (h : k.resets e = false) : e.isInit = false := by
  cases e with
  | call c =>
    cases c with
    | udsClientInit isotpPcb => exact h
    | _ => rfl
  | _ => rfl

end ResponseTimer

namespace Client

variable {cfg : UdsConfig} {s s' u v : Client} {k : ResponseTimer} {e : Event} {es : List Event}
  {x : Timeout UdsHandler Ptr} {t : Nat}

/-! ### The property -/

/-- The step from `u` to `v` arms `x` as a response timer. -/
def Arms (k : ResponseTimer) (u v : Client) (x : Timeout UdsHandler Ptr) : Prop :=
  x ∈ v.timeouts.nextTimeout ∧ x.handler = k.handler ∧ u.timeouts.armed ≤ x.stamp

instance (k : ResponseTimer) (u v : Client) (x : Timeout UdsHandler Ptr) :
    Decidable (Arms k u v x) :=
  inferInstanceAs (Decidable (_ ∧ _ ∧ _))

/-- Without `UDS_KEEP_SESSION`, the S3 timer ends the session, and restores the defaults. -/
def EndsSession (cfg : UdsConfig) (s : Client) : Event → Prop
  | .timer _ => cfg.keepSession = false ∧
      (s.timeouts.expire s.now).any fun due => due.1.handler = .s3TimerHandler
  | _ => False

instance (cfg : UdsConfig) (s : Client) : (e : Event) → Decidable (EndsSession cfg s e)
  | .timer _ => inferInstanceAs (Decidable (_ ∧ _))
  | .call _ | .receive _ _ _ | .receiveFf _ | .sent _ | .error _ _ | .ret | .tick _ =>
    inferInstanceAs (Decidable False)

/-! ### What is armed -/

/-- **A response timer runs for the time that is stored**, and only a busy client arms one. -/
theorem armed_time (ht : TimersOk u.timeouts) (h : Arms k u (u.next cfg e) x) :
    u.uds.state ≠ .idle ∧ x.time = u32 ((u.now : Int) + k.time u.uds) := by
  obtain ⟨hx, hk, hnew⟩ := h
  -- the entries that were there have older stamps
  have hold : ∀ y ∈ u.timeouts.nextTimeout, ¬u.timeouts.armed ≤ y.stamp := fun y hy =>
    Nat.not_le.mpr (ht.stamp y hy)
  refine timeouts_of_next (P := fun t => ∀ y ∈ t.nextTimeout, y.handler = k.handler →
    u.timeouts.armed ≤ y.stamp → u.uds.state ≠ .idle ∧ y.time = u32 ((u.now : Int) + k.time u.uds))
    ?_ ?_ ?_ (fun y hy _ hle => absurd hle (hold y hy)) x hx hk hnew
  · intro t ms h a hm hP y hy hyk hle
    -- an entry of the list, or the one that is put into it
    obtain hy | ⟨hh, -, -, htime⟩ := Timeouts.mem_lwcanTimeout hy
    · exact hP y hy hyk hle
    rw [hyk] at hh
    obtain ⟨n, hn⟩ | ⟨-, hbusy, hp2, hstar⟩ := hm
    · -- the application's own timeouts have handlers of their own
      rw [hn] at hh
      cases k <;> cases hh
    · refine ⟨hbusy, ?_⟩
      cases k with
      | p2 => rw [htime, hp2 hh.symm]; rfl
      | p2Star => rw [htime, hstar hh.symm]; rfl
  · exact fun t h a _ hP y hy => hP y (Timeouts.mem_of_mem_lwcanUntimeout hy)
  · -- taking the due entry off leaves entries that were there
    intro _ _ e' t' he y hy _ hle
    have hmem : y ∈ u.timeouts.nextTimeout :=
      (Timeouts.expire_eq_some he).1 ▸ List.mem_cons_of_mem _ hy
    exact absurd hle (hold y hmem)

/-! ### What is stored -/

theorem time_callContext (s : Client) (callback : UdsContext → Bool) (n : Note)
    (r : Option (Nat × Nat)) : k.time (s.callContext callback n r).uds = k.time s.uds := by
  obtain ⟨-, h⟩ | ⟨-, h⟩ := s.callContext_cases callback n r
  · rw [h]
    rfl
  · rw [h, finish_uds]
    exact ResponseTimer.time_congr rfl rfl

theorem time_connectTry (s : Client) (send : Lwcanerr) :
    k.time (s.connectTry send).uds = k.time s.uds := by
  obtain ⟨-, -, h⟩ | ⟨-, -, h⟩ | ⟨-, h⟩ := s.connectTry_cases send
  · rw [h, callConnectCb_uds]
  · rw [h, callConnectCb_uds, sendTesterPresent_uds]
    exact ResponseTimer.time_congr rfl rfl
  · rw [h, sendTesterPresent_uds]
    exact ResponseTimer.time_congr rfl rfl

theorem time_udsSendRequest (s : Client) (request : Option (List UInt8)) (withResponse : UInt8)
    (send : Lwcanerr) :
    k.time (s.udsSendRequest request withResponse send).2.uds = k.time s.uds := by
  obtain ⟨-, h⟩ | ⟨_, -, -, -, -, h⟩ := s.udsSendRequest_cases request withResponse send
  · rw [h]
  · rw [h]
    exact ResponseTimer.time_congr rfl rfl

theorem time_udsReceive (s : Client) (pcb buffer : Nat) (b : LwcanBuffer) :
    k.time (s.udsReceive pcb buffer b).uds = k.time s.uds := by
  have huds : (s.untimeoutReceive.emit (.read udsSidOffset b.length)).uds = s.uds := by simp
  unfold udsReceive
  split
  · rw [isotpReceived_uds]
  dsimp only
  rw [← huds]
  -- `u` has cancelled the timers and read the first byte
  generalize s.untimeoutReceive.emit (.read udsSidOffset b.length) = u
  split
  · unfold handleNegativeResponse
    split
    · rw [callConnectCb_uds]
    split
    · rw [isotpReceived_uds]
      exact ResponseTimer.time_congr rfl rfl
    · dsimp only
      split
      · exact time_callContext _ _ _ _
      · rw [finish_uds]
        exact ResponseTimer.time_congr rfl rfl
  · unfold handlePositiveResponse
    split
    · rw [callConnectCb_uds]
      exact ResponseTimer.time_congr rfl rfl
    · exact time_callContext _ _ _ _

/-- A call that does not reset the timer keeps its time, or takes the client down. -/
theorem time_call (c : Call) (hset : k.resets (.call c) = false) :
    k.time (s.call cfg c).uds = k.time s.uds ∨ (s.call cfg c).Down := by
  cases c with
  | udsClientInit isotpPcb =>
    cases isotpPcb with
    | none => exact Or.inl rfl
    | some p => cases hset
  | udsClientDeinit =>
    obtain ⟨-, h⟩ | ⟨-, -, h⟩ := s.udsClientDeinit_cases
    · refine Or.inl ?_
      simp only [call, h]
    · -- the record is given back: its fields are no longer anyone's
      refine Or.inr ?_
      simp only [call, h]
      exact ⟨rfl, rfl, rfl⟩
  | udsClientConnect cb arg bind send =>
    refine Or.inl ?_
    obtain ⟨-, h⟩ | ⟨-, h⟩ := s.udsClientConnect_cases cfg cb arg bind send
    · simp only [call, h]
    · simp only [call, h]
      rw [time_connectTry]
      exact ResponseTimer.time_congr rfl rfl
  | udsClientDisconnect => cases hset
  | udsSetContext context handle =>
    refine Or.inl ?_
    simp only [call, udsSetContext]
    split
    · rfl
    · exact ResponseTimer.time_congr rfl rfl
  -- the other timer may be set
  | udsSetP2Timer time =>
    refine Or.inl ?_
    cases k with
    | p2 => cases hset
    | p2Star =>
      simp only [call, udsSetP2Timer]
      split <;> rfl
  | udsSetP2StarTimer time =>
    refine Or.inl ?_
    cases k with
    | p2 =>
      simp only [call, udsSetP2StarTimer]
      split <;> rfl
    | p2Star => cases hset
  | udsSendRequest request withResponse send => exact Or.inl (time_udsSendRequest s _ _ _)
  | lwcanTimeout ms n arg => exact Or.inl rfl
  | lwcanUntimeout n arg => exact Or.inl rfl

/-- A timeout handler keeps the times, unless it ends the session. -/
theorem time_runHandler (s : Client) (handler : UdsHandler) (send : Lwcanerr)
    (hend : cfg.keepSession = false → handler ≠ .s3TimerHandler) :
    k.time (s.runHandler cfg handler send).uds = k.time s.uds := by
  cases handler with
  | connectTry => exact time_connectTry s send
  | s3TimerHandler =>
    simp only [runHandler, s3TimerHandler]
    split
    · exact time_udsSendRequest s _ _ _
    · -- without `UDS_KEEP_SESSION` the defaults come back
      next hkeep => exact absurd rfl (hend (by simpa using hkeep))
  | p2TimerHandler =>
    simp only [runHandler, p2TimerHandler]
    split
    · rfl
    · exact time_callContext _ _ _ _
  | p2StarTimerHandler => exact time_callContext _ _ _ _
  | other n => rfl

/-- **A step keeps the time**, unless it is a reset or ends the session, or takes the client
down. -/
theorem time_next (hset : k.resets e = false) (hend : ¬EndsSession cfg s e) :
    k.time (s.next cfg e).uds = k.time s.uds ∨ (s.next cfg e).Down := by
  -- Only the handler of a timer that runs out could end the session; `hend` says it does not.
  cases e with
  | call c => exact time_call c hset
  | receive p buffer b => exact Or.inl (time_udsReceive s p buffer b)
  | receiveFf p =>
    refine Or.inl ?_
    simp only [next, udsReceiveFf]
    split
    · rfl
    · rw [setState_uds, untimeoutResponse_uds]
      exact ResponseTimer.time_congr rfl rfl
  | sent p =>
    refine Or.inl ?_
    simp only [next, udsSent]
    split
    · rfl
    split
    · rfl
    · split <;> exact ResponseTimer.time_congr rfl rfl
  | error p err =>
    refine Or.inl ?_
    simp only [next, udsError]
    split
    · rfl
    split
    · rfl
    · rw [time_callContext, untimeoutResponse_uds]
  | timer send =>
    refine Or.inl ?_
    simp only [next]
    split
    · rfl
    · next e' timeouts he =>
      refine time_runHandler { s with timeouts } e'.handler send fun hkeep hs3 => hend ⟨hkeep, ?_⟩
      rw [he]
      simpa using hs3
  | ret =>
    refine Or.inl ?_
    simp only [next]
    split
    · rfl
    · rw [finish_uds]
      exact ResponseTimer.time_congr rfl rfl
  | tick ms => exact Or.inl rfl

/-- The end of a session restores the default. -/
theorem time_of_endsSession (hend : EndsSession cfg s e) :
    k.time (s.next cfg e).uds = k.default cfg := by
  cases e with
  | timer send =>
    obtain ⟨hkeep, hdue⟩ := hend
    simp only [next]
    split
    · next hnone =>
      rw [hnone] at hdue
      cases hdue
    · next e' timeouts he =>
      rw [he] at hdue
      have hs3 : e'.handler = .s3TimerHandler := by simpa using hdue
      simp only [hs3, runHandler, s3TimerHandler, hkeep]
      cases k <;> rfl
  | _ => cases hend

/-! ### Along a run -/

/-- What is stored is `n`, or the client is down and arms nothing. -/
def Stores (k : ResponseTimer) (n : Nat) (s : Client) : Prop := k.time s.uds = n ∨ s.Down

/-- As long as the session lasts, what is stored stays. -/
theorem Stores.step {n : Nat} (h : s.Stores k n) (hset : k.resets e = false)
    (hend : ¬EndsSession cfg s e) : (s.next cfg e).Stores k n := by
  obtain h | hd := h
  · exact (time_next hset hend).imp_left fun heq => heq.trans h
  · exact Or.inr (hd.next (ResponseTimer.isInit_of_resets hset))

theorem Stores.of_run {n : Nat} (h : s.Stores k n) (hset : ∀ e ∈ es, k.resets e = false)
    (hkept : Runs.Along (Client.step cfg) (fun s e => ¬EndsSession cfg s e) s es)
    (hr : Runs.run (Client.step cfg) s es = some u) : u.Stores k n := by
  have hquiet : Runs.Along (Client.step cfg) (fun _ e => k.resets e = false) s es :=
    Runs.Along.of_forall (fun e he _ => hset e he) s
  refine Runs.run_inv (I := Stores k n) ?_ h (hkept.and hquiet) hr
  intro s e v hI hC hv
  obtain ⟨-, rfl⟩ := step_eq_some.mp hv
  exact hI.step hC.2 hC.1

/-- Once the default is stored, it stays. -/
theorem Stores.default_of_run (h : s.Stores k (k.default cfg)) (hset : ∀ e ∈ es, k.resets e = false)
    (hr : Runs.run (Client.step cfg) s es = some u) : u.Stores k (k.default cfg) := by
  have hquiet : Runs.Along (Client.step cfg) (fun _ e => k.resets e = false) s es :=
    Runs.Along.of_forall (fun e he _ => hset e he) s
  refine Runs.run_inv (I := Stores k (k.default cfg)) ?_ h hquiet hr
  intro s e v hI hC hv
  obtain ⟨-, rfl⟩ := step_eq_some.mp hv
  by_cases hend : EndsSession cfg s e
  · exact Or.inl (time_of_endsSession hend)
  · exact hI.step hC hend

/-- After the session has ended, the default is stored. -/
theorem stores_default (hset : ∀ e ∈ es, k.resets e = false)
    (hended : ¬Runs.Along (Client.step cfg) (fun s e => ¬EndsSession cfg s e) s es)
    (hr : Runs.run (Client.step cfg) s es = some u) : u.Stores k (k.default cfg) := by
  -- the first step that ends the session is now or later
  induction es generalizing s with
  | nil => exact absurd True.intro hended
  | cons e es ih =>
    obtain ⟨v, hv, hr⟩ := Runs.run_cons.mp hr
    have hrest : ∀ e' ∈ es, k.resets e' = false := fun e' he' =>
      hset e' (List.mem_cons_of_mem _ he')
    by_cases hend : EndsSession cfg s e
    · obtain ⟨-, rfl⟩ := step_eq_some.mp hv
      exact Stores.default_of_run (Or.inl (time_of_endsSession hend)) hrest hr
    · refine ih hrest (fun halong => hended ⟨hend, fun w hw => ?_⟩) hr
      rw [hv] at hw
      exact Option.some.inj hw ▸ halong

/-! ### After a set -/

/-- A set that is accepted stores the time in 16 bits, and touches nothing else. -/
theorem set_eq_ok (hset : (k.set s t).1 = .ok) :
    k.time (k.set s t).2.uds = u16 t ∧ (k.set s t).2.timeouts = s.timeouts := by
  cases k with
  | p2 =>
    simp only [ResponseTimer.set, udsSetP2Timer] at hset ⊢
    split at hset
    · cases hset
    · next hs =>
      rw [if_neg hs]
      exact ⟨rfl, rfl⟩
  | p2Star =>
    simp only [ResponseTimer.set, udsSetP2StarTimer] at hset ⊢
    split at hset
    · cases hset
    · next hs =>
      rw [if_neg hs]
      exact ⟨rfl, rfl⟩

/-- The session that was under way at the set has not ended. -/
def SessionKept (cfg : UdsConfig) (s : Client) (es : List Event) : Prop :=
  Runs.Along (step cfg) (fun s e => ¬EndsSession cfg s e) s es

instance (cfg : UdsConfig) (s : Client) (es : List Event) : Decidable (SessionKept cfg s es) :=
  Runs.decidableAlong s es

/-- With `UDS_KEEP_SESSION` no timer ends the session. -/
theorem SessionKept.of_keepSession (hkeep : cfg.keepSession = true) (s : Client) (es : List Event) :
    SessionKept cfg s es := by
  refine Runs.Along.of_forall (fun e _ u hend => ?_) s
  cases e with
  | timer send =>
    rw [hend.1] at hkeep
    cases hkeep
  | _ => cases hend

/-- What is armed with, as long as there is a session, and after it -/
theorem stored_of_run (hset : (k.set s t).1 = .ok) (hquiet : ∀ e ∈ es, k.resets e = false)
    (hr : Runs.run (step cfg) (k.set s t).2 es = some u) :
    u.Stores k (if SessionKept cfg (k.set s t).2 es then u16 t else k.default cfg) := by
  by_cases hkept : SessionKept cfg (k.set s t).2 es
  · rw [if_pos hkept]
    exact Stores.of_run (Or.inl (set_eq_ok hset).1) hquiet hkept hr
  · rw [if_neg hkept]
    exact stores_default hquiet hkept hr

/-- Two times below `2 ^ 32` give one deadline only if they are equal. -/
theorem u32_add_inj {now a b : Nat} (ha : a < 4294967296) (hb : b < 4294967296) :
    u32 ((now : Int) + a) = u32 ((now : Int) + b) ↔ a = b := by
  unfold u32
  omega

/-- **A response timer runs for the time that was set** if and only if that fits 16 bits, as long as
the session has not ended since; afterwards, if and only if it is the default. -/
theorem armed_for_iff {es₀ : List Event} (hs : Run cfg es₀ s) (ht : t < 4294967296)
    (hset : (k.set s t).1 = .ok) (hquiet : ∀ e ∈ es, k.resets e = false)
    (hr : Runs.run (step cfg) (k.set s t).2 es = some u) (hv : step cfg u e = some v)
    (hx : Arms k u v x) :
    x.time = u32 ((u.now : Int) + t) ↔
      if SessionKept cfg (k.set s t).2 es then t < 65536 else k.default cfg = t := by
  obtain ⟨-, rfl⟩ := step_eq_some.mp hv
  have hok : TimersOk (k.set s t).2.timeouts := (set_eq_ok hset).2 ▸ TimersOk.of_run hs
  have hu : TimersOk u.timeouts :=
    Runs.run_inv (I := fun s => TimersOk s.timeouts)
      (fun s e _ h _ hst => (step_eq_some.mp hst).2 ▸ TimersOk.next (s := s) h e)
      hok (Runs.Along.trivial _ es) hr
  obtain ⟨hbusy, htime⟩ := armed_time hu hx
  obtain hstored | hdown := stored_of_run hset hquiet hr
  · -- both deadlines are `now` and a 32-bit time
    have hlt : k.time u.uds < 4294967296 := by
      rw [hstored]
      split
      · exact (u16_lt t).trans (by decide)
      · exact (k.default_lt cfg).trans (by decide)
    rw [htime, u32_add_inj hlt ht, hstored]
    by_cases hkept : SessionKept cfg (k.set s t).2 es
    · rw [if_pos hkept, if_pos hkept]
      exact u16_eq_self_iff
    · rw [if_neg hkept, if_neg hkept]
  · -- a client that is down arms nothing
    exact absurd hdown.state hbusy

/-- The client is connected and idle. -/
def openedRun : List Event :=
  [.call (.udsClientInit (some 0)), .call (.udsClientConnect (some 1) .null .ok .ok), .sent 0,
    .receive 0 5 ⟨0, 2, fun i => if i = 0 then 0x7E else 0⟩, .ret]

/-- A request with response -/
def askRun : List Event := [.call (.udsSendRequest (some [0x22, 0xF1, 0x90]) 1 .ok)]

/-- The step that arms, found by running it -/
theorem exists_arms (k : ResponseTimer) (t : Nat) (es : List Event) (e : Event)
    (P : Client → Client → Timeout UdsHandler Ptr → Prop) [∀ u v x, Decidable (P u v x)]
    (h : (Runs.run (step .default) (powerUp .default) openedRun).any fun s =>
      (k.set s t).1 = .ok ∧ (Runs.run (step .default) (k.set s t).2 es).any fun u =>
        (step .default u e).any fun v => ∃ x ∈ v.timeouts.nextTimeout, Arms k u v x ∧ P u v x) :
    ∃ s u v x, Run .default openedRun s ∧ (k.set s t).1 = .ok ∧
      Runs.run (step .default) (k.set s t).2 es = some u ∧ step .default u e = some v ∧
      Arms k u v x ∧ P u v x := by
  obtain ⟨s, hs, hset, hu⟩ := Runs.exists_run _ _ _ _ h
  obtain ⟨u, hu, hv⟩ := (Option.any_eq_true _ _).mp hu
  obtain ⟨v, hv, hx⟩ := (Option.any_eq_true _ _).mp hv
  obtain ⟨x, -, harms, hP⟩ := of_decide_eq_true hx
  exact ⟨s, u, v, x, hs, hset, hu, hv, harms, hP⟩

theorem armed_for_askRun : ∃ s u v x, Run .default openedRun s ∧
    Runs.run (step .default) (ResponseTimer.p2.set s 100).2 askRun = some u ∧
    step .default u (.sent 0) = some v ∧ Arms .p2 u v x ∧ x.time = u32 ((u.now : Int) + 100) := by
  obtain ⟨s, u, v, x, hs, hset, hu, hv, hx, -⟩ :=
    exists_arms .p2 100 askRun (.sent 0) (fun _ _ _ => True) (by decide)
  have hquiet : ∀ e ∈ askRun, ResponseTimer.p2.resets e = false := by decide
  refine ⟨s, u, v, x, hs, hu, hv, hx, (armed_for_iff hs (by decide) hset hquiet hu hv hx).mpr ?_⟩
  rw [if_pos (SessionKept.of_keepSession rfl _ _)]
  decide

/-- P2 is set to 65536 milliseconds, and is armed with none. -/
theorem armed_too_short :
    ¬∀ (cfg : UdsConfig) (es₀ es : List Event) (s u v : Client) (k : ResponseTimer) (t : Nat)
      (e : Event) (x : Timeout UdsHandler Ptr), Run cfg es₀ s → t < 4294967296 →
      (k.set s t).1 = .ok → (∀ e ∈ es, k.resets e = false) →
      Runs.run (step cfg) (k.set s t).2 es = some u → step cfg u e = some v → Arms k u v x →
      x.time = u32 ((u.now : Int) + t) := by
  intro h
  obtain ⟨s, u, v, x, hs, hset, hu, hv, hx, hno⟩ := exists_arms .p2 65536 askRun (.sent 0)
    (fun u _ x => x.time ≠ u32 ((u.now : Int) + (65536 : Nat))) (by decide)
  exact hno
    (h .default openedRun askRun s u v .p2 65536 _ x hs (by decide) hset (by decide) hu hv hx)

end Client
end Uds
end Lwcan
