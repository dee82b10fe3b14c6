import Lwcan.Uds.Steps

/-!
# Connect attempts

A connect that `uds_client_connect` accepts is an `Attempt`. The log says how often its `connect_cb`
was called, and whether `uds_client_disconnect` ended it before.

The client answers an attempt once as long as nothing but an answer or a disconnect takes it out of
`UDS_CONNECTING`, and nothing does so while a retry is pending: `connect_try` is never cancelled.
The steps that respect this are `Orderly`. What they keep is `ConnectInv`: every attempt is settled
and no retry is pending, or the last attempt is under way and every retry was armed for it.

* `ConnectInv.step` — every orderly step keeps it;
* `connect_once` — in every orderly run each connect is answered once, and no retry outlives its
  attempt.
-/

namespace Lwcan
namespace Uds

/-! ### What the log says about the attempts -/

/-- A connect that was accepted: its `connect_cb`, how many entries had been armed before, how often
it was answered, and whether it was disconnected before an answer -/
structure Attempt where
  cb : Option Nat
  arg : Ptr
  start : Nat
  answers : Nat
  cancelled : Bool
  deriving DecidableEq, Repr

namespace Attempt

/-- `connect_cb` is called: an answer, if it is this attempt's. -/
def answer (a : Attempt) (cb : Option Nat) (arg : Ptr) : Attempt :=
  if a.cb = cb ∧ a.arg = arg then { a with answers := a.answers + 1 } else a

/-- `uds_client_disconnect` ends the connection: a cancellation, unless there was an answer
before. -/
def disconnect (a : Attempt) : Attempt := { a with cancelled := a.cancelled || a.answers = 0 }

/-- Answered once, or cancelled -/
def Settled (a : Attempt) : Prop := a.cancelled = true ∨ a.answers = 1

/-- A disconnect settles every attempt that was not answered twice. -/
theorem Settled.disconnect {a : Attempt} (h : a.Settled) : a.disconnect.Settled := by
  obtain h | h := h
  · exact Or.inl (by simp [Attempt.disconnect, h])
  · exact Or.inr h

end Attempt

/-- The attempts, the last one first, after an entry of the log -/
def recordAttempt (as : List Attempt) : Note → List Attempt
  | .connect cb arg armed => ⟨cb, arg, armed, 0, false⟩ :: as
  | .connectCb cb arg _ => as.modifyHead fun a => a.answer cb arg
  | .disconnect => as.modifyHead Attempt.disconnect
  | _ => as

/-- The attempts in a log, the last one first -/
def attempts (log : List Note) : List Attempt := log.foldl recordAttempt []

@[simp] theorem attempts_append (log : List Note) (n : Note) :
    attempts (log ++ [n]) = recordAttempt (attempts log) n := by
  simp [attempts]

namespace Client

variable {cfg : UdsConfig} {s s' : Client}

/-- What `finish` and `isotp_received` log is not about an attempt. -/
@[simp] theorem attempts_isotpReceived (s : Client) (r : Option (Nat × Nat)) :
    attempts (s.isotpReceived r).log = attempts s.log := by
  cases r with
  | none => rfl
  | some r => simp [isotpReceived, recordAttempt]

@[simp] theorem attempts_finish (s : Client) (r : Option (Nat × Nat)) :
    attempts (s.finish r).log = attempts s.log := by
  simp [finish]

/-! ### The properties -/

/-- The last attempt waits for its answer. -/
def UnderWay (s : Client) (a : Attempt) : Prop :=
  (attempts s.log).head? = some a ∧ s.uds.state = .connecting ∧ a.answers = 0 ∧ a.cancelled = false

/-- **Every connect is answered once**: none that was not cancelled is answered twice, and between
events with no attempt under way each was answered. -/
def Answered (s : Client) : Prop :=
  ∀ a ∈ attempts s.log, a.cancelled = false →
    a.answers ≤ 1 ∧ (s.BetweenEvents → s.uds.state ≠ .connecting → a.answers = 1)

instance (s : Client) : Decidable s.Answered :=
  inferInstanceAs (Decidable (∀ a ∈ _, _ → _ ∧ (_ → _ → _)))

/-- A `connect_try` entry of an attempt that is over -/
def Leftover (s : Client) (e : Timeout UdsHandler Ptr) : Prop :=
  e.handler = .connectTry ∧ ∀ a, s.UnderWay a → e.stamp < a.start

/-- A retry that is left over from a finished attempt calls nobody, sends nothing and changes
nothing. -/
def LeftoverQuiet (cfg : UdsConfig) (s : Client) (ev : Event) : Prop :=
  ∀ send e t', ev = .timer send → s.timeouts.expire s.now = some (e, t') → s.Leftover e →
    (s.next cfg ev).log = s.log ∧ (s.next cfg ev).uds = s.uds

/-! ### The steps that go well -/

/-- A retry is pending. -/
def retryPending (s : Client) : Bool := s.timeouts.nextTimeout.any (·.handler = .connectTry)

/-- The innermost callback is the `connect_cb` of the last attempt. -/
def Answering (s : Client) : Prop := s.stack.head?.map Frame.connect = some (some s.connects)

instance (s : Client) : Decidable s.Answering := inferInstanceAs (Decidable (_ = _))

/-- The timeout that is due does not take the attempt out of `UDS_CONNECTING` in a wrong way: the
attempt's last `connect_try` is its only one, and P2* does not run unless it calls back. -/
def OrderlyTimeout (s : Client) (send : Lwcanerr) : List (Timeout UdsHandler Ptr) → Prop
  | [] => True
  | e :: rest =>
    (e.handler = .connectTry → s.LastTry send → rest.all (·.handler ≠ .connectTry)) ∧
      (e.handler = .p2StarTimerHandler → s.uds.state = .connecting →
        s.uds.context.any (·.error))

instance (s : Client) (send : Lwcanerr) :
    (ts : List (Timeout UdsHandler Ptr)) → Decidable (s.OrderlyTimeout send ts)
  | [] => inferInstanceAs (Decidable True)
  | _ :: _ => inferInstanceAs (Decidable ((_ → _ → _) ∧ (_ → _ → _)))

/-- While an attempt is under way there is no first frame; a message or a disconnect comes only with
no retry pending; P2* calls back or does not run; a callback that returns is the attempt's own, and
`uds_client_init` is called from there if at all. -/
def Orderly (s : Client) : Event → Prop
  | .receive _ _ _ => s.uds.state = .connecting → s.retryPending = false
  | .receiveFf _ => s.uds.state ≠ .connecting
  | .timer send => s.OrderlyTimeout send s.timeouts.nextTimeout
  | .ret => s.uds.state = .connecting → s.Answering
  | .call (.udsClientInit (some _)) => s.uds.state = .connecting → s.Answering
  | .call .udsClientDisconnect =>
    s.uds.isConnected → s.uds.state = .connecting → s.retryPending = false
  | _ => True

instance (s : Client) : (e : Event) → Decidable (s.Orderly e)
  | .receive _ _ _ => inferInstanceAs (Decidable (_ → _))
  | .receiveFf _ => inferInstanceAs (Decidable (_ ≠ _))
  | .timer _ => inferInstanceAs (Decidable (s.OrderlyTimeout _ _))
  | .ret => inferInstanceAs (Decidable (_ → _))
  | .call (.udsClientInit (some _)) => inferInstanceAs (Decidable (_ → _))
  | .call .udsClientDisconnect => inferInstanceAs (Decidable (_ → _ → _))
  | .call (.udsClientInit none) | .call .udsClientDeinit | .call (.udsClientConnect _ _ _ _)
  | .call (.udsSetContext _ _) | .call (.udsSetP2Timer _) | .call (.udsSetP2StarTimer _)
  | .call (.udsSendRequest _ _ _) | .call (.lwcanTimeout _ _ _) | .call (.lwcanUntimeout _ _)
  | .sent _ | .error _ _ | .tick _ => inferInstanceAs (Decidable True)

/-! ### The invariant -/

/-- Every attempt is settled, and no retry is pending. -/
structure AllSettled (s : Client) : Prop where
  recorded : ∀ a ∈ attempts s.log, a.Settled
  retry : ∀ e ∈ s.timeouts.nextTimeout, e.handler ≠ .connectTry

/-- The last attempt is under way, and every retry is its own. -/
structure Trying (s : Client) (a : Attempt) (rest : List Attempt) : Prop where
  recorded : attempts s.log = a :: rest
  rest : ∀ b ∈ rest, b.Settled
  state : s.uds.state = .connecting
  answers : a.answers = 0
  cancelled : a.cancelled = false
  cb : s.uds.connectCb = a.cb
  arg : s.uds.connectCbArg = a.arg
  start : a.start ≤ s.timeouts.armed
  retry : ∀ e ∈ s.timeouts.nextTimeout, e.handler = .connectTry → a.start ≤ e.stamp
  /-- No callback that is running answers it. -/
  frames : ∀ f ∈ s.stack, f.connect ≠ some s.connects

/-- **The invariant.** -/
structure ConnectInv (s : Client) : Prop where
  frames : ∀ f ∈ s.stack, ∀ k ∈ f.connect, k ≤ s.connects
  mode : (s.AllSettled ∧ (s.uds.state = .connecting → s.Answering)) ∨ ∃ a rest, s.Trying a rest

theorem ConnectInv.initial : ConnectInv (powerUp cfg) where
  frames := fun _ h => absurd h List.not_mem_nil
  mode := Or.inl ⟨⟨fun _ h => absurd h List.not_mem_nil, fun _ h => absurd h List.not_mem_nil⟩,
    fun h => by cases h⟩

/-! ### Steps with every attempt settled -/

/-- From `s` to `s'` nothing happens to the attempts, and none is under way at the end. -/
structure Rests (s s' : Client) : Prop where
  recorded : attempts s'.log = attempts s.log
  connects : s'.connects = s.connects
  state : s'.uds.state ≠ .connecting
  frames : ∀ f ∈ s'.stack, f ∈ s.stack ∨ f.connect = none
  retry : ∀ e ∈ s'.timeouts.nextTimeout, e ∈ s.timeouts.nextTimeout ∨ e.handler ≠ .connectTry

theorem AllSettled.rests (h : s.AllSettled) (hr : Rests s s') : s'.AllSettled := by
  refine ⟨hr.recorded ▸ h.recorded, fun e he => ?_⟩
  obtain he | he := hr.retry e he
  · exact h.retry e he
  · exact he

/-- **A step that leaves the attempts alone** keeps the invariant. -/
theorem ConnectInv.rests (h : s.ConnectInv) (hs : s.AllSettled) (hr : Rests s s') :
    s'.ConnectInv := by
  refine ⟨fun f hf k hk => ?_, Or.inl ⟨hs.rests hr, fun hc => absurd hc hr.state⟩⟩
  rw [hr.connects]
  obtain hf | hf := hr.frames f hf
  · exact h.frames f hf k hk
  · rw [hf] at hk
    cases hk

theorem Rests.refl (h : s.uds.state ≠ .connecting) : Rests s s :=
  ⟨rfl, rfl, h, fun _ hf => Or.inl hf, fun _ he => Or.inl he⟩

theorem Rests.trans {s'' : Client} (h : Rests s s') (h' : Rests s' s'') : Rests s s'' where
  recorded := h'.recorded.trans h.recorded
  connects := h'.connects.trans h.connects
  state := h'.state
  frames := by
    intro f hf
    obtain hf | hf := h'.frames f hf
    · exact h.frames f hf
    · exact Or.inr hf
  retry := by
    intro e he
    obtain he | he := h'.retry e he
    · exact h.retry e he
    · exact Or.inr he

/-- An entry of the log that is not about an attempt -/
theorem Rests.emit {n : Note} (h : s.uds.state ≠ .connecting)
    (hn : ∀ as, recordAttempt as n = as) : Rests s (s.emit n) :=
  ⟨by simp [hn], rfl, h, fun _ hf => Or.inl hf, fun _ he => Or.inl he⟩

theorem Rests.setState {state : UdsStateT} (h : state ≠ .connecting) :
    Rests s (s.setState state) :=
  ⟨rfl, rfl, h, fun _ hf => Or.inl hf, fun _ he => Or.inl he⟩

theorem Rests.finish (s : Client) (r : Option (Nat × Nat)) : Rests s (s.finish r) :=
  ⟨by simp, by simp, by simp, fun _ hf => Or.inl (by simpa using hf),
    fun _ he => Or.inl (by simpa using he)⟩

theorem Rests.isotpReceived (h : s.uds.state ≠ .connecting) (r : Option (Nat × Nat)) :
    Rests s (s.isotpReceived r) :=
  ⟨by simp, by simp, by simpa using h, fun _ hf => Or.inl (by simpa using hf),
    fun _ he => Or.inl (by simpa using he)⟩

theorem Rests.lwcanTimeout (h : s.uds.state ≠ .connecting) (ms : Nat) {hd : UdsHandler}
    (hhd : hd ≠ .connectTry) : Rests s (s.lwcanTimeout ms hd) := by
  refine ⟨rfl, rfl, h, fun _ hf => Or.inl hf, fun e he => ?_⟩
  obtain he | ⟨hh, -⟩ := Timeouts.mem_lwcanTimeout he
  · exact Or.inl he
  · exact Or.inr (hh ▸ hhd)

theorem Rests.lwcanUntimeout (h : s.uds.state ≠ .connecting) (hd : UdsHandler) :
    Rests s (s.lwcanUntimeout hd) :=
  ⟨rfl, rfl, h, fun _ hf => Or.inl hf, fun _ he => Or.inl (Timeouts.mem_of_mem_lwcanUntimeout he)⟩

theorem Rests.callContext (h : s.uds.state ≠ .connecting) (callback : UdsContext → Bool) {n : Note}
    (hn : ∀ as, recordAttempt as n = as) (r : Option (Nat × Nat)) :
    Rests s (s.callContext callback n r) := by
  obtain ⟨-, hc⟩ | ⟨-, hc⟩ := s.callContext_cases callback n r
  · rw [hc]
    refine ⟨by simp [hn], rfl, h, fun f hf => ?_, fun _ he => Or.inl he⟩
    obtain rfl | hf := List.mem_cons.mp hf
    · exact Or.inr rfl
    · exact Or.inl hf
  · rw [hc]
    exact Rests.finish s r

theorem Rests.untimeoutResponse (h : s.uds.state ≠ .connecting) : Rests s s.untimeoutResponse := by
  unfold Client.untimeoutResponse
  split
  · exact Rests.lwcanUntimeout h _
  · exact Rests.lwcanUntimeout h _
  · exact Rests.refl h

/-- Anything that changes neither the log, the stack nor the timeouts -/
theorem Rests.of_eq (hl : s'.log = s.log) (hc : s'.connects = s.connects) (hst : s'.stack = s.stack)
    (ht : s'.timeouts = s.timeouts) (h : s'.uds.state ≠ .connecting) : Rests s s' :=
  ⟨by rw [hl], hc, h, fun _ hf => Or.inl (hst ▸ hf), fun _ he => Or.inl (ht ▸ he)⟩

theorem Rests.handleNegativeResponse (h : s.uds.state ≠ .connecting) (b : LwcanBuffer)
    (r : Nat × Nat) : Rests s (s.handleNegativeResponse b r) := by
  unfold Client.handleNegativeResponse
  rw [if_neg h]
  split
  · have he := Rests.emit (n := .read udsNrcOffset b.length) h fun _ => rfl
    refine he.trans ((Rests.setState ?_).trans
      ((Rests.lwcanTimeout ?_ _ ?_).trans (Rests.isotpReceived ?_ _))) <;> simp
  · dsimp only
    refine (Rests.emit (n := .read udsNrcOffset b.length) h fun _ => rfl).trans ?_
    split
    · have hsid := Rests.emit (s := s.emit (.read udsNrcOffset b.length))
        (n := .read udsRejectedSidOffset b.length) h fun _ => rfl
      have hnrc := Rests.emit (n := .read udsNrcOffset b.length) hsid.state fun _ => rfl
      exact hsid.trans (hnrc.trans (Rests.callContext hnrc.state _ (fun _ => rfl) _))
    · exact Rests.finish _ _

theorem Rests.handlePositiveResponse (h : s.uds.state ≠ .connecting) (b : LwcanBuffer)
    (r : Nat × Nat) : Rests s (s.handlePositiveResponse b r) := by
  unfold Client.handlePositiveResponse
  rw [if_neg h]
  exact Rests.callContext h _ (fun _ => rfl) _

theorem Rests.udsReceive (h : s.uds.state ≠ .connecting) (pcb buffer : Nat) (b : LwcanBuffer) :
    Rests s (s.udsReceive pcb buffer b) := by
  unfold Client.udsReceive
  split
  · exact Rests.isotpReceived h _
  · have hu : s.untimeoutReceive = s.untimeoutResponse := by
      unfold Client.untimeoutReceive
      split
      · next hc => exact absurd hc h
      · rfl
    rw [hu]
    have hr := Rests.untimeoutResponse h
    have he := Rests.emit (n := .read udsSidOffset b.length) hr.state fun _ => rfl
    refine hr.trans (he.trans ?_)
    split
    · exact Rests.handleNegativeResponse he.state b _
    · exact Rests.handlePositiveResponse he.state b _

theorem Rests.udsReceiveFf (h : s.uds.state ≠ .connecting) : Rests s s.udsReceiveFf := by
  unfold Client.udsReceiveFf
  split
  · exact Rests.refl h
  · exact (Rests.untimeoutResponse h).trans (Rests.setState (by simp))

theorem Rests.udsSent (h : s.uds.state ≠ .connecting) : Rests s (s.udsSent cfg) := by
  unfold Client.udsSent
  rw [if_neg h]
  split
  · exact Rests.refl h
  · have hw : Rests s (if s.uds.withResponse ≠ 0 then
        (s.setState .waitResponse).lwcanTimeout s.uds.p2 .p2TimerHandler
        else s.setState .idle) := by
      split
      · exact (Rests.setState (by simp)).trans (Rests.lwcanTimeout (by simp) _ (by simp))
      · exact Rests.setState (by simp)
    have hu := Rests.lwcanUntimeout hw.state .s3TimerHandler
    exact hw.trans (hu.trans (Rests.lwcanTimeout hu.state _ (by simp)))

theorem Rests.udsError (h : s.uds.state ≠ .connecting) (err : Lwcanerr) :
    Rests s (s.udsError cfg err) := by
  unfold Client.udsError
  rw [if_neg h]
  split
  · exact Rests.refl h
  · have hr := Rests.untimeoutResponse h
    exact hr.trans (Rests.callContext hr.state _ (fun _ => rfl) _)

theorem Rests.udsSendRequest (h : s.uds.state ≠ .connecting) (request : Option (List UInt8))
    (withResponse : UInt8) (ret : Lwcanerr) :
    Rests s (s.udsSendRequest request withResponse ret).2 := by
  obtain ⟨-, hc⟩ | ⟨_, -, -, -, -, hc⟩ := s.udsSendRequest_cases request withResponse ret
  · rw [hc]
    exact Rests.refl h
  · rw [hc]
    exact ⟨by simp [recordAttempt], rfl, by simp, fun _ hf => Or.inl hf, fun _ he => Or.inl he⟩

/-! ### Steps with an attempt under way -/

section Trying

variable {a : Attempt} {rest : List Attempt}

/-- An answer settles the attempt. -/
theorem Trying.callConnectCb (h : s.Trying a rest) (hno : ∀ e ∈ s.timeouts.nextTimeout,
    e.handler ≠ .connectTry) (err : Lwcanerr) (r : Option (Nat × Nat)) :
    (s.callConnectCb err r).AllSettled ∧ (s.callConnectCb err r).Answering := by
  refine ⟨⟨fun b hb => ?_, hno⟩, rfl⟩
  have ha : attempts (s.callConnectCb err r).log = { a with answers := 1 } :: rest := by
    simp [recordAttempt, h.recorded, Attempt.answer, h.cb, h.arg, h.answers]
  rw [ha] at hb
  obtain rfl | hb := List.mem_cons.mp hb
  · exact Or.inr rfl
  · exact h.rest b hb

/-- The attempt is under way as long as the client stays in `UDS_CONNECTING` and calls nobody. -/
theorem Trying.congr (h : s.Trying a rest) (hlog : attempts s'.log = attempts s.log)
    (hstate : s'.uds.state = .connecting) (hcb : s'.uds.connectCb = s.uds.connectCb)
    (harg : s'.uds.connectCbArg = s.uds.connectCbArg)
    (harmed : s.timeouts.armed ≤ s'.timeouts.armed)
    (hretry : ∀ e ∈ s'.timeouts.nextTimeout, e ∈ s.timeouts.nextTimeout ∨
      e.stamp = s.timeouts.armed)
    (hframes : ∀ f ∈ s'.stack, f ∈ s.stack ∨ f.connect = none)
    (hconnects : s'.connects = s.connects) : s'.Trying a rest where
  recorded := hlog.trans h.recorded
  rest := h.rest
  state := hstate
  answers := h.answers
  cancelled := h.cancelled
  cb := hcb.trans h.cb
  arg := harg.trans h.arg
  start := h.start.trans harmed
  retry := by
    intro e he hc
    -- an entry armed meanwhile is newer than the attempt
    obtain he | he := hretry e he
    · exact h.retry e he hc
    · exact he ▸ h.start
  frames := by
    intro f hf
    rw [hconnects]
    obtain hf | hf := hframes f hf
    · exact h.frames f hf
    · simp [hf]

/-- Arming an entry, a retry or not -/
theorem Trying.lwcanTimeout (h : s.Trying a rest) (ms : Nat) (hd : UdsHandler) :
    (s.lwcanTimeout ms hd).Trying a rest := by
  refine h.congr rfl h.state rfl rfl (Timeouts.armed_le_lwcanTimeout _ _ _ _ _) (fun e he => ?_)
    (fun _ hf => Or.inl hf) rfl
  obtain he | ⟨-, -, hs, -⟩ := Timeouts.mem_lwcanTimeout he
  · exact Or.inl he
  · exact Or.inr hs

/-- `connect_try` goes on with the attempt or answers it. -/
theorem Trying.connectTry (h : s.Trying a rest) {ret : Lwcanerr}
    (hno : s.LastTry ret → ∀ e ∈ s.timeouts.nextTimeout, e.handler ≠ .connectTry) :
    (s.connectTry ret).Trying a rest ∨
      (s.connectTry ret).AllSettled ∧ (s.connectTry ret).Answering := by
  have hsend : (s.sendTesterPresent ret).Trying a rest :=
    h.congr (by simp [recordAttempt]) h.state rfl rfl le_rfl (fun _ he => Or.inl he)
      (fun _ hf => Or.inl hf) rfl
  obtain ⟨hc, hn, hs⟩ | ⟨-, hr, hs⟩ | ⟨-, hs⟩ := s.connectTry_cases ret
  · rw [hs]
    exact Or.inr (h.callConnectCb (hno (Or.inl ⟨hc, hn⟩)) _ _)
  · rw [hs]
    exact Or.inr (hsend.callConnectCb (hno (Or.inr hr)) _ _)
  · rw [hs]
    exact Or.inl hsend

/-- The frames of `connect_try` are labelled with the connects so far. -/
theorem frames_connectTry (h : ∀ f ∈ s.stack, ∀ k ∈ f.connect, k ≤ s.connects) (ret : Lwcanerr) :
    ∀ f ∈ (s.connectTry ret).stack, ∀ k ∈ f.connect, k ≤ (s.connectTry ret).connects := by
  have hcall : ∀ f ∈ (⟨some s.connects, none⟩ : Frame) :: s.stack, ∀ k ∈ f.connect,
      k ≤ s.connects := by
    intro f hf k hk
    obtain rfl | hf := List.mem_cons.mp hf
    · obtain rfl : s.connects = k := by simpa using hk
      exact le_rfl
    · exact h f hf k hk
  obtain ⟨-, -, hs⟩ | ⟨-, -, hs⟩ | ⟨-, hs⟩ := s.connectTry_cases ret
  · rw [hs]
    exact hcall
  · rw [hs]
    exact hcall
  · rw [hs]
    exact h

/-- What the attempt's own `connect_try` leaves is the invariant. -/
theorem Trying.connectInv (h : s.Trying a rest)
    (hframes : ∀ f ∈ s.stack, ∀ k ∈ f.connect, k ≤ s.connects) {ret : Lwcanerr}
    (hno : s.LastTry ret → ∀ e ∈ s.timeouts.nextTimeout, e.handler ≠ .connectTry) :
    (s.connectTry ret).ConnectInv := by
  refine ⟨frames_connectTry hframes ret, ?_⟩
  obtain ht | ⟨hs, ha⟩ := h.connectTry hno
  · exact Or.inr ⟨a, rest, ht⟩
  · exact Or.inl ⟨hs, fun _ => ha⟩

end Trying

/-! ### Every orderly step keeps the invariant -/

theorem retryPending_eq_false :
    s.retryPending = false ↔ ∀ e ∈ s.timeouts.nextTimeout, e.handler ≠ .connectTry := by
  simp [retryPending]

/-- Outside `UDS_CONNECTING` every attempt is settled. -/
theorem ConnectInv.settled (h : s.ConnectInv) (hs : s.uds.state ≠ .connecting) : s.AllSettled := by
  obtain ⟨hset, -⟩ | ⟨a, rest, ht⟩ := h.mode
  · exact hset
  · exact absurd ht.state hs

/-- So they are where `connect_cb` is running for the last one. -/
theorem ConnectInv.settled_of_answering (h : s.ConnectInv)
    (hs : s.uds.state = .connecting → s.Answering) : s.AllSettled := by
  obtain ⟨hset, -⟩ | ⟨a, rest, ht⟩ := h.mode
  · exact hset
  · obtain ⟨f, hf, hfc⟩ := Option.map_eq_some_iff.mp (hs ht.state)
    exact absurd hfc (ht.frames f (List.mem_of_mem_head? hf))

/-- Between events the client is out of `UDS_CONNECTING`, or an attempt is under way. -/
theorem ConnectInv.between (h : s.ConnectInv) (hb : s.stack = []) :
    s.uds.state ≠ .connecting ∨ ∃ a rest, s.Trying a rest := by
  obtain ⟨-, ha⟩ | ht := h.mode
  · refine Or.inl fun hc => ?_
    have := ha hc
    simp [Answering, hb] at this
  · exact Or.inr ht

/-- A change of the timeout list or the clock that arms no retry -/
theorem ConnectInv.congr (h : s.ConnectInv) (hlog : s'.log = s.log) (huds : s'.uds = s.uds)
    (hstack : s'.stack = s.stack) (hconnects : s'.connects = s.connects)
    (harmed : s.timeouts.armed ≤ s'.timeouts.armed)
    (hretry : ∀ e ∈ s'.timeouts.nextTimeout, e ∈ s.timeouts.nextTimeout ∨
      e.handler ≠ .connectTry) : s'.ConnectInv := by
  refine ⟨by rw [hstack, hconnects]; exact h.frames, ?_⟩
  -- either way the attempt is the same, and so are its retries
  obtain ⟨hs, ha⟩ | ⟨a, rest, ht⟩ := h.mode
  · refine Or.inl ⟨⟨hlog ▸ hs.recorded, fun e he => ?_⟩, fun hc => ?_⟩
    · obtain he | he := hretry e he
      · exact hs.retry e he
      · exact he
    · unfold Answering
      rw [hstack, hconnects]
      exact ha (huds ▸ hc)
  · refine Or.inr ⟨a, rest, ⟨hlog ▸ ht.recorded, ht.rest, huds ▸ ht.state, ht.answers, ht.cancelled,
      huds ▸ ht.cb, huds ▸ ht.arg, ht.start.trans harmed, fun e he hc => ?_, ?_⟩⟩
    · obtain he | he := hretry e he
      · exact ht.retry e he hc
      · exact absurd hc he
    · rw [hstack, hconnects]
      exact ht.frames

/-- A disconnect settles the last attempt. -/
theorem ConnectInv.udsClientDisconnect (h : s.ConnectInv)
    (ho : s.uds.isConnected → s.uds.state = .connecting → s.retryPending = false) :
    (s.udsClientDisconnect cfg).ConnectInv := by
  obtain ⟨-, hd⟩ | ⟨hconn, hd⟩ := s.udsClientDisconnect_cases cfg
  · rw [hd]
    exact h
  · rw [hd]
    -- no retry is pending, so none is left over
    have hno : ∀ e ∈ s.timeouts.nextTimeout, e.handler ≠ .connectTry := by
      by_cases hs : s.uds.state = .connecting
      · exact retryPending_eq_false.mp (ho hconn hs)
      · exact (h.settled hs).retry
    -- the last attempt is settled, or is cancelled before its answer
    have hrec : ∀ a ∈ (attempts s.log).modifyHead Attempt.disconnect, a.Settled := by
      obtain ⟨hs, -⟩ | ⟨a, rest, ht⟩ := h.mode
      · cases hl : attempts s.log with
        | nil => simp
        | cons a rest =>
          rw [List.modifyHead_cons]
          intro b hb
          obtain rfl | hb := List.mem_cons.mp hb
          · exact (hs.recorded a (hl ▸ List.mem_cons_self)).disconnect
          · exact hs.recorded b (hl ▸ List.mem_cons_of_mem _ hb)
      · rw [ht.recorded, List.modifyHead_cons]
        intro b hb
        obtain rfl | hb := List.mem_cons.mp hb
        · exact Or.inl (by simp [Attempt.disconnect, ht.answers])
        · exact ht.rest b hb
    refine ⟨h.frames, Or.inl ⟨⟨?_, fun e he => hno e ?_⟩, fun hc => by cases hc⟩⟩
    · simpa [recordAttempt] using hrec
    · exact Timeouts.mem_of_mem_lwcanUntimeout (Timeouts.mem_of_mem_lwcanUntimeout
        (Timeouts.mem_of_mem_lwcanUntimeout he))

/-- An accepted connect is a new attempt. -/
theorem ConnectInv.udsClientConnect (h : s.ConnectInv) (cb : Option Nat) (arg : Ptr)
    (bind send : Lwcanerr) : (s.udsClientConnect cfg cb arg bind send).2.ConnectInv := by
  obtain ⟨-, hc⟩ | ⟨hs, hc⟩ := s.udsClientConnect_cases cfg cb arg bind send
  · rw [hc]
    exact h
  · rw [hc]
    have hset := h.settled (by simp [hs])
    refine @Trying.connectInv _ ⟨cb, arg, s.timeouts.armed, 0, false⟩ (attempts s.log) ?_ ?_ _ ?_
    · refine ⟨by simp [recordAttempt], hset.recorded, rfl, rfl, rfl, rfl, rfl, le_rfl,
        fun e he hc => absurd hc (hset.retry e he), fun f hf hc => ?_⟩
      -- the callbacks that are running are those of earlier connects
      have hle := h.frames f hf (s.connects + 1) hc
      omega
    · exact fun f hf k hk => Nat.le_succ_of_le (h.frames f hf k hk)
    · exact fun _ => hset.retry

theorem ConnectInv.lwcanTimeout_other (h : s.ConnectInv) (ms n : Nat) (arg : Ptr) :
    (s.call cfg (.lwcanTimeout ms n arg)).ConnectInv := by
  refine h.congr rfl rfl rfl rfl (Timeouts.armed_le_lwcanTimeout _ _ _ _ _) fun e he => ?_
  obtain he | ⟨hh, -⟩ := Timeouts.mem_lwcanTimeout he
  · exact Or.inl he
  · exact Or.inr (by simp [hh])

theorem ConnectInv.lwcanUntimeout_other (h : s.ConnectInv) (n : Nat) (arg : Ptr) :
    (s.call cfg (.lwcanUntimeout n arg)).ConnectInv :=
  h.congr rfl rfl rfl rfl (by simp [Client.call]) fun _ he =>
    Or.inl (Timeouts.mem_of_mem_lwcanUntimeout he)

/-- **The calls.** -/
theorem ConnectInv.call (h : s.ConnectInv) {c : Call} (ho : s.Orderly (.call c)) :
    (s.call cfg c).ConnectInv := by
  by_cases hs : s.uds.state = .idle
  · -- an idle client has no attempt under way
    have hset := h.settled (by simp [hs])
    cases c with
    | udsClientInit isotpPcb =>
      cases isotpPcb with
      | none => exact h
      | some p => exact h.rests hset (Rests.of_eq rfl rfl rfl rfl UdsStateT.noConfusion)
    | udsClientDeinit =>
      obtain ⟨hne, -⟩ | ⟨-, -, hd⟩ := s.udsClientDeinit_cases
      · exact absurd hs hne
      · simp only [Client.call, hd]
        refine h.rests hset ⟨rfl, rfl, UdsStateT.noConfusion, fun _ hf => Or.inl hf, fun e he =>
          Or.inl ?_⟩
        dsimp only at he
        split at he
        · exact Timeouts.mem_of_mem_lwcanUntimeout he
        · exact he
    | udsClientConnect cb arg bind send => exact h.udsClientConnect cb arg bind send
    | udsClientDisconnect => exact h.udsClientDisconnect ho
    | udsSetContext context handle =>
      simp only [Client.call, Client.udsSetContext, hs]
      exact h.rests hset (Rests.of_eq rfl rfl rfl rfl (by simp))
    | udsSetP2Timer time =>
      simp only [Client.call, Client.udsSetP2Timer, hs]
      exact h.rests hset (Rests.of_eq rfl rfl rfl rfl (by simp))
    | udsSetP2StarTimer time =>
      simp only [Client.call, Client.udsSetP2StarTimer, hs]
      exact h.rests hset (Rests.of_eq rfl rfl rfl rfl (by simp))
    | udsSendRequest request withResponse send =>
      exact h.rests hset (Rests.udsSendRequest (by simp [hs]) request withResponse send)
    | lwcanTimeout ms n arg => exact h.lwcanTimeout_other ms n arg
    | lwcanUntimeout n arg => exact h.lwcanUntimeout_other n arg
  · cases hc : c.acts with
    | false =>
      -- a busy client refuses what does not act in any state
      rw [call_eq_self cfg hs hc]
      exact h
    | true =>
      cases c with
      | udsClientInit isotpPcb =>
        cases isotpPcb with
        | none => exact h
        | some p =>
          exact h.rests (h.settled_of_answering ho)
            (Rests.of_eq rfl rfl rfl rfl UdsStateT.noConfusion)
      | udsClientDisconnect => exact h.udsClientDisconnect ho
      | lwcanTimeout ms n arg => exact h.lwcanTimeout_other ms n arg
      | lwcanUntimeout n arg => exact h.lwcanUntimeout_other n arg
      | _ => cases hc

/-- **A timeout with no attempt under way** is no retry, and leaves the client without one. -/
theorem ConnectInv.runHandler_settled (h : s.ConnectInv) (hs : s.uds.state ≠ .connecting)
    {handler : UdsHandler} (hne : handler ≠ .connectTry) (send : Lwcanerr) :
    (s.runHandler cfg handler send).ConnectInv := by
  refine h.rests (h.settled hs) ?_
  unfold runHandler
  split
  · exact absurd rfl hne
  · unfold s3TimerHandler
    split
    · exact Rests.udsSendRequest hs _ _ _
    · exact Rests.of_eq rfl rfl rfl rfl hs
  · unfold p2TimerHandler
    rw [if_neg hs]
    exact Rests.callContext hs _ (fun _ => rfl) _
  · exact Rests.callContext hs _ (fun _ => rfl) _
  · exact Rests.refl hs

/-- P2* calls back, and the attempt stays under way. -/
theorem Trying.p2StarTimerHandler {a : Attempt} {rest : List Attempt} (ht : s.Trying a rest)
    (h : s.ConnectInv) (hstar : s.uds.context.any (·.error)) :
    s.p2StarTimerHandler.ConnectInv := by
  unfold Client.p2StarTimerHandler
  obtain ⟨-, hc⟩ | ⟨hno, -⟩ := Client.callContext_cases s (·.error)
    (.error s.uds.handle .receiveTimeout) none
  · have hframes : ∀ f ∈ (⟨none, none⟩ : Frame) :: s.stack, f ∈ s.stack ∨ f.connect = none := by
      intro f hf
      obtain rfl | hf := List.mem_cons.mp hf
      · exact Or.inr rfl
      · exact Or.inl hf
    rw [hc]
    refine ⟨?_, Or.inr ⟨a, rest, ?_⟩⟩
    · intro f hf k hk
      obtain hf | hf := hframes f hf
      · exact h.frames f hf k hk
      · rw [hf] at hk
        cases hk
    · exact ht.congr (by simp [recordAttempt]) ht.state rfl rfl le_rfl
        (fun _ he => Or.inl he) hframes rfl
  · rw [hno] at hstar
    cases hstar

/-- **A timeout with an attempt under way** -/
theorem Trying.runHandler {a : Attempt} {rest : List Attempt} (ht : s.Trying a rest)
    (h : s.ConnectInv) {handler : UdsHandler} {send : Lwcanerr}
    (hretry : handler = .connectTry → s.LastTry send →
      ∀ e ∈ s.timeouts.nextTimeout, e.handler ≠ .connectTry)
    (hstar : handler = .p2StarTimerHandler → s.uds.context.any (·.error)) :
    (s.runHandler cfg handler send).ConnectInv := by
  unfold Client.runHandler
  split
  · exact ht.connectInv h.frames (hretry rfl)
  · unfold s3TimerHandler
    split
    · obtain ⟨-, hc⟩ | ⟨_, -, -, -, hidle, -⟩ := Client.udsSendRequest_cases
        s (some [udsTesterPresentSid, cfg.keepSessionSuppress]) 0 send
      · rw [hc]
        exact h
      · -- S3 sends only for an idle client
        rw [ht.state] at hidle
        cases hidle
    · exact ⟨h.frames, Or.inr ⟨a, rest, ht.congr rfl ht.state rfl rfl le_rfl
        (fun _ he => Or.inl he) (fun _ hf => Or.inl hf) rfl⟩⟩
  · unfold p2TimerHandler
    rw [if_pos ht.state]
    -- P2 is replaced by a retry of the same attempt
    exact ⟨h.frames, Or.inr ⟨a, rest, ht.lwcanTimeout _ _⟩⟩
  · exact ht.p2StarTimerHandler h (hstar rfl)
  · exact h

/-- **The timeouts.** -/
theorem ConnectInv.timer (h : s.ConnectInv) (hb : s.stack = []) {send : Lwcanerr}
    (ho : s.Orderly (.timer send)) : (s.next cfg (.timer send)).ConnectInv := by
  simp only [Client.next]
  split
  · exact h
  · next e t' he =>
    obtain ⟨hl, ha⟩ := Timeouts.expire_eq_some he
    simp only [Orderly, hl, OrderlyTimeout] at ho
    obtain ⟨hretry, hstar⟩ := ho
    have hmem : ∀ e' ∈ t'.nextTimeout, e' ∈ s.timeouts.nextTimeout :=
      fun e' he' => hl ▸ List.mem_cons_of_mem _ he'
    have h' : ConnectInv { s with timeouts := t' } :=
      h.congr rfl rfl rfl rfl ha.ge fun e' he' => Or.inl (hmem e' he')
    obtain hs | ⟨a, rest, ht⟩ := h'.between hb
    · -- no attempt is under way, so the entry is not a retry
      have hne : e.handler ≠ .connectTry := (h.settled hs).retry e (hl ▸ List.mem_cons_self)
      exact h'.runHandler_settled hs hne send
    · refine ht.runHandler h' (fun hh hlast e' he' => ?_) fun hh => hstar hh ht.state
      have hall := hretry hh hlast
      simp only [List.all_eq_true, decide_eq_true_eq] at hall
      exact hall e' he'

/-- **The callbacks of ISO-TP** with an attempt under way. -/
theorem ConnectInv.receive (h : s.ConnectInv) (hb : s.stack = []) {pcb buffer : Nat}
    {b : LwcanBuffer} (ho : s.Orderly (.receive pcb buffer b)) :
    (s.udsReceive pcb buffer b).ConnectInv := by
  obtain hs | ⟨a, rest, ht⟩ := h.between hb
  · exact h.rests (h.settled hs) (Rests.udsReceive hs pcb buffer b)
  · have hno := retryPending_eq_false.mp (ho ht.state)
    -- P2 is cancelled and the message is the answer, whatever it says
    have hcancel : (s.lwcanUntimeout .p2TimerHandler).Trying a rest :=
      ht.congr rfl ht.state rfl rfl (by simp)
        (fun _ he => Or.inl (Timeouts.mem_of_mem_lwcanUntimeout he)) (fun _ hf => Or.inl hf) rfl
    have hread : ((s.lwcanUntimeout .p2TimerHandler).emit (.read udsSidOffset b.length)).Trying a
        rest :=
      hcancel.congr (by simp [recordAttempt]) ht.state rfl rfl le_rfl (fun _ he => Or.inl he)
        (fun _ hf => Or.inl hf) rfl
    have hno' : ∀ e ∈ (s.timeouts.lwcanUntimeout UdsHandler.p2TimerHandler .null).nextTimeout,
        e.handler ≠ .connectTry :=
      fun e he => hno e (Timeouts.mem_of_mem_lwcanUntimeout he)
    have hframes : ∀ f ∈ (⟨some s.connects, some (pcb, buffer)⟩ : Frame) :: s.stack,
        ∀ k ∈ f.connect, k ≤ s.connects := by
      rw [hb]
      simp
    rw [udsReceive_connecting ht.state]
    split
    · -- a negative response answers the attempt with `ERROR_ABORTED`
      obtain ⟨hset, hans⟩ := hread.callConnectCb hno' .aborted (some (pcb, buffer))
      exact ⟨hframes, Or.inl ⟨hset, fun _ => hans⟩⟩
    · have hconn : Trying { ((s.lwcanUntimeout .p2TimerHandler).emit
          (.read udsSidOffset b.length)) with uds := { s.uds with isConnected := true } } a rest :=
        hread.congr rfl ht.state rfl rfl le_rfl (fun _ he => Or.inl he) (fun _ hf => Or.inl hf) rfl
      obtain ⟨hset, hans⟩ := hconn.callConnectCb hno' .ok (some (pcb, buffer))
      exact ⟨hframes, Or.inl ⟨hset, fun _ => hans⟩⟩

/-- **Every orderly step keeps the invariant.** -/
theorem ConnectInv.step {e : Event} (h : s.ConnectInv) (ho : s.Orderly e)
    (hst : step cfg s e = some s') : s'.ConnectInv := by
  obtain ⟨hen, rfl⟩ := step_eq_some.mp hst
  cases e with
  | call c => exact h.call ho
  | receive pcb buffer b => exact h.receive (List.isEmpty_iff.mp hen.1) ho
  | receiveFf pcb => exact h.rests (h.settled ho) (Rests.udsReceiveFf ho)
  | sent pcb =>
    obtain hs | ⟨a, rest, ht⟩ := h.between (List.isEmpty_iff.mp hen.1)
    · exact h.rests (h.settled hs) (Rests.udsSent hs)
    · -- the Tester Present is sent: P2 is armed for its answer
      simp only [Client.next, udsSent, if_pos ht.state]
      exact ⟨h.frames, Or.inr ⟨a, rest, ht.lwcanTimeout _ _⟩⟩
  | error pcb err =>
    obtain hs | ⟨a, rest, ht⟩ := h.between (List.isEmpty_iff.mp hen.1)
    · exact h.rests (h.settled hs) (Rests.udsError hs err)
    · -- it was not sent: a retry is armed
      simp only [Client.next, udsError, if_pos ht.state]
      exact ⟨h.frames, Or.inr ⟨a, rest, ht.lwcanTimeout _ _⟩⟩
  | timer send => exact h.timer (List.isEmpty_iff.mp hen.1) ho
  | ret =>
    have hset := h.settled_of_answering ho
    simp only [Client.next]
    split
    · exact h
    · next f stack hstack =>
      refine h.rests hset
        ⟨by simp, by simp, by simp, fun f' hf' => Or.inl ?_, fun e he => Or.inl ?_⟩
      · rw [hstack]
        exact List.mem_cons_of_mem _ (by simpa using hf')
      · simpa using he
  | tick ms => exact h.congr rfl rfl rfl rfl le_rfl fun _ he => Or.inl he

/-! ### Runs -/

theorem ConnectInv.answered (h : s.ConnectInv) : s.Answered := by
  intro a ha hc
  obtain ⟨hs, -⟩ | ⟨b, rest, ht⟩ := h.mode
  · obtain hset | hset := hs.recorded a ha
    · rw [hc] at hset
      cases hset
    · exact ⟨hset.le, fun _ _ => hset⟩
  · rw [ht.recorded] at ha
    obtain rfl | ha := List.mem_cons.mp ha
    · exact ⟨by simp [ht.answers], fun _ hs => absurd ht.state hs⟩
    · obtain hset | hset := ht.rest a ha
      · rw [hc] at hset
        cases hset
      · exact ⟨hset.le, fun _ _ => hset⟩

/-- No retry outlives its attempt. -/
theorem ConnectInv.not_leftover (h : s.ConnectInv) {e : Timeout UdsHandler Ptr}
    (he : e ∈ s.timeouts.nextTimeout) : ¬s.Leftover e := by
  rintro ⟨hh, hl⟩
  obtain ⟨hs, -⟩ | ⟨a, rest, ht⟩ := h.mode
  · exact hs.retry e he hh
  · have hlt := hl a ⟨by rw [ht.recorded]; rfl, ht.state, ht.answers, ht.cancelled⟩
    have hle := ht.retry e he hh
    omega

/-- **Each connect is answered once** in every orderly run, and a retry of a finished attempt does
nothing. -/
theorem connect_once (cfg : UdsConfig) (es : List Event) (h : RunAlong cfg Orderly es) :
    RunAlong cfg (LeftoverQuiet cfg) es ∧ ∀ s, Run cfg es s → s.Answered := by
  constructor
  · have hall : RunAlong cfg (fun s _ => s.ConnectInv) es :=
      Runs.along_inv (fun _ _ _ hi ho hst => hi.step ho hst) ConnectInv.initial h
    refine hall.mono fun s ev hi send e t' _ he hl => ?_
    have hmem : e ∈ s.timeouts.nextTimeout := by
      rw [(Timeouts.expire_eq_some he).1]
      exact List.mem_cons_self
    exact absurd hl (hi.not_leftover hmem)
  · intro s hr
    exact (Runs.run_inv (fun _ _ _ hi ho hst => hi.step ho hst) ConnectInv.initial h hr).answered

/-- A connect that the server answers after the first Tester Present -/
def connectRun : List Event :=
  [.call (.udsClientInit (some 0)), .call (.udsClientConnect (some 1) .null .ok .ok), .sent 0,
    .receive 0 5 ⟨0, 2, fun i => if i = 0 then 0x7E else 0⟩, .ret]

theorem connect_once_connectRun :
    RunAlong .default (LeftoverQuiet .default) connectRun ∧
      ∀ s, Run .default connectRun s → s.Answered :=
  connect_once .default connectRun (by decide)

/-- A server that answers a Tester Present with a segmented message takes the attempt out of
`UDS_CONNECTING`, and nobody answers it. -/
theorem connect_unanswered :
    ¬∀ (cfg : UdsConfig) (es : List Event),
      RunAlong cfg (LeftoverQuiet cfg) es ∧ ∀ s, Run cfg es s → s.Answered := by
  intro h
  obtain ⟨s, hr, hs⟩ := Runs.exists_run (step .default) (powerUp .default)
    [.call (.udsClientInit (some 0)), .call (.udsClientConnect (some 1) .null .ok .ok), .sent 0,
      .receiveFf 0] (fun s => ¬s.Answered) (by decide)
  exact hs ((h .default _).2 s hr)

end Client
end Uds
end Lwcan
