import Lwcan.Uds.Steps

/-!
# Reading and releasing responses

What ISO-TP delivers may have any length and begin with any byte. `uds_receive` should read it only
up to its length, and hand every buffer back once.

* `reads`, `releases` — the reads of payloads and the calls of `isotp_received` in the log;
* `reads_udsReceive` — what `uds_receive` reads;
* `received_next`, `received_run` — what is delivered is handed back, or will be by a callback that
  is running;
* `responses_inside_iff` — every message is released once, and it is read within its length if and
  only if it is no negative response that is awaited and too short for its code.
-/

namespace Lwcan
namespace Uds

/-- The offset that is read, and the length of the message -/
def Note.read? : Note → Option (Nat × Nat)
  | .read i length => some (i, length)
  | _ => none

/-- The pcb and the buffer that are handed back -/
def Note.release? : Note → Option (Nat × Nat)
  | .isotpReceived pcb buffer => some (pcb, buffer)
  | _ => none

/-- The reads of payloads -/
def reads (log : List Note) : List (Nat × Nat) := log.filterMap Note.read?

/-- The buffers that were handed back, in order -/
def releases (log : List Note) : List (Nat × Nat) := log.filterMap Note.release?

/-- The message that an event delivers -/
def Event.delivery? : Event → Option (Nat × Nat)
  | .receive pcb buffer _ => some (pcb, buffer)
  | _ => none

/-- The messages that are delivered, in order -/
def deliveries (es : List Event) : List (Nat × Nat) := es.filterMap Event.delivery?

@[simp] theorem reads_append (log notes : List Note) : reads (log ++ notes) =
    reads log ++ reads notes :=
  List.filterMap_append

@[simp] theorem releases_append (log notes : List Note) :
    releases (log ++ notes) = releases log ++ releases notes :=
  List.filterMap_append

namespace Client

variable {cfg : UdsConfig} {s s' : Client} {e : Event} {es : List Event} {pcb buffer : Nat}
  {b : LwcanBuffer}

/-! ### Reads -/

@[simp] theorem reads_isotpReceived (s : Client) (r : Option (Nat × Nat)) :
    reads (s.isotpReceived r).log = reads s.log := by
  cases r with
  | none => rfl
  | some r => simp [isotpReceived, reads, Note.read?]

@[simp] theorem reads_finish (s : Client) (r : Option (Nat × Nat)) :
    reads (s.finish r).log = reads s.log := by
  simp [finish]

@[simp] theorem reads_callConnectCb (s : Client) (error : Lwcanerr) (r : Option (Nat × Nat)) :
    reads (s.callConnectCb error r).log = reads s.log := by
  simp [reads, Note.read?]

/-- A callback of the context reads nothing itself. -/
theorem reads_callContext (s : Client) (callback : UdsContext → Bool) {n : Note}
    (hn : n.read? = none) (r : Option (Nat × Nat)) :
    reads (s.callContext callback n r).log = reads s.log := by
  obtain ⟨-, h⟩ | ⟨-, h⟩ := s.callContext_cases callback n r
  · rw [h]
    simp [reads, hn]
  · rw [h, reads_finish]

/-- The offsets that a negative response is read at, behind its first byte -/
def nrcReads (s : Client) (b : LwcanBuffer) : List Nat :=
  if s.uds.state = .connecting then []
  else if b.data udsNrcOffset = udsResponsePendingNrc ∨ ¬s.uds.context.any (·.negativeResponse) then
    [udsNrcOffset]
  else [udsNrcOffset, udsRejectedSidOffset, udsNrcOffset]

theorem reads_handleNegativeResponse (s : Client) (b : LwcanBuffer) (r : Nat × Nat) :
    reads (s.handleNegativeResponse b r).log =
      reads s.log ++ (s.nrcReads b).map (·, b.length) := by
  unfold handleNegativeResponse nrcReads
  by_cases hc : s.uds.state = .connecting
  · rw [if_pos hc, if_pos hc, reads_callConnectCb]
    exact (List.append_nil _).symm
  rw [if_neg hc, if_neg hc]
  -- the code is read first; what else is read depends on it, and on who wants to know
  by_cases hp : b.data udsNrcOffset = udsResponsePendingNrc
  · rw [if_pos hp, if_pos (Or.inl hp), reads_isotpReceived]
    exact reads_append _ _
  rw [if_neg hp]
  dsimp only
  rw [emit_uds]
  by_cases hn : s.uds.context.any (·.negativeResponse) = true
  · rw [if_pos hn, if_neg (by simp [hp, hn]), reads_callContext _ _ rfl]
    simp [reads, Note.read?]
  · rw [if_neg hn, if_pos (Or.inr hn), reads_finish]
    exact reads_append _ _

/-- The offsets that `uds_receive` reads a message at -/
def messageReads (s : Client) (b : LwcanBuffer) : List Nat :=
  if s.uds.state = .idle then []
  else udsSidOffset :: if b.data udsSidOffset = udsNegativeResponseSid then s.nrcReads b else []

/-- **What `uds_receive` reads** -/
theorem reads_udsReceive (s : Client) (pcb buffer : Nat) (b : LwcanBuffer) :
    reads (s.udsReceive pcb buffer b).log =
      reads s.log ++ (s.messageReads b).map (·, b.length) := by
  unfold udsReceive messageReads
  by_cases hi : s.uds.state = .idle
  · rw [if_pos hi, if_pos hi, reads_isotpReceived]
    exact (List.append_nil _).symm
  rw [if_neg hi, if_neg hi]
  have huds : (s.untimeoutReceive.emit (.read udsSidOffset b.length)).uds = s.uds := by simp
  have hfirst : reads (s.untimeoutReceive.emit (.read udsSidOffset b.length)).log =
      reads s.log ++ [(udsSidOffset, b.length)] := by
    simp [reads, Note.read?]
  -- `u` is the client when the first byte is read
  generalize s.untimeoutReceive.emit (.read udsSidOffset b.length) = u at huds hfirst
  dsimp only
  by_cases h7f : b.data udsSidOffset = udsNegativeResponseSid
  · rw [if_pos h7f, if_pos h7f, reads_handleNegativeResponse, hfirst, List.append_assoc]
    unfold nrcReads
    rw [huds]
    rfl
  · -- a positive response is handed on unread
    rw [if_neg h7f, if_neg h7f]
    refine Eq.trans ?_ hfirst
    unfold handlePositiveResponse
    split
    · exact reads_callConnectCb ..
    · exact reads_callContext _ _ rfl _

/-! ### Releases -/

/-- The buffers that are handed back when the callbacks that are running return -/
def pending (stack : List Frame) : List (Nat × Nat) := stack.filterMap Frame.received

/-- **What was received**: handed back, or in the hands of a callback -/
def received (s : Client) : List (Nat × Nat) := releases s.log ++ pending s.stack

theorem pending_cons (f : Frame) (stack : List Frame) :
    pending (f :: stack) = f.received.toList ++ pending stack := by
  unfold pending
  rw [List.filterMap_cons]
  cases f.received <;> rfl

/-- The client of the second state has received `r` on top, and nothing else. -/
def HandsOn (r : Option (Nat × Nat)) (s s' : Client) : Prop :=
  (received s').Perm (r.toList ++ received s)

/-- Nothing is handed over where the stack stays, and what is logged is no release. -/
theorem HandsOn.none_of_log {notes : List Note} (hl : s'.log = s.log ++ notes)
    (hn : releases notes = []) (hs : s'.stack = s.stack) : HandsOn none s s' := by
  unfold HandsOn received
  rw [hl, hs, releases_append, hn, List.append_nil]
  exact List.Perm.refl _

theorem HandsOn.refl (s : Client) : HandsOn none s s := List.Perm.refl _

theorem HandsOn.trans {r : Option (Nat × Nat)} {u : Client} (h : HandsOn none s u)
    (h' : HandsOn r u s') : HandsOn r s s' :=
  List.Perm.trans h' (List.Perm.append_left _ h)

/-- Handing a buffer back -/
theorem HandsOn.isotpReceived (s : Client) (r : Option (Nat × Nat)) :
    HandsOn r s (s.isotpReceived r) := by
  cases r with
  | none => exact HandsOn.refl s
  | some r =>
    unfold HandsOn received Client.isotpReceived
    rw [emit_log, emit_stack, releases_append, List.append_assoc]
    exact List.perm_middle

theorem HandsOn.finish (s : Client) (r : Option (Nat × Nat)) : HandsOn r s (s.finish r) :=
  HandsOn.isotpReceived (s.setState .idle) r

/-- Leaving a buffer to a callback that starts -/
theorem HandsOn.push {r : Option (Nat × Nat)} {n : Note} {connect : Option Nat}
    (hl : s'.log = s.log ++ [n]) (hn : releases [n] = [])
    (hs : s'.stack = ⟨connect, r⟩ :: s.stack) : HandsOn r s s' := by
  unfold HandsOn received
  rw [hl, hs, releases_append, hn, List.append_nil, pending_cons]
  exact List.perm_append_comm_assoc _ _ _

theorem HandsOn.callConnectCb (s : Client) (error : Lwcanerr) (r : Option (Nat × Nat)) :
    HandsOn r s (s.callConnectCb error r) :=
  HandsOn.push rfl rfl rfl

theorem HandsOn.callContext (s : Client) (callback : UdsContext → Bool) {n : Note}
    (hn : releases [n] = []) (r : Option (Nat × Nat)) :
    HandsOn r s (s.callContext callback n r) := by
  obtain ⟨-, h⟩ | ⟨-, h⟩ := s.callContext_cases callback n r
  · rw [h]
    exact HandsOn.push rfl hn rfl
  · rw [h]
    exact HandsOn.finish s r

theorem HandsOn.connectTry (s : Client) (ret : Lwcanerr) : HandsOn none s (s.connectTry ret) := by
  have hsend : HandsOn none s (s.sendTesterPresent ret) := HandsOn.none_of_log rfl rfl rfl
  obtain ⟨-, -, h⟩ | ⟨-, -, h⟩ | ⟨-, h⟩ := s.connectTry_cases ret
  · rw [h]
    exact HandsOn.callConnectCb s _ none
  · rw [h]
    exact hsend.trans (HandsOn.callConnectCb _ _ none)
  · rw [h]
    exact hsend

/-- No call receives anything. -/
theorem HandsOn.call (cfg : UdsConfig) (s : Client) (c : Call) : HandsOn none s (s.call cfg c) := by
  cases c with
  | udsClientInit isotpPcb => cases isotpPcb <;> exact HandsOn.refl _
  -- whether a call is refused or not, the stack and the releases stay
  | udsClientDeinit =>
    show HandsOn none s s.udsClientDeinit.2
    obtain ⟨-, h⟩ | ⟨-, -, h⟩ := s.udsClientDeinit_cases
    · rw [h]
      exact HandsOn.refl s
    · rw [h]
      exact HandsOn.refl s
  | udsClientConnect cb arg bind send =>
    show HandsOn none s (s.udsClientConnect cfg cb arg bind send).2
    obtain ⟨-, h⟩ | ⟨-, h⟩ := s.udsClientConnect_cases cfg cb arg bind send
    · rw [h]
      exact HandsOn.refl s
    · rw [h]
      refine HandsOn.trans ?_ (HandsOn.connectTry _ send)
      exact HandsOn.none_of_log rfl rfl rfl
  | udsClientDisconnect =>
    show HandsOn none s (s.udsClientDisconnect cfg)
    obtain ⟨-, h⟩ | ⟨-, h⟩ := s.udsClientDisconnect_cases cfg
    · rw [h]
      exact HandsOn.refl s
    · rw [h]
      exact HandsOn.none_of_log rfl rfl rfl
  | udsSetContext context handle =>
    simp only [Client.call, udsSetContext]
    split <;> exact HandsOn.refl s
  | udsSetP2Timer time =>
    simp only [Client.call, udsSetP2Timer]
    split <;> exact HandsOn.refl s
  | udsSetP2StarTimer time =>
    simp only [Client.call, udsSetP2StarTimer]
    split <;> exact HandsOn.refl s
  | udsSendRequest request withResponse send =>
    show HandsOn none s (s.udsSendRequest request withResponse send).2
    obtain ⟨-, h⟩ | ⟨_, -, -, -, -, h⟩ := s.udsSendRequest_cases request withResponse send
    · rw [h]
      exact HandsOn.refl s
    · rw [h]
      exact HandsOn.none_of_log rfl rfl rfl
  | lwcanTimeout ms n arg => exact HandsOn.refl s
  | lwcanUntimeout n arg => exact HandsOn.refl s

/-- No timeout handler receives anything. -/
theorem HandsOn.runHandler (cfg : UdsConfig) (s : Client) (handler : UdsHandler) (send : Lwcanerr) :
    HandsOn none s (s.runHandler cfg handler send) := by
  cases handler with
  | connectTry => exact HandsOn.connectTry s send
  | s3TimerHandler =>
    simp only [Client.runHandler, s3TimerHandler]
    split
    · -- with `UDS_KEEP_SESSION` it sends a request of its own
      exact HandsOn.call cfg s (.udsSendRequest _ 0 send)
    · exact HandsOn.refl s
  | p2TimerHandler =>
    simp only [Client.runHandler, p2TimerHandler]
    split
    · exact HandsOn.refl s
    · exact HandsOn.callContext s _ rfl none
  -- the callback is called without a buffer
  | p2StarTimerHandler => exact HandsOn.callContext s _ rfl none
  | other n => exact HandsOn.refl s

theorem HandsOn.handleNegativeResponse (s : Client) (b : LwcanBuffer) (r : Nat × Nat) :
    HandsOn (some r) s (s.handleNegativeResponse b r) := by
  by_cases hc : s.uds.state = .connecting
  · unfold Client.handleNegativeResponse
    rw [if_pos hc]
    exact HandsOn.callConnectCb s _ _
  have hread (u : Client) (i : Nat) : HandsOn none u (u.emit (.read i b.length)) :=
    HandsOn.none_of_log rfl rfl rfl
  obtain h | ⟨-, h⟩ | ⟨-, h⟩ := handleNegativeResponse_cases hc b r
  · -- the response is pending: the buffer is handed back at once
    rw [h]
    exact (hread s _).trans (HandsOn.isotpReceived _ _)
  · rw [h]
    have hboth := (hread s udsNrcOffset).trans (hread _ udsRejectedSidOffset)
    exact (hboth.trans (hread _ udsNrcOffset)).trans (HandsOn.callContext _ _ rfl _)
  · rw [h]
    exact (hread s _).trans (HandsOn.finish _ _)

/-- **`uds_receive` receives what it is called with, once.** -/
theorem HandsOn.udsReceive (s : Client) (pcb buffer : Nat) (b : LwcanBuffer) :
    HandsOn (some (pcb, buffer)) s (s.udsReceive pcb buffer b) := by
  unfold Client.udsReceive
  split
  · exact HandsOn.isotpReceived s _
  have hread : HandsOn none s (s.untimeoutReceive.emit (.read udsSidOffset b.length)) :=
    HandsOn.none_of_log (by rw [emit_log, untimeoutReceive_log]) rfl (by simp)
  dsimp only
  refine hread.trans ?_
  split
  · exact HandsOn.handleNegativeResponse _ b _
  · unfold Client.handlePositiveResponse
    split
    · -- the session is open before the callback is called
      refine HandsOn.trans ?_ (HandsOn.callConnectCb _ _ _)
      exact HandsOn.none_of_log (List.append_nil _).symm rfl rfl
    · exact HandsOn.callContext _ _ rfl _

/-- **A step** receives what it is delivered. -/
theorem received_next (cfg : UdsConfig) (s : Client) (e : Event) :
    HandsOn e.delivery? s (s.next cfg e) := by
  have hcancel : HandsOn none s s.untimeoutResponse :=
    HandsOn.none_of_log (by rw [untimeoutResponse_log, List.append_nil]) rfl (by simp)
  cases e with
  | call c => exact HandsOn.call cfg s c
  | receive p buffer b => exact HandsOn.udsReceive s p buffer b
  | receiveFf p =>
    simp only [next, udsReceiveFf]
    split
    · exact HandsOn.refl s
    · exact hcancel
  | sent p =>
    simp only [next, udsSent]
    split
    · exact HandsOn.refl s
    split
    · exact HandsOn.refl s
    · split <;> exact HandsOn.refl s
  | error p err =>
    simp only [next, udsError]
    split
    · exact HandsOn.refl s
    split
    · exact HandsOn.refl s
    · exact hcancel.trans (HandsOn.callContext _ _ rfl none)
  | timer send =>
    simp only [next]
    split
    · exact HandsOn.refl s
    · next e' timeouts _ => exact HandsOn.runHandler cfg { s with timeouts } e'.handler send
  | ret =>
    simp only [next]
    split
    · exact HandsOn.refl s
    · next f stack hs =>
      -- what the callback was called with goes from the stack to the log
      have hpop : (received s).Perm (f.received.toList ++ received { s with stack }) := by
        unfold received
        rw [hs, pending_cons]
        exact List.perm_append_comm_assoc _ _ _
      exact List.Perm.trans (HandsOn.finish { s with stack } f.received) hpop.symm
  | tick ms => exact HandsOn.refl s

/-- **A run** receives what it is delivered, every message once. -/
theorem received_run (hr : Runs.run (step cfg) s es = some s') :
    (received s').Perm (deliveries es ++ received s) := by
  -- along the run, from any client
  induction es generalizing s with
  | nil =>
    obtain rfl : s = s' := Option.some.inj hr
    exact List.Perm.refl _
  | cons e es ih =>
    obtain ⟨u, hu, hr⟩ := Runs.run_cons.mp hr
    obtain ⟨-, rfl⟩ := step_eq_some.mp hu
    have hdeliveries : deliveries (e :: es) = e.delivery?.toList ++ deliveries es := by
      unfold deliveries
      rw [List.filterMap_cons]
      cases e.delivery? <;> rfl
    rw [hdeliveries, List.append_assoc]
    calc List.Perm (received s') (deliveries es ++ received (s.next cfg e)) := ih hr
      List.Perm _ (deliveries es ++ (e.delivery?.toList ++ received s)) :=
        List.Perm.append_left _ (received_next cfg s e)
      List.Perm _ (e.delivery?.toList ++ (deliveries es ++ received s)) :=
        List.perm_append_comm_assoc _ _ _

/-! ### Responses -/

/-- What is read on the way to the second state lies inside the message that it is read from. -/
def ReadsInside (s s' : Client) : Prop :=
  ∀ r ∈ (reads s'.log).drop (reads s.log).length, r.1 < r.2

instance (s s' : Client) : Decidable (ReadsInside s s') := inferInstanceAs (Decidable (∀ r ∈ _, _))

/-- However the run goes on from the second state, what is handed back by then, or will be when the
callbacks that are running return, is what it was in the first one, the message `r`, and what was
delivered since: each of them once. -/
def ReleasedOnce (cfg : UdsConfig) (r : Nat × Nat) (s s' : Client) : Prop :=
  ∀ es t, Runs.run (step cfg) s' es = some t →
    (releases t.log ++ pending t.stack).Perm
      (r :: deliveries es ++ (releases s.log ++ pending s.stack))

theorem releasedOnce_udsReceive (cfg : UdsConfig) (s : Client) (pcb buffer : Nat)
    (b : LwcanBuffer) : ReleasedOnce cfg (pcb, buffer) s (s.udsReceive pcb buffer b) := by
  intro es t hr
  calc List.Perm (received t) (deliveries es ++ received (s.udsReceive pcb buffer b)) :=
        received_run hr
    List.Perm _ (deliveries es ++ (pcb, buffer) :: received s) :=
        List.Perm.append_left _ (HandsOn.udsReceive s pcb buffer b)
    List.Perm _ ((pcb, buffer) :: (deliveries es ++ received s)) := List.perm_middle

theorem readsInside_udsReceive (s : Client) (pcb buffer : Nat) (b : LwcanBuffer) :
    ReadsInside s (s.udsReceive pcb buffer b) ↔ ∀ i ∈ s.messageReads b, i < b.length := by
  unfold ReadsInside
  rw [reads_udsReceive, List.drop_left]
  exact List.forall_mem_map

/-- A negative response is read up to its code. -/
theorem udsNrcOffset_mem_nrcReads (hc : s.uds.state ≠ .connecting) :
    udsNrcOffset ∈ s.nrcReads b := by
  unfold nrcReads
  rw [if_neg hc]
  split
  · exact List.mem_cons_self
  · exact List.mem_cons_self

/-- No byte behind the code is read. -/
theorem le_udsNrcOffset {i : Nat} (h : i ∈ s.nrcReads b) : i ≤ udsNrcOffset := by
  revert h
  unfold nrcReads
  split
  · intro h
    cases h
  split
  · intro h
    exact (List.mem_singleton.mp h).le
  · intro h
    simp only [List.mem_cons, List.not_mem_nil, or_false] at h
    obtain rfl | rfl | rfl := h
    · exact le_rfl
    · exact Nat.le_succ 1
    · exact le_rfl

/-- **A message is read within its length**, unless it is a negative response that is awaited and
too short for its code. -/
theorem messageReads_lt_iff (h : 1 ≤ b.length) : (∀ i ∈ s.messageReads b, i < b.length) ↔
    s.uds.state = .idle ∨ s.uds.state = .connecting ∨ b.data udsSidOffset ≠ udsNegativeResponseSid ∨
      udsNrcOffset < b.length := by
  unfold messageReads
  by_cases hi : s.uds.state = .idle
  · rw [if_pos hi]
    exact iff_of_true (by simp) (Or.inl hi)
  rw [if_neg hi, List.forall_mem_cons]
  have hfirst : udsSidOffset < b.length := h
  by_cases h7f : b.data udsSidOffset = udsNegativeResponseSid
  · rw [if_pos h7f]
    constructor
    · -- but for a client that is connecting, the code is among what is read
      rintro ⟨-, hread⟩
      by_cases hc : s.uds.state = .connecting
      · exact Or.inr (Or.inl hc)
      · exact Or.inr (Or.inr (Or.inr (hread _ (udsNrcOffset_mem_nrcReads hc))))
    · rintro (hidle | hc | hpos | hlen)
      · exact absurd hidle hi
      · refine ⟨hfirst, fun i hmem => ?_⟩
        -- the client gives the attempt up, whatever the code is
        rw [nrcReads, if_pos hc] at hmem
        cases hmem
      · exact absurd h7f hpos
      · exact ⟨hfirst, fun i hmem => lt_of_le_of_lt (le_udsNrcOffset hmem) hlen⟩
  · rw [if_neg h7f]
    exact iff_of_true ⟨hfirst, by simp⟩ (Or.inr (Or.inr (Or.inl h7f)))

/-- **Responses stay inside the message** if and only if the client is idle or connecting, or the
message is no negative response, or it is long enough for the code of one. Every message is released
once. -/
theorem responses_inside_iff (cfg : UdsConfig) (s : Client) (pcb buffer : Nat) {b : LwcanBuffer}
    (h : 1 ≤ b.length) :
    (ReadsInside s (s.udsReceive pcb buffer b) ∧
        ReleasedOnce cfg (pcb, buffer) s (s.udsReceive pcb buffer b)) ↔
      s.uds.state = .idle ∨ s.uds.state = .connecting ∨
        b.data udsSidOffset ≠ udsNegativeResponseSid ∨ udsNrcOffset < b.length := by
  rw [readsInside_udsReceive, messageReads_lt_iff h]
  exact and_iff_left (releasedOnce_udsReceive cfg s pcb buffer b)

/-- A request with response is under way. -/
def awaitingRun : List Event :=
  [.call (.udsClientInit (some 0)), .call (.udsClientConnect (some 1) .null .ok .ok), .sent 0,
    .receive 0 5 ⟨0, 2, fun i => if i = 0 then 0x7E else 0⟩, .ret,
    .call (.udsSendRequest (some [0x22, 0xF1, 0x90]) 1 .ok), .sent 0]

theorem responses_inside_awaitingRun : ∃ s, Run .default awaitingRun s ∧
    s.uds.state = .waitResponse ∧
    ReadsInside s (s.udsReceive 0 6 ⟨0, 3, fun i => [0x7F, 0x22, 0x31].getD i 0⟩) ∧
    ReleasedOnce .default (0, 6) s
      (s.udsReceive 0 6 ⟨0, 3, fun i => [0x7F, 0x22, 0x31].getD i 0⟩) := by
  obtain ⟨s, hs, hstate⟩ := Runs.exists_run (step .default) (powerUp .default) awaitingRun
    (fun s => s.uds.state = .waitResponse) (by decide)
  have hlen : 1 ≤ (⟨0, 3, fun i => [0x7F, 0x22, 0x31].getD i 0⟩ : LwcanBuffer).length := by decide
  have hlong : udsNrcOffset <
      (⟨0, 3, fun i => [0x7F, 0x22, 0x31].getD i 0⟩ : LwcanBuffer).length := by
    decide
  exact ⟨s, hs, hstate,
    (responses_inside_iff .default s 0 6 hlen).mpr (Or.inr (Or.inr (Or.inr hlong)))⟩

/-- The server answers a request with the single byte `0x7F`: the client reads the third one. -/
theorem short_negative_response :
    ¬∀ (cfg : UdsConfig) (es : List Event) (s : Client) (pcb buffer : Nat) (b : LwcanBuffer),
      Run cfg es s → s.Enabled (.receive pcb buffer b) → 1 ≤ b.length →
      ReadsInside s (s.udsReceive pcb buffer b) ∧
        ReleasedOnce cfg (pcb, buffer) s (s.udsReceive pcb buffer b) := by
  intro h
  obtain ⟨s, hs, hen, hno⟩ := Runs.exists_run (step .default) (powerUp .default) awaitingRun
    (fun s => s.Enabled (.receive 0 6 ⟨0, 1, fun _ => 0x7F⟩) ∧
      ¬ReadsInside s (s.udsReceive 0 6 ⟨0, 1, fun _ => 0x7F⟩)) (by decide)
  exact hno (h .default awaitingRun s 0 6 _ hs hen le_rfl).1

end Client
end Uds
end Lwcan
