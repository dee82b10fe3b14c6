import Lwcan.Uds.System

/-!
# What the client's functions change

Simp lemmas that read a field of the client after one of the small operations its functions are made
of, and two that say once what a function with several outcomes can do (`callContext_cases`,
`connectTry_cases`).

`TimersOk` is what every run keeps of the timeout list: the client's entries have a null argument,
and every entry's stamp is below the next one. `own` counts the entries of a handler that were armed
after a given moment, all of them if that is the first.
-/

namespace Lwcan
namespace Uds
namespace Client

variable {cfg : UdsConfig} (s : Client)

/-! ### Reading a field -/

section Fields

variable (state : UdsStateT) (n : Note) (ms : Nat) (h : UdsHandler) (ret : Lwcanerr)
  (r : Option (Nat × Nat))

@[simp] theorem setState_uds : (s.setState state).uds = { s.uds with state } := rfl
@[simp] theorem setState_timeouts : (s.setState state).timeouts = s.timeouts := rfl
@[simp] theorem setState_stack : (s.setState state).stack = s.stack := rfl
@[simp] theorem setState_log : (s.setState state).log = s.log := rfl
@[simp] theorem setState_connects : (s.setState state).connects = s.connects := rfl
@[simp] theorem setState_pcbs : (s.setState state).pcbs = s.pcbs := rfl
@[simp] theorem setState_now : (s.setState state).now = s.now := rfl

@[simp] theorem emit_uds : (s.emit n).uds = s.uds := rfl
@[simp] theorem emit_timeouts : (s.emit n).timeouts = s.timeouts := rfl
@[simp] theorem emit_stack : (s.emit n).stack = s.stack := rfl
@[simp] theorem emit_log : (s.emit n).log = s.log ++ [n] := rfl
@[simp] theorem emit_connects : (s.emit n).connects = s.connects := rfl
@[simp] theorem emit_pcbs : (s.emit n).pcbs = s.pcbs := rfl
@[simp] theorem emit_now : (s.emit n).now = s.now := rfl

@[simp] theorem lwcanTimeout_uds : (s.lwcanTimeout ms h).uds = s.uds := rfl
@[simp] theorem lwcanTimeout_timeouts :
    (s.lwcanTimeout ms h).timeouts = s.timeouts.lwcanTimeout s.now ms h .null := rfl
@[simp] theorem lwcanTimeout_stack : (s.lwcanTimeout ms h).stack = s.stack := rfl
@[simp] theorem lwcanTimeout_log : (s.lwcanTimeout ms h).log = s.log := rfl
@[simp] theorem lwcanTimeout_connects : (s.lwcanTimeout ms h).connects = s.connects := rfl
@[simp] theorem lwcanTimeout_pcbs : (s.lwcanTimeout ms h).pcbs = s.pcbs := rfl
@[simp] theorem lwcanTimeout_now : (s.lwcanTimeout ms h).now = s.now := rfl

@[simp] theorem lwcanUntimeout_uds : (s.lwcanUntimeout h).uds = s.uds := rfl
@[simp] theorem lwcanUntimeout_timeouts :
    (s.lwcanUntimeout h).timeouts = s.timeouts.lwcanUntimeout h .null := rfl
@[simp] theorem lwcanUntimeout_stack : (s.lwcanUntimeout h).stack = s.stack := rfl
@[simp] theorem lwcanUntimeout_log : (s.lwcanUntimeout h).log = s.log := rfl
@[simp] theorem lwcanUntimeout_connects : (s.lwcanUntimeout h).connects = s.connects := rfl
@[simp] theorem lwcanUntimeout_pcbs : (s.lwcanUntimeout h).pcbs = s.pcbs := rfl
@[simp] theorem lwcanUntimeout_now : (s.lwcanUntimeout h).now = s.now := rfl

@[simp] theorem isotpReceived_uds : (s.isotpReceived r).uds = s.uds := by cases r <;> rfl
@[simp] theorem isotpReceived_timeouts : (s.isotpReceived r).timeouts = s.timeouts := by
  cases r <;> rfl
@[simp] theorem isotpReceived_stack : (s.isotpReceived r).stack = s.stack := by cases r <;> rfl
@[simp] theorem isotpReceived_connects : (s.isotpReceived r).connects = s.connects := by
  cases r <;> rfl
@[simp] theorem isotpReceived_pcbs : (s.isotpReceived r).pcbs = s.pcbs := by cases r <;> rfl

@[simp] theorem finish_uds : (s.finish r).uds = { s.uds with state := .idle } := by simp [finish]
@[simp] theorem finish_timeouts : (s.finish r).timeouts = s.timeouts := by simp [finish]
@[simp] theorem finish_stack : (s.finish r).stack = s.stack := by simp [finish]
@[simp] theorem finish_connects : (s.finish r).connects = s.connects := by simp [finish]
@[simp] theorem finish_pcbs : (s.finish r).pcbs = s.pcbs := by simp [finish]

@[simp] theorem callConnectCb_uds : (s.callConnectCb ret r).uds = s.uds := rfl
@[simp] theorem callConnectCb_timeouts : (s.callConnectCb ret r).timeouts = s.timeouts := rfl
@[simp] theorem callConnectCb_stack :
    (s.callConnectCb ret r).stack = ⟨some s.connects, r⟩ :: s.stack := rfl
@[simp] theorem callConnectCb_log : (s.callConnectCb ret r).log =
    s.log ++ [.connectCb s.uds.connectCb s.uds.connectCbArg ret] := rfl
@[simp] theorem callConnectCb_connects : (s.callConnectCb ret r).connects = s.connects := rfl
@[simp] theorem callConnectCb_pcbs : (s.callConnectCb ret r).pcbs = s.pcbs := rfl

@[simp] theorem sendTesterPresent_timeouts : (s.sendTesterPresent ret).timeouts = s.timeouts := rfl
@[simp] theorem sendTesterPresent_stack : (s.sendTesterPresent ret).stack = s.stack := rfl
@[simp] theorem sendTesterPresent_log : (s.sendTesterPresent ret).log =
    s.log ++ [.testerPresent [udsTesterPresentSid, 0] (s.isotpAnswer ret)] := rfl
@[simp] theorem sendTesterPresent_connects : (s.sendTesterPresent ret).connects = s.connects := rfl
@[simp] theorem sendTesterPresent_pcbs : (s.sendTesterPresent ret).pcbs = s.pcbs := rfl
@[simp] theorem sendTesterPresent_uds : (s.sendTesterPresent ret).uds =
    { s.uds with
      connectTryTime := s.now, connectTryNum := u8 ((s.uds.connectTryNum : Int) - 1) } := rfl

end Fields

/-! ### Functions with several outcomes -/

/-- A callback of the context is called, or the client is idle at once. -/
theorem callContext_cases (callback : UdsContext → Bool) (n : Note) (r : Option (Nat × Nat)) :
    (s.uds.context.any callback = true ∧
        s.callContext callback n r = { s.emit n with stack := ⟨none, r⟩ :: s.stack }) ∨
      (s.uds.context.any callback = false ∧ s.callContext callback n r = s.finish r) := by
  unfold callContext
  cases s.uds.context.any callback with
  | true => exact Or.inl ⟨rfl, rfl⟩
  | false => exact Or.inr ⟨rfl, rfl⟩

@[simp] theorem callContext_timeouts (callback : UdsContext → Bool) (n : Note)
    (r : Option (Nat × Nat)) : (s.callContext callback n r).timeouts = s.timeouts := by
  obtain ⟨-, h⟩ | ⟨-, h⟩ := s.callContext_cases callback n r <;> simp [h]

/-- This call of `connect_try` is the attempt's last: the tries are used up, or `isotp_send`
refuses. -/
def LastTry (s : Client) (ret : Lwcanerr) : Prop :=
  (s.uds.isConnected = false ∧ s.uds.connectTryNum = 0) ∨ s.isotpAnswer ret ≠ .ok

instance (s : Client) (ret : Lwcanerr) : Decidable (s.LastTry ret) :=
  inferInstanceAs (Decidable (_ ∨ _))

/-- `connect_try` gives up before or after a Tester Present, or goes on. -/
theorem connectTry_cases (ret : Lwcanerr) :
    (s.uds.isConnected = false ∧ s.uds.connectTryNum = 0 ∧
        s.connectTry ret = s.callConnectCb .aborted none) ∨
      (¬(s.uds.isConnected = false ∧ s.uds.connectTryNum = 0) ∧ s.isotpAnswer ret ≠ .ok ∧
        s.connectTry ret = (s.sendTesterPresent ret).callConnectCb (s.isotpAnswer ret) none) ∨
      (¬s.LastTry ret ∧ s.connectTry ret = s.sendTesterPresent ret) := by
  unfold connectTry LastTry
  by_cases hn : s.uds.isConnected = false ∧ s.uds.connectTryNum = 0
  · exact Or.inl ⟨hn.1, hn.2, by simp [hn]⟩
  · have hn' : (!s.uds.isConnected && decide (s.uds.connectTryNum = 0)) = false := by
      simpa using hn
    by_cases hr : s.isotpAnswer ret = .ok
    · exact Or.inr (Or.inr ⟨by tauto, by simp [hn', hr]⟩)
    · exact Or.inr (Or.inl ⟨hn, hr, by simp [hn', hr]⟩)

@[simp] theorem connectTry_timeouts (ret : Lwcanerr) : (s.connectTry ret).timeouts =
    s.timeouts := by
  obtain ⟨-, -, h⟩ | ⟨-, -, h⟩ | ⟨-, h⟩ := s.connectTry_cases ret <;> simp [h]

/-- `connect_try` keeps the state and the connection. -/
@[simp] theorem connectTry_state (ret : Lwcanerr) :
    (s.connectTry ret).uds.state = s.uds.state := by
  obtain ⟨-, -, h⟩ | ⟨-, -, h⟩ | ⟨-, h⟩ := s.connectTry_cases ret <;> simp [h]

@[simp] theorem connectTry_isConnected (ret : Lwcanerr) :
    (s.connectTry ret).uds.isConnected = s.uds.isConnected := by
  obtain ⟨-, -, h⟩ | ⟨-, -, h⟩ | ⟨-, h⟩ := s.connectTry_cases ret <;> simp [h]

/-- `uds_send_request` is refused before it touches the client, or hands the request to ISO-TP. -/
theorem udsSendRequest_cases (request : Option (List UInt8)) (withResponse : UInt8)
    (ret : Lwcanerr) :
    ((s.udsSendRequest request withResponse ret).1 ≠ .ok ∧
        (s.udsSendRequest request withResponse ret).2 = s) ∨
      ∃ data, request = some data ∧ data ≠ [] ∧ s.uds.isConnected = true ∧ s.uds.state = .idle ∧
        s.udsSendRequest request withResponse ret = (s.isotpAnswer ret,
          { s with uds := { s.uds with withResponse, state := .sendingRequest } }.emit
            (.request data (s.isotpAnswer ret))) := by
  -- an empty request, a client without a connection and a busy one are refused
  match request with
  | none => exact Or.inl ⟨by simp [udsSendRequest], rfl⟩
  | some [] => exact Or.inl ⟨by simp [udsSendRequest], rfl⟩
  | some (b :: data) =>
    cases hc : s.uds.isConnected with
    | false => exact Or.inl ⟨by simp [udsSendRequest, hc], by simp [udsSendRequest, hc]⟩
    | true =>
      by_cases hs : s.uds.state = .idle
      · exact Or.inr ⟨b :: data, rfl, by simp, rfl, hs, by simp [udsSendRequest, hc, hs]⟩
      · exact Or.inl ⟨by simp [udsSendRequest, hc, hs], by simp [udsSendRequest, hc, hs]⟩

@[simp] theorem udsSendRequest_timeouts (request : Option (List UInt8)) (withResponse : UInt8)
    (ret : Lwcanerr) : (s.udsSendRequest request withResponse ret).2.timeouts = s.timeouts := by
  obtain ⟨-, h⟩ | ⟨_, -, -, -, -, h⟩ := s.udsSendRequest_cases request withResponse ret <;> simp [h]

/-- A disconnect does nothing without a connection, and ends everything that is under way with
one. -/
theorem udsClientDisconnect_cases (cfg : UdsConfig) :
    (s.uds.isConnected = false ∧ s.udsClientDisconnect cfg = s) ∨
      (s.uds.isConnected = true ∧ s.udsClientDisconnect cfg =
        { s with
          uds := { s.uds with
            state := .idle
            isConnected := false
            p2 := u16 cfg.p2Default
            p2Star := u16 cfg.p2StarDefault }
          timeouts := ((s.timeouts.lwcanUntimeout .p2TimerHandler .null).lwcanUntimeout
            .p2StarTimerHandler .null).lwcanUntimeout .s3TimerHandler .null
          log := s.log ++ [.disconnect] }) := by
  cases hc : s.uds.isConnected with
  | false => exact Or.inl ⟨rfl, by simp [udsClientDisconnect, hc]⟩
  | true =>
    refine Or.inr ⟨rfl, ?_⟩
    unfold udsClientDisconnect
    rw [if_neg (by simp [hc])]
    rfl

/-- A connect is refused, or it starts an attempt in `UDS_CONNECTING`. -/
theorem udsClientConnect_cases (cfg : UdsConfig) (cb : Option Nat) (arg : Ptr)
    (bind send : Lwcanerr) :
    ((s.udsClientConnect cfg cb arg bind send).1 ≠ .ok ∧
        (s.udsClientConnect cfg cb arg bind send).2 = s) ∨
      (s.uds.state = .idle ∧ s.udsClientConnect cfg cb arg bind send = (.ok,
        ({ s with
          uds := { s.uds with
            state := .connecting
            connectTryNum := u8 cfg.connectRetryNum
            connectCb := cb
            connectCbArg := arg }
          connects := s.connects + 1 }.emit (.connect cb arg s.timeouts.armed)).connectTry
            send)) := by
  unfold udsClientConnect
  -- the callback, the state and the bind are looked at in this order
  split
  · exact Or.inl ⟨by simp, rfl⟩
  split
  · exact Or.inl ⟨by simp, rfl⟩
  split
  · next hb => exact Or.inl ⟨hb, rfl⟩
  · next hi _ => exact Or.inr ⟨by simpa using hi, rfl⟩

/-- Deinitialising is refused, or it clears the client. -/
theorem udsClientDeinit_cases :
    (s.uds.state ≠ .idle ∧ s.udsClientDeinit = (.inprogress, s)) ∨
      (s.uds.state = .idle ∧ s.udsClientDeinit.1 = .ok ∧ s.udsClientDeinit.2 =
        { s with
          uds := {}
          pcbs := s.uds.isotpPcb.elim s.pcbs s.pcbs.erase
          timeouts := if s.uds.isConnected then s.timeouts.lwcanUntimeout .s3TimerHandler .null
            else s.timeouts }) := by
  by_cases hs : s.uds.state = .idle
  · refine Or.inr ⟨hs, by simp [udsClientDeinit, hs], ?_⟩
    simp only [udsClientDeinit, hs]
    cases s.uds.isConnected <;> rfl
  · exact Or.inl ⟨hs, by simp [udsClientDeinit, hs]⟩

/-- **A busy client refuses** every call that does not act in any state. -/
theorem call_eq_self {s : Client} {c : Call} (cfg : UdsConfig) (hs : s.uds.state ≠ .idle)
    (hc : c.acts = false) : s.call cfg c = s := by
  -- each of these calls looks at the state before it does anything
  cases c with
  | udsClientInit isotpPcb =>
    cases isotpPcb with
    | none => rfl
    | some p => cases hc
  | udsClientDeinit => simp [call, udsClientDeinit, hs]
  | udsClientConnect cb arg bind send =>
    obtain ⟨-, h⟩ | ⟨hi, -⟩ := s.udsClientConnect_cases cfg cb arg bind send
    · exact h
    · exact absurd hi hs
  | udsClientDisconnect => cases hc
  | udsSetContext context handle => simp [call, udsSetContext, hs]
  | udsSetP2Timer time => simp [call, udsSetP2Timer, hs]
  | udsSetP2StarTimer time => simp [call, udsSetP2StarTimer, hs]
  | udsSendRequest request withResponse send =>
    obtain ⟨-, h⟩ | ⟨_, -, -, -, hi, -⟩ := s.udsSendRequest_cases request withResponse send
    · exact h
    · exact absurd hi hs
  | lwcanTimeout ms n arg => cases hc
  | lwcanUntimeout n arg => cases hc

/-- A negative response outside `UDS_CONNECTING` asks for patience, or it is passed on. -/
theorem handleNegativeResponse_cases {s : Client} (h : s.uds.state ≠ .connecting) (b : LwcanBuffer)
    (r : Nat × Nat) :
    s.handleNegativeResponse b r =
        (((s.emit (.read udsNrcOffset b.length)).setState .responsePending).lwcanTimeout
          s.uds.p2Star .p2StarTimerHandler).isotpReceived (some r) ∨
      (s.uds.context.any (·.negativeResponse) = true ∧
        s.handleNegativeResponse b r =
          (((s.emit (.read udsNrcOffset b.length)).emit (.read udsRejectedSidOffset b.length)).emit
            (.read udsNrcOffset b.length)).callContext (·.negativeResponse)
            (.negativeResponse s.uds.handle (b.data udsRejectedSidOffset) (b.data udsNrcOffset))
            (some r)) ∨
      (s.uds.context.any (·.negativeResponse) = false ∧
        s.handleNegativeResponse b r = (s.emit (.read udsNrcOffset b.length)).finish (some r)) := by
  unfold handleNegativeResponse
  rw [if_neg h]
  -- the server asks for more time, or its answer is passed on
  by_cases hp : b.data udsNrcOffset = udsResponsePendingNrc
  · rw [if_pos hp]
    exact Or.inl rfl
  · rw [if_neg hp]
    refine Or.inr ?_
    by_cases hn : s.uds.context.any (·.negativeResponse) = true
    · exact Or.inl ⟨hn, if_pos hn⟩
    · exact Or.inr ⟨by simpa using hn, if_neg hn⟩

/-- Outside `UDS_CONNECTING` the two `switch` statements agree. -/
theorem untimeoutReceive_eq {s : Client} (h : s.uds.state ≠ .connecting) :
    s.untimeoutReceive = s.untimeoutResponse := by
  unfold untimeoutReceive
  split
  · next hc => exact absurd hc h
  · rfl

/-- The `switch` touches the timeout list only. -/
@[simp] theorem untimeoutResponse_uds : s.untimeoutResponse.uds = s.uds := by
  unfold untimeoutResponse
  split <;> rfl

@[simp] theorem untimeoutResponse_stack : s.untimeoutResponse.stack = s.stack := by
  unfold untimeoutResponse
  split <;> rfl

@[simp] theorem untimeoutResponse_now : s.untimeoutResponse.now = s.now := by
  unfold untimeoutResponse
  split <;> rfl

@[simp] theorem untimeoutResponse_log : s.untimeoutResponse.log = s.log := by
  unfold untimeoutResponse
  split <;> rfl

@[simp] theorem untimeoutResponse_pcbs : s.untimeoutResponse.pcbs = s.pcbs := by
  unfold untimeoutResponse
  split <;> rfl

@[simp] theorem untimeoutReceive_uds : s.untimeoutReceive.uds = s.uds := by
  unfold untimeoutReceive
  split
  · rfl
  · exact s.untimeoutResponse_uds

@[simp] theorem untimeoutReceive_stack : s.untimeoutReceive.stack = s.stack := by
  unfold untimeoutReceive
  split
  · rfl
  · exact s.untimeoutResponse_stack

@[simp] theorem untimeoutReceive_now : s.untimeoutReceive.now = s.now := by
  unfold untimeoutReceive
  split
  · rfl
  · exact s.untimeoutResponse_now

@[simp] theorem untimeoutReceive_log : s.untimeoutReceive.log = s.log := by
  unfold untimeoutReceive
  split
  · rfl
  · exact s.untimeoutResponse_log

/-- **A message** in `UDS_CONNECTING` is the answer, whatever it says: P2 is cancelled. -/
theorem udsReceive_connecting {s : Client} (hc : s.uds.state = .connecting) (pcb buffer : Nat)
    (b : LwcanBuffer) :
    s.udsReceive pcb buffer b =
      if b.data udsSidOffset = udsNegativeResponseSid then
        ((s.lwcanUntimeout .p2TimerHandler).emit (.read udsSidOffset b.length)).callConnectCb
          .aborted (some (pcb, buffer))
      else
        { ((s.lwcanUntimeout .p2TimerHandler).emit (.read udsSidOffset b.length)) with
          uds := { s.uds with isConnected := true } }.callConnectCb .ok (some (pcb, buffer)) := by
  simp [udsReceive, untimeoutReceive, hc, handleNegativeResponse, handlePositiveResponse]

/-- **A message** outside `UDS_IDLE` and `UDS_CONNECTING`: its timer is cancelled, and the message
asks for patience or is passed on, if the application wants to know. -/
theorem udsReceive_cases {s : Client} (hi : s.uds.state ≠ .idle) (hc : s.uds.state ≠ .connecting)
    (pcb buffer : Nat) (b : LwcanBuffer) :
    (∃ reads : List Note, (∀ n ∈ reads, ∃ i, n = .read i b.length) ∧
      s.udsReceive pcb buffer b =
        (({ s.untimeoutResponse with log := s.log ++ reads }.setState .responsePending).lwcanTimeout
          s.uds.p2Star .p2StarTimerHandler).isotpReceived (some (pcb, buffer))) ∨
    ∃ (reads : List Note) (callback : UdsContext → Bool) (o : Note),
      (∀ n ∈ reads, ∃ i, n = .read i b.length) ∧
      (callback = UdsContext.positiveResponse ∧
          o = .positiveResponse s.uds.handle b.bytes ∨
        callback = UdsContext.negativeResponse ∧
          o = .negativeResponse s.uds.handle (b.data udsRejectedSidOffset) (b.data udsNrcOffset)) ∧
      s.udsReceive pcb buffer b =
        { s.untimeoutResponse with log := s.log ++ reads }.callContext callback o
          (some (pcb, buffer)) := by
  have hlog : ∀ l, { s.untimeoutResponse with log := s.log ++ l } =
      { s.untimeoutResponse with log := s.untimeoutResponse.log ++ l } := by simp
  have hu : s.untimeoutResponse.uds = s.uds := by simp
  simp only [hlog]
  unfold udsReceive
  rw [if_neg hi, untimeoutReceive_eq hc]
  rw [← hu] at hc ⊢
  -- `u` is the client when the timers of the answer are cancelled
  generalize s.untimeoutResponse = u at hc ⊢
  dsimp only
  split
  · obtain hr | ⟨-, hr⟩ | ⟨hn, hr⟩ := handleNegativeResponse_cases
      (s := u.emit (.read udsSidOffset b.length)) hc b (pcb, buffer)
    · refine Or.inl ⟨[.read udsSidOffset b.length, .read udsNrcOffset b.length], by simp, ?_⟩
      rw [hr]
      simp [emit, setState, Client.lwcanTimeout]
    · refine Or.inr ⟨[.read udsSidOffset b.length, .read udsNrcOffset b.length,
        .read udsRejectedSidOffset b.length, .read udsNrcOffset b.length], _, _, by simp,
        Or.inr ⟨rfl, rfl⟩, ?_⟩
      rw [hr]
      simp [emit]
    · refine Or.inr ⟨[.read udsSidOffset b.length, .read udsNrcOffset b.length], _, _, by simp,
        Or.inr ⟨rfl, rfl⟩, ?_⟩
      rw [hr]
      unfold callContext
      have hno : ¬u.uds.context.any UdsContext.negativeResponse = true := by
        simpa using hn
      rw [if_neg hno]
      simp [emit]
  · refine Or.inr ⟨[.read udsSidOffset b.length], _, _, by simp, Or.inl ⟨rfl, rfl⟩, ?_⟩
    unfold handlePositiveResponse
    exact if_neg hc

/-! ### The timeout list -/

/-- The client's entries have a null argument, and every stamp was given. -/
structure TimersOk (t : Timeouts UdsHandler Ptr) : Prop where
  null : ∀ e ∈ t.nextTimeout, (∃ n, e.handler = .other n) ∨ e.arg = .null
  stamp : ∀ e ∈ t.nextTimeout, e.stamp < t.armed

theorem TimersOk.initial : TimersOk (Timeouts.lwcanTimeoutsInit cfg.lwcan) :=
  ⟨fun _ h => absurd h List.not_mem_nil, fun _ h => absurd h List.not_mem_nil⟩

theorem TimersOk.lwcanTimeout {t : Timeouts UdsHandler Ptr} (ht : TimersOk t) (now ms : Nat)
    {h : UdsHandler} {a : Ptr} (ha : (∃ n, h = .other n) ∨ a = .null) :
    TimersOk (t.lwcanTimeout now ms h a) := by
  constructor
  · intro e he
    obtain he | ⟨hh, hea, -, -⟩ := Timeouts.mem_lwcanTimeout he
    · exact ht.null e he
    · rw [hh, hea]
      exact ha
  · intro e he
    by_cases hold : e ∈ t.nextTimeout
    · exact lt_of_lt_of_le (ht.stamp e hold) (t.armed_le_lwcanTimeout now ms h a)
    · obtain he' | ⟨-, -, hs, -⟩ := Timeouts.mem_lwcanTimeout he
      · exact absurd he' hold
      · exact Timeouts.armed_lt_of_mem he hs hold

theorem TimersOk.lwcanUntimeout {t : Timeouts UdsHandler Ptr} (ht : TimersOk t) (h : UdsHandler)
    (a : Ptr) : TimersOk (t.lwcanUntimeout h a) := by
  constructor
  · exact fun e he => ht.null e (Timeouts.mem_of_mem_lwcanUntimeout he)
  · intro e he
    rw [Timeouts.armed_lwcanUntimeout]
    exact ht.stamp e (Timeouts.mem_of_mem_lwcanUntimeout he)

theorem TimersOk.expire {t t' : Timeouts UdsHandler Ptr} (ht : TimersOk t) {now : Nat}
    {e : Timeout UdsHandler Ptr} (he : t.expire now = some (e, t')) : TimersOk t' := by
  obtain ⟨hl, ha⟩ := Timeouts.expire_eq_some he
  constructor
  · exact fun e' he' => ht.null e' (hl ▸ List.mem_cons_of_mem _ he')
  · intro e' he'
    rw [ha]
    exact ht.stamp e' (hl ▸ List.mem_cons_of_mem _ he')

theorem TimersOk.untimeoutResponse {s : Client} (h : TimersOk s.timeouts) :
    TimersOk s.untimeoutResponse.timeouts := by
  unfold Client.untimeoutResponse
  split
  · exact h.lwcanUntimeout _ _
  · exact h.lwcanUntimeout _ _
  · exact h

variable {s}

/-- **What a step may arm**: an entry of somebody else, or, unless the client is idle, a timer of
its own, which runs for the time that is set if it awaits a response. -/
def MayArm (s : Client) (ms : Nat) (h : UdsHandler) (a : Ptr) : Prop :=
  (∃ n, h = .other n) ∨
    (a = .null ∧ s.uds.state ≠ .idle ∧
      (h = .p2TimerHandler → ms = s.uds.p2) ∧ (h = .p2StarTimerHandler → ms = s.uds.p2Star))

theorem MayArm.null {ms : Nat} {h : UdsHandler} {a : Ptr} (hm : s.MayArm ms h a) :
    (∃ n, h = .other n) ∨ a = .null :=
  hm.imp_right And.left

/-- The timers that await no response run for any time. -/
theorem MayArm.of_ne {s : Client} (hs : s.uds.state ≠ .idle) (ms : Nat) {h : UdsHandler}
    (hp2 : h ≠ .p2TimerHandler) (hstar : h ≠ .p2StarTimerHandler) : s.MayArm ms h .null :=
  Or.inr ⟨rfl, hs, fun he => absurd he hp2, fun he => absurd he hstar⟩

theorem MayArm.p2 {s : Client} (hs : s.uds.state ≠ .idle) :
    s.MayArm s.uds.p2 .p2TimerHandler .null :=
  Or.inr ⟨rfl, hs, fun _ => rfl, (fun he => by cases he)⟩

theorem MayArm.p2Star {s : Client} (hs : s.uds.state ≠ .idle) :
    s.MayArm s.uds.p2Star .p2StarTimerHandler .null :=
  Or.inr ⟨rfl, hs, (fun he => by cases he), fun _ => rfl⟩

/-- A handler cancels nothing. -/
theorem timeouts_of_runHandler {P : Timeouts UdsHandler Ptr → Prop}
    (harm : ∀ t ms h a, s.MayArm ms h a → P t → P (t.lwcanTimeout s.now ms h a))
    (h : P s.timeouts) (handler : UdsHandler) (send : Lwcanerr) :
    P (s.runHandler cfg handler send).timeouts := by
  cases handler with
  | connectTry => simpa [runHandler] using h
  | s3TimerHandler =>
    simp only [runHandler, s3TimerHandler]
    split
    · simpa using h
    · exact h
  | p2TimerHandler =>
    simp only [runHandler, p2TimerHandler]
    split
    · next hc => exact harm _ _ _ _ (MayArm.of_ne (by simp [hc]) _ (by simp) (by simp)) h
    · simpa using h
  | p2StarTimerHandler => simpa [runHandler, p2StarTimerHandler] using h
  | other n => exact h

/-- The event may cancel the keep-alive timer. -/
def CancelsS3 : Event → Prop
  | .call .udsClientDeinit | .call .udsClientDisconnect | .sent _ => True
  | _ => False

/-- A call of the application arms timers of its own, and cancels those of the client. -/
theorem timeouts_of_call {P : Timeouts UdsHandler Ptr → Prop} {c : Call}
    (harm : ∀ t ms h a, s.MayArm ms h a → P t → P (t.lwcanTimeout s.now ms h a))
    (hcancel : ∀ t h a, (h = .s3TimerHandler → CancelsS3 (.call c)) → P t →
      P (t.lwcanUntimeout h a))
    (h : P s.timeouts) : P (s.next cfg (.call c)).timeouts := by
  -- Only deinit and disconnect of the client's own calls cancel, deinit the keep-alive timer alone.
  cases c with
  | udsClientInit isotpPcb => cases isotpPcb <;> exact h
  | udsClientDeinit =>
    rcases s.udsClientDeinit_cases with ⟨-, hd⟩ | ⟨-, -, hd⟩
    · simpa [next, call, hd] using h
    · simp only [next, call, hd]
      split
      · exact hcancel _ _ _ (fun _ => True.intro) h
      · exact h
  | udsClientConnect cb arg bind send =>
    rcases s.udsClientConnect_cases cfg cb arg bind send with ⟨-, hd⟩ | ⟨-, hd⟩
    · simpa [next, call, hd] using h
    · simpa [next, call, hd] using h
  | udsClientDisconnect =>
    rcases s.udsClientDisconnect_cases cfg with ⟨-, hd⟩ | ⟨-, hd⟩
    · simpa [next, call, hd] using h
    · simp only [next, call, hd]
      exact hcancel _ _ _ (fun _ => True.intro) (hcancel _ _ _ (fun _ => True.intro)
        (hcancel _ _ _ (fun _ => True.intro) h))
  | udsSetContext context handle =>
    simp only [next, call, udsSetContext]
    split <;> exact h
  | udsSetP2Timer time =>
    simp only [next, call, udsSetP2Timer]
    split <;> exact h
  | udsSetP2StarTimer time =>
    simp only [next, call, udsSetP2StarTimer]
    split <;> exact h
  | udsSendRequest request withResponse send =>
    simpa [next, call] using h
  | lwcanTimeout ms n arg => exact harm _ _ _ _ (Or.inl ⟨n, rfl⟩) h
  | lwcanUntimeout n arg => exact hcancel _ _ _ (by simp) h

/-- A response ends the timer it is awaited with, and a pending one arms the next. -/
theorem timeouts_of_udsReceive {P : Timeouts UdsHandler Ptr → Prop} {p buffer : Nat}
    {b : LwcanBuffer} (harm : ∀ t ms h a, s.MayArm ms h a → P t → P (t.lwcanTimeout s.now ms h a))
    (h : P s.timeouts) (hr : P s.untimeoutReceive.timeouts) :
    P (s.udsReceive p buffer b).timeouts := by
  simp only [udsReceive]
  split
  · simpa using h
  next hs =>
  split
  · unfold handleNegativeResponse
    split
    · exact hr
    split
    · simpa using harm _ _ _ _ (MayArm.p2Star hs) hr
    · dsimp only
      split
      · simpa using hr
      · simpa using hr
  · unfold handlePositiveResponse
    split
    · exact hr
    · simpa using hr

/-- **The timeout list along a step**: what arming, cancelling and running keep, a step keeps. -/
theorem timeouts_of_next {P : Timeouts UdsHandler Ptr → Prop} {e : Event}
    (harm : ∀ t ms h a, s.MayArm ms h a → P t → P (t.lwcanTimeout s.now ms h a))
    (hcancel : ∀ t h a, (h = .s3TimerHandler → CancelsS3 e) → P t → P (t.lwcanUntimeout h a))
    (hexpire : ∀ send, e = .timer send → ∀ e' t', s.timeouts.expire s.now = some (e', t') → P t')
    (h : P s.timeouts) : P (s.next cfg e).timeouts := by
  have hresponse : P s.untimeoutResponse.timeouts := by
    unfold untimeoutResponse
    split
    · exact hcancel _ _ _ (by simp) h
    · exact hcancel _ _ _ (by simp) h
    · exact h
  have hreceive : P s.untimeoutReceive.timeouts := by
    unfold untimeoutReceive
    split
    · exact hcancel _ _ _ (by simp) h
    · exact hresponse
  cases e with
  | call c => exact timeouts_of_call harm hcancel h
  | receive p buffer b =>
    exact timeouts_of_udsReceive harm h hreceive
  | receiveFf p =>
    simp only [next, udsReceiveFf]
    split
    · exact h
    · exact hresponse
  | sent p =>
    simp only [next, udsSent]
    split
    · next hc => exact harm _ _ _ _ (MayArm.p2 (by simp [hc])) h
    split
    · exact h
    · next hs =>
      have hbusy : s.uds.state ≠ .idle := by simp [not_not.mp hs]
      -- the keep-alive timer starts anew
      have hs3 : s.MayArm cfg.s3Client .s3TimerHandler .null :=
        MayArm.of_ne hbusy _ (by simp) (by simp)
      split
      · exact harm _ _ _ _ hs3
          (hcancel _ _ _ (fun _ => True.intro) (harm _ _ _ _ (MayArm.p2 hbusy) h))
      · exact harm _ _ _ _ hs3 (hcancel _ _ _ (fun _ => True.intro) h)
  | error p err =>
    simp only [next, udsError]
    split
    · next hc => exact harm _ _ _ _ (MayArm.of_ne (by simp [hc]) _ (by simp) (by simp)) h
    split
    · exact h
    · simpa using hresponse
  | timer send =>
    simp only [next]
    split
    · exact h
    · next e' t' he =>
      exact timeouts_of_runHandler (s := { s with timeouts := t' }) harm
        (hexpire send rfl e' t' he) _ _
  | ret =>
    simp only [next]
    split
    · exact h
    · simpa using h
  | tick ms => exact h

theorem TimersOk.next (h : TimersOk s.timeouts) (e : Event) : TimersOk (s.next cfg e).timeouts :=
  timeouts_of_next (e := e) (fun _ _ _ _ hm ht => ht.lwcanTimeout _ _ hm.null)
    (fun _ _ _ _ ht => ht.lwcanUntimeout _ _) (fun _ _ _ _ he => h.expire he) h

/-- **Every run** keeps the timeout list in order. -/
theorem TimersOk.of_run {es : List Event} (hr : Run cfg es s) : TimersOk s.timeouts :=
  Runs.run_inv (I := fun s => TimersOk s.timeouts)
    (fun s e _ h _ hst => (step_eq_some.mp hst).2 ▸ TimersOk.next (s := s) h e)
    TimersOk.initial (Runs.Along.trivial _ es) hr

end Client

/-! ### The entries of one handler -/

/-- The entry was armed for this handler, after the first `n`. -/
def ownEntry (n : Nat) (h : UdsHandler) (e : Timeout UdsHandler Ptr) : Bool :=
  e.handler = h && n ≤ e.stamp

/-- How many entries of a handler were armed after the first `n` and are pending -/
def own (n : Nat) (h : UdsHandler) (t : Timeouts UdsHandler Ptr) : Nat :=
  t.nextTimeout.countP (ownEntry n h)

variable {n : Nat} {h : UdsHandler} {t t' : Timeouts UdsHandler Ptr}

theorem own_eq_zero : own n h t = 0 ↔ ∀ e ∈ t.nextTimeout, e.handler = h → e.stamp < n := by
  simp [own, ownEntry, List.countP_eq_zero]

/-- Arming adds one at most, and none of another handler. -/
theorem own_lwcanTimeout_le (t : Timeouts UdsHandler Ptr) (n now ms : Nat) (h h' : UdsHandler)
    (a : Ptr) : own n h (t.lwcanTimeout now ms h' a) ≤ own n h t + if h' = h then 1 else 0 := by
  obtain ⟨-, hc⟩ | ⟨mem, pool, -, -, hc⟩ := t.lwcanTimeout_cases now ms h' a
  · rw [hc]
    exact Nat.le_add_right _ _
  · rw [hc]
    unfold own
    rw [(Timeouts.insert_perm _ _).countP_eq, List.countP_cons]
    by_cases hh : h' = h <;> simp [ownEntry, hh]
    split <;> omega

theorem own_lwcanTimeout_of_ne (now ms : Nat) (h' : UdsHandler) (a : Ptr) (hne : h' ≠ h) :
    own n h (t.lwcanTimeout now ms h' a) ≤ own n h t := by
  have hle := own_lwcanTimeout_le t n now ms h h' a
  simpa [hne] using hle

theorem own_lwcanUntimeout_le (h' : UdsHandler) (a : Ptr) :
    own n h (t.lwcanUntimeout h' a) ≤ own n h t := by
  unfold own
  rw [Timeouts.nextTimeout_lwcanUntimeout]
  exact List.Sublist.countP_le List.eraseP_sublist

/-- Arming removes nothing. -/
theorem own_le_lwcanTimeout (t : Timeouts UdsHandler Ptr) (n now ms : Nat) (h h' : UdsHandler)
    (a : Ptr) : own n h t ≤ own n h (t.lwcanTimeout now ms h' a) := by
  obtain ⟨-, hc⟩ | ⟨mem, pool, -, -, hc⟩ := t.lwcanTimeout_cases now ms h' a
  · rw [hc]
  · rw [hc]
    unfold own
    rw [(Timeouts.insert_perm _ _).countP_eq, List.countP_cons]
    exact Nat.le_add_right _ _

/-- Cancelling a timer of another handler removes nothing. -/
theorem own_lwcanUntimeout_of_ne (t : Timeouts UdsHandler Ptr) (n : Nat) {h h' : UdsHandler}
    (a : Ptr) (hne : h' ≠ h) : own n h (t.lwcanUntimeout h' a) = own n h t := by
  unfold own
  rw [Timeouts.nextTimeout_lwcanUntimeout]
  induction t.nextTimeout with
  | nil => rfl
  | cons e l ih =>
    by_cases hm : Timeouts.Timeout.matches h' a e
    · rw [List.eraseP_cons_of_pos hm, List.countP_cons]
      have hh : e.handler = h' := by
        simp only [Timeouts.Timeout.matches, Bool.and_eq_true, decide_eq_true_eq] at hm
        exact hm.1
      simp [ownEntry, hh, hne]
    · rw [List.eraseP_cons_of_neg hm, List.countP_cons, List.countP_cons, ih]

theorem own_expire {now : Nat} {e : Timeout UdsHandler Ptr} (he : t.expire now = some (e, t')) :
    own n h t = own n h t' + if ownEntry n h e then 1 else 0 := by
  unfold own
  rw [(Timeouts.expire_eq_some he).1, List.countP_cons]

/-- The first entry that `lwcan_untimeout` finds is the request's own, if it has one. -/
def FirstOwn (n : Nat) (h : UdsHandler) (t : Timeouts UdsHandler Ptr) : Prop :=
  ∀ e ∈ t.nextTimeout.find? (Timeouts.Timeout.matches h .null), e.stamp < n → own n h t = 0

instance (n : Nat) (h : UdsHandler) (t : Timeouts UdsHandler Ptr) : Decidable (FirstOwn n h t) :=
  inferInstanceAs (Decidable (∀ e ∈ _, _ → _))

/-- **Cancelling the only own entry**, if it is the first one found, leaves none. -/
theorem own_lwcanUntimeout (ht : Client.TimersOk t) (hle : own n h t ≤ 1) (hf : FirstOwn n h t)
    (hh : ∀ k, h ≠ .other k) : own n h (t.lwcanUntimeout h .null) = 0 := by
  have hmatch : ∀ e ∈ t.nextTimeout, ownEntry n h e = true →
      Timeouts.Timeout.matches h .null e = true := by
    intro e he ho
    simp only [ownEntry, Bool.and_eq_true, decide_eq_true_eq] at ho
    obtain ⟨k, hk⟩ | ha := ht.null e he
    · exact absurd (ho.1.symm.trans hk) (hh k)
    · simp [Timeouts.Timeout.matches, ho.1, ha]
  rw [own, Timeouts.nextTimeout_lwcanUntimeout]
  unfold FirstOwn at hf
  unfold own at hle hf
  generalize t.nextTimeout = l at hmatch hle hf
  induction l with
  | nil => rfl
  | cons e l ih =>
    by_cases hm : Timeouts.Timeout.matches h .null e
    · -- the entry found: it is the only own one, or there is none
      rw [List.eraseP_cons_of_pos hm]
      rw [List.find?_cons_of_pos hm] at hf
      rw [List.countP_cons] at hle hf
      by_cases hs : e.stamp < n
      · have := hf e rfl hs
        omega
      · have ho : ownEntry n h e = true := by
          simp only [Timeouts.Timeout.matches, Bool.and_eq_true, decide_eq_true_eq] at hm
          simp only [ownEntry, Bool.and_eq_true, decide_eq_true_eq]
          exact ⟨hm.1, by omega⟩
        rw [if_pos ho] at hle
        omega
    · have ho : ownEntry n h e = false := by
        rw [Bool.eq_false_iff]
        exact fun ho => hm (hmatch e List.mem_cons_self ho)
      rw [List.eraseP_cons_of_neg (by simpa using hm), List.countP_cons, ho]
      rw [List.find?_cons_of_neg (by simpa using hm)] at hf
      rw [List.countP_cons, ho] at hle hf
      simpa using ih (fun e' he' => hmatch e' (List.mem_cons_of_mem _ he')) (by simpa using hle)
        (by simpa using hf)

theorem firstOwn_zero : FirstOwn 0 h t := fun _ _ hlt => absurd hlt (Nat.not_lt_zero _)

namespace Client

variable {cfg : UdsConfig} {s : Client}

/-- The `switch` cancels, and arms nothing. -/
theorem own_untimeoutResponse_le : own n h s.untimeoutResponse.timeouts ≤ own n h s.timeouts := by
  unfold untimeoutResponse
  split
  · exact own_lwcanUntimeout_le _ _
  · exact own_lwcanUntimeout_le _ _
  · exact le_rfl

/-- **A call arms no timer of the client.** -/
theorem own_call_le (cfg : UdsConfig) (hh : ∀ k, h ≠ .other k) (c : Call) :
    own n h (s.call cfg c).timeouts ≤ own n h s.timeouts := by
  cases c with
  | udsClientInit isotpPcb => cases isotpPcb <;> exact le_rfl
  | udsClientDeinit =>
    simp only [call, udsClientDeinit]
    split
    · exact le_rfl
    · dsimp only
      split
      · exact own_lwcanUntimeout_le _ _
      · exact le_rfl
  | udsClientConnect cb arg bind send =>
    simp only [call, udsClientConnect]
    split
    · exact le_rfl
    split
    · exact le_rfl
    split
    · exact le_rfl
    · simp
  | udsClientDisconnect =>
    simp only [call, udsClientDisconnect]
    split
    · exact le_rfl
    · -- disconnecting cancels, and cancelling adds nothing
      calc own n h (((s.timeouts.lwcanUntimeout .p2TimerHandler .null).lwcanUntimeout
            .p2StarTimerHandler .null).lwcanUntimeout .s3TimerHandler .null)
          ≤ own n h ((s.timeouts.lwcanUntimeout .p2TimerHandler .null).lwcanUntimeout
            .p2StarTimerHandler .null) := own_lwcanUntimeout_le _ _
        _ ≤ own n h (s.timeouts.lwcanUntimeout .p2TimerHandler .null) := own_lwcanUntimeout_le _ _
        _ ≤ own n h s.timeouts := own_lwcanUntimeout_le _ _
  | udsSetContext context handle =>
    simp only [call, udsSetContext]
    split <;> exact le_rfl
  | udsSetP2Timer time =>
    simp only [call, udsSetP2Timer]
    split <;> exact le_rfl
  | udsSetP2StarTimer time =>
    simp only [call, udsSetP2StarTimer]
    split <;> exact le_rfl
  | udsSendRequest request withResponse send => simp [call]
  | lwcanTimeout ms m arg => exact own_lwcanTimeout_of_ne _ _ _ _ fun he => hh m he.symm
  | lwcanUntimeout m arg => exact own_lwcanUntimeout_le _ _

end Client

end Uds
end Lwcan
