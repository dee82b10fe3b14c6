import Lwcan.Progress
import Lwcan.Sender

/-!
# A reply that overtakes the confirmation

The peer answers a first frame, and a consecutive frame that ends a block, with flow control, and
flow control with a consecutive frame. A flow waits for the answer only once its driver has
confirmed the frame: `sent_ff`, `sent_cf` and `sent_fc` make it wait, and `received_fc` and
`received_cf` ignore what comes before that. `sent_ff` is ready to find the flow in another state
than the one it left, but nothing brings the flow there.

* `Requests` — a frame is on its way that the peer answers.
* `Commutes` — reply and confirmation may come in either order.
* `not_commutes` — they never may: the reply that comes first is lost.
-/

namespace Lwcan

/-- An entry of the log that a reply leaves when it is processed -/
def Obs.isReply : Obs → Bool
  | .flowControl _ _ _ _ | .consecutive _ _ => true
  | _ => false

/-- How many replies a flow has seen processed -/
def View.replies (v : View) : Nat := v.log.countP Obs.isReply

theorem View.replies_append {v w : View} {l : List Obs} (h : w.log = v.log ++ l) :
    w.replies = v.replies + l.countP Obs.isReply := by
  rw [View.replies, h, List.countP_append]
  rfl

theorem View.replies_reply {v w : View} (o : Obs) (ho : o.isReply = true)
    (h : w.log = v.log ++ [o]) : w.replies = v.replies + 1 := by
  rw [View.replies_append h, List.countP_singleton, if_pos ho]

/-- What is stored or handed over is no reply. -/
theorem View.replies_storeCf (v : View) (p : Nat) (data : Nat → UInt8) (n : Nat) :
    (v.storeCf p data n).replies = v.replies :=
  View.replies_append (l := [.store p _ _ _]) rfl

/-- A consecutive frame that is processed is one reply. -/
theorem View.replies_consecutive (v : View) (p : Nat) (frame : CanFrame) :
    ((({ v with err := v.err - 1 } : View).emit (.consecutive p frame.wire)).storeCf p frame.data
      frame.len).replies = v.replies + 1 :=
  (View.replies_storeCf _ p frame.data frame.len).trans
    (View.replies_reply (.consecutive p frame.wire) rfl rfl)

theorem View.replies_deliver (v : View) (pcb : IsotpPcb) (p : Nat) :
    (v.deliver pcb p).replies = v.replies := by
  unfold View.deliver
  split
  · rfl
  · split
    · exact View.replies_append (l := [.receive p _ _ _]) rfl
    · exact View.replies_append (l := [.released p _]) rfl

namespace Node

variable {cfg : Config} {s s₁ s₂ t : Node} {k : FlowId} {p canif : Nat} {frame : CanFrame}
  {g : Grant} {es : List Event}

/-- The frame that the driver has to confirm is one that the peer answers. -/
def Requests (s : Node) (k : FlowId) : Prop :=
  match k.2 with
  | .output => (s.flow k).state = .txFf ∨ (s.flow k).state = .txCf ∧ (s.flow k).remainingData ≠ 0 ∧
    ¬ blockOpen (s.flow k).bs (s.flow k).cfSn
  | .input => (s.flow k).state = .txFc ∧ (s.flow k).fs = fsReady

/-- The peer's answer: flow control with one of the three statuses, or the consecutive frame that is
next -/
def Replies (s : Node) (k : FlowId) (canif : Nat) (frame : CanFrame) : Prop :=
  s.findPcb canif frame = some k.1 ∧
    match k.2 with
    | .output =>
      frame.data 0 &&& frameTypeMask = fcType ∧ (frame.data 0 &&& 0x0F).toNat ≤ fsOverflow
    | .input => frame.data 0 &&& frameTypeMask = cfType ∧
      (frame.data 0 &&& 0x0F).toNat = (s.flow k).cfSn

/-- **Two nodes are as far** with a flow: state, remaining data, buffers, the frame that is due
next, and the replies processed. -/
structure AsFar (k : FlowId) (s₁ s₂ : Node) : Prop where
  state : (s₁.flow k).state = (s₂.flow k).state
  remaining : (s₁.flow k).remainingData = (s₂.flow k).remainingData
  buffers : (s₁.view k).chain = (s₂.view k).chain
  due : (s₁.view k).tx = (s₂.view k).tx ∧ (s₁.flow k).cfSn = (s₂.flow k).cfSn
  replies : (s₁.view k).replies = (s₂.view k).replies

/-- **Reply and confirmation may come in either order.** -/
def Commutes (cfg : Config) (s : Node) (k : FlowId) (reply : Event) : Prop :=
  ∃ s₁ s₂, Runs.run (step cfg) s [reply, .sent k .ok] = some s₁ ∧
    Runs.run (step cfg) s [.sent k .ok, reply] = some s₂ ∧ AsFar k s₁ s₂

/-! ### The reply first -/

/-- **A reply that comes first** changes nothing. -/
theorem isotpInput_early (h : s.Requests k) (hf : s.Replies k canif frame) :
    s.isotpInput cfg canif frame g = s := by
  obtain ⟨p, d⟩ := k
  obtain ⟨hp, hf⟩ := hf
  unfold isotpInput
  simp only [hp]
  cases d with
  | output =>
    obtain ⟨ht, -⟩ := hf
    -- `received_fc` returns unless the flow is in `ISOTP_WAIT_FC`
    have hs : (s.flow (p, .output)).state ≠ .waitFc := by
      obtain hs | ⟨hs, -, -⟩ := h
      · rw [hs]
        decide
      · rw [hs]
        decide
    rw [if_neg (by rw [ht]; decide), if_neg (by rw [ht]; decide), if_neg (by rw [ht]; decide),
      if_pos ht]
    exact if_pos hs
  | input =>
    obtain ⟨ht, -⟩ := hf
    obtain ⟨hs, -⟩ := h
    rw [if_neg (by rw [ht]; decide), if_neg (by rw [ht]; decide), if_pos ht]
    -- so does `received_cf` unless it is in `ISOTP_WAIT_CF`
    exact if_pos (by rw [hs]; decide)

/-! ### The confirmation -/

/-- A confirmation that makes the flow wait calls nobody and takes no buffer. -/
theorem isotpSent_requests (cfg : Config) (h : s.Requests k) :
    (s.isotpSent cfg k .ok).suspended = s.suspended ∧ (s.isotpSent cfg k .ok).heap = s.heap := by
  obtain ⟨p, d⟩ := k
  unfold isotpSent isotpSentSwitch
  simp only [ne_eq, not_true_eq_false, if_false]
  cases d with
  | output =>
    obtain hs | ⟨hs, hr, hb⟩ := h
    · simp only [hs, sentFf]
      exact ⟨rfl, rfl⟩
    · simp only [hs, sentCf, hr, hb, if_false]
      exact ⟨rfl, rfl⟩
  | input =>
    obtain ⟨hs, hf⟩ := h
    simp only [hs, sentFc, hf, ne_eq, not_true_eq_false, if_false]
    exact ⟨rfl, rfl⟩

/-- **Once its frame is confirmed** the flow waits for the reply, with the sequence number that is
next, and has processed none since. -/
theorem sent_requests (hs : Sound s) (hk : k ∈ s.confirms) (h : s.Requests k)
    (hst : step cfg s (.sent k .ok) = some t) :
    (t.flow k).state = (match k.2 with | .output => .waitFc | .input => .waitCf) ∧
      (k.2 = .input → (t.flow k).cfSn = (s.flow k).cfSn) ∧
      (t.view k).replies = (s.view k).replies := by
  obtain ⟨p, d⟩ := k
  -- the driver owes the confirmation, so the flow takes it
  have hne : t.view (p, d) ≠ s.view (p, d) :=
    view_ne_of_concerns hst (decide_eq_true rfl) fun _ _ => hk
  rw [← view_flow, ← view_flow]
  cases d with
  | output =>
    obtain he | hmove := (hs.moves hst).output p
    · exact absurd he hne
    generalize t.view (p, .output) = v at *
    cases hmove with
    | refuse _ herr => exact absurd rfl herr
    | confirm _ hsw =>
      cases hsw with
      | skip hsk =>
        exfalso
        -- no frame that the peer answers is handed over in these states
        obtain hq | ⟨hq, -, -⟩ := h <;> obtain hsk | hsk := hsk <;> cases hq.symm.trans hsk
      | complete hd =>
        exfalso
        obtain hq | ⟨hq, hr, -⟩ := h <;> obtain hd | ⟨hd, hz⟩ := hd
        · cases hq.symm.trans hd
        · cases hq.symm.trans hd
        · cases hq.symm.trans hd
        · exact hr hz
      | ff => exact ⟨rfl, by rintro ⟨⟩, View.replies_append (l := [.waitFc p]) rfl⟩
      | cf hq hr hopen =>
        exfalso
        -- a block that goes on asks for nothing
        obtain hq' | ⟨-, -, hb⟩ := h
        · cases hq.symm.trans hq'
        · exact hb hopen
      | block => exact ⟨rfl, by rintro ⟨⟩, View.replies_append (l := [.waitFc p]) rfl⟩
  | input =>
    obtain he | hmove := (hs.moves hst).input p
    · exact absurd he hne
    obtain ⟨hq, hf⟩ := h
    generalize t.view (p, .input) = v at *
    cases hmove with
    | refuse _ herr => exact absurd rfl herr
    | confirm _ hsw =>
      cases hsw with
      | skip hsk =>
        exfalso
        obtain hsk | hsk := hsk <;> cases hq.symm.trans hsk
      | abort _ hno => exact absurd hf hno
      | ready => exact ⟨rfl, fun _ => rfl, rfl⟩

/-! ### The reply after it -/

/-- The sequence number that follows is another one. -/
theorem nextSn_ne {n : Nat} (h : n < 16) : nextSn n ≠ n := by
  have hall : ∀ n < 16, nextSn n ≠ n := by decide
  exact hall n h

/-- **A reply that is waited for** is processed, and leaves no flow as it was. -/
theorem input_taken (hs : Sound t) (hw : (t.flow k).state =
      (match k.2 with | .output => .waitFc | .input => .waitCf))
    (hf : t.Replies k canif frame) (hst : step cfg t (.input canif frame g) = some s₂) :
    s₂.flow k ≠ t.flow k ∧ (s₂.view k).replies = (t.view k).replies + 1 := by
  obtain ⟨p, d⟩ := k
  obtain ⟨hp, hf⟩ := hf
  rw [← view_flow, ← view_flow]
  cases d with
  | output =>
    have hne := view_ne_of_flowControl hst hp hf.1 hw
    obtain he | hmove := (hs.moves hst).output p
    · exact absurd he hne
    generalize s₂.view (p, .output) = v at *
    cases hmove with
    | wait hfind hq hfs hn =>
      refine ⟨fun heq => ?_, View.replies_reply (.flowControl p _ _ _) rfl rfl⟩
      -- a WAIT frame leaves the state, but counts down `n_wft`
      have hwft := congrArg IsotpFlow.nWft heq
      change u8 (((t.view (p, .output)).flow.nWft : Int) - 1) = _ at hwft
      unfold u8 at hwft
      omega
    | abort hfind =>
      refine ⟨fun heq => ?_, ?_⟩
      · -- any other status than READY ends the message
        have hidle := (congrArg IsotpFlow.state heq).symm.trans (View.fail_state ..)
        cases hw.symm.trans hidle
      · refine (View.replies_append ((View.fail_log ..).trans (List.append_assoc _ [_] _))).trans ?_
        cases (t.pcb p).error <;> rfl
    | proceed hfind =>
      refine ⟨fun heq => ?_, View.replies_reply (.flowControl p _ _ _) rfl rfl⟩
      cases hw.symm.trans (congrArg IsotpFlow.state heq).symm
  | input =>
    have hne := view_ne_of_awaits hst hp (Or.inr (Or.inr ⟨hf.1, hw⟩))
    obtain he | hmove := (hs.moves hst).input p
    · exact absurd he hne
    generalize s₂.view (p, .input) = v at *
    cases hmove with
    | sfMemory _ ht | sf _ ht | ffMemory _ ht | ffMemoryCallback _ ht | ff _ ht | ffCallback _ ht =>
      -- the reply is a consecutive frame, and bears the number that is due
      cases ht.symm.trans hf.1
    | cfWrong _ _ _ hsn => exact absurd hf.2.symm hsn
    | cfLast hfind ht hq hsn hv hr =>
      subst hv
      refine ⟨fun heq => ?_, ?_⟩
      · -- with nothing left the message is handed over
        have hidle := (congrArg IsotpFlow.state heq).symm.trans (View.deliver_state ..)
        cases hw.symm.trans hidle
      · rw [View.replies_deliver]
        exact View.replies_consecutive ..
    | cf hfind ht hq hsn hv hr hb =>
      subst hv
      refine ⟨fun heq => ?_, ?_⟩
      · -- within a block only the sequence number tells
        have hlt : (t.view (p, .input)).flow.cfSn < 16 := by
          rw [hsn]
          exact lt_of_le_of_lt Nat.and_le_right (by decide)
        exact nextSn_ne hlt (congrArg IsotpFlow.cfSn heq)
      · exact View.replies_consecutive ..
    | block hfind ht hq hsn hv hr hb =>
      subst hv
      refine ⟨fun heq => ?_, ?_⟩
      · cases hw.symm.trans (congrArg IsotpFlow.state heq).symm
      · exact View.replies_consecutive ..

/-- **A reply and the confirmation of its frame never commute.** Both orders are possible. The reply
that comes first is lost: nothing is left but the confirmation, and the flow goes on waiting. The
reply that comes second is processed, and leaves the flow in another condition. -/
theorem not_commutes (hr : Run cfg es s) (hk : k ∈ s.confirms) (h : s.Requests k)
    (hf : s.Replies k canif frame) (he : s.Enabled (.input canif frame g)) :
    ¬ Commutes cfg s k (.input canif frame g) ∧
      ∃ s₁ s₂, Runs.run (step cfg) s [.input canif frame g, .sent k .ok] = some s₁ ∧
        Runs.run (step cfg) s [.sent k .ok, .input canif frame g] = some s₂ ∧
        step cfg s (.sent k .ok) = some s₁ ∧ (s₁.flow k).state.waits ∧
        s₂.flow k ≠ s₁.flow k ∧ (s₁.view k).replies = (s.view k).replies ∧
        (s₂.view k).replies = (s.view k).replies + 1 := by
  have hs := sound_run hr
  -- the reply first
  have hearly : step cfg s (.input canif frame g) = some s :=
    step_eq_some.mpr ⟨he, isotpInput_early h hf⟩
  obtain ⟨s₁, hst⟩ : ∃ s₁, step cfg s (.sent k .ok) = some s₁ := ⟨_, step_eq_some.mpr ⟨he.1, rfl⟩⟩
  have hrun₁ : Runs.run (step cfg) s [.input canif frame g, .sent k .ok] = some s₁ :=
    Runs.run_cons.mpr ⟨s, hearly, Runs.run_cons.mpr ⟨s₁, hst, rfl⟩⟩
  -- the confirmation first
  obtain ⟨hstate, hsn, hreplies⟩ := sent_requests hs hk h hst
  -- the reply is for the same pcb, and still bears the number that is due
  have hf₁ : s₁.Replies k canif frame := by
    obtain ⟨p, d⟩ := k
    obtain ⟨hp, hf⟩ := hf
    refine ⟨((SameSetup.step hst (by rintro _ ⟨⟩)).findPcb canif frame).trans hp, ?_⟩
    cases d with
    | output => exact hf
    | input => exact ⟨hf.1, hf.2.trans (hsn rfl).symm⟩
  -- it can still come: no callback was called, and no memory taken
  have he₁ : s₁.Enabled (.input canif frame g) := by
    obtain ⟨-, rfl⟩ := step_eq_some.mp hst
    have hreq : ({ s with confirms := s.confirms.erase k } : Node).Requests k := h
    obtain ⟨hsus, hheap⟩ := isotpSent_requests cfg hreq
    refine ⟨?_, ?_⟩
    · show (Node.isotpSent cfg _ k .ok).suspended.isNone
      rw [hsus]
      exact he.1
    · show g.Fresh (Node.isotpSent cfg _ k .ok).heap.blocks
      rw [hheap]
      exact he.2
  obtain ⟨s₂, hst₂⟩ : ∃ s₂, step cfg s₁ (.input canif frame g) = some s₂ :=
    ⟨_, step_eq_some.mpr ⟨he₁, rfl⟩⟩
  have hrun₂ : Runs.run (step cfg) s [.sent k .ok, .input canif frame g] = some s₂ :=
    Runs.run_cons.mpr ⟨s₁, hst, Runs.run_cons.mpr ⟨s₂, hst₂, rfl⟩⟩
  obtain ⟨hflow, htaken⟩ := input_taken (hs.step hst) hstate hf₁ hst₂
  rw [hreplies] at htaken
  refine ⟨?_, s₁, s₂, hrun₁, hrun₂, hst, ?_, hflow, hreplies, htaken⟩
  · -- both orders end in one state each, and these differ in the replies processed
    rintro ⟨t₁, t₂, ht₁, ht₂, hfar⟩
    obtain rfl := Option.some.inj (hrun₁.symm.trans ht₁)
    obtain rfl := Option.some.inj (hrun₂.symm.trans ht₂)
    have := hfar.replies
    omega
  · rw [hstate]
    split <;> rfl

/-- A connection whose driver has accepted a first frame -/
def firstFrameOwed : List Event := connected ++
  [.call (.isotpSend (some 0) (some eightBytes) ⟨some 1, some 2, fun _ => 0⟩),
    .timer ⟨0, 0, 0, fun _ => 0⟩ .ok]

theorem not_commutes_firstFrame : ∃ s, Run Config.classic firstFrameOwed s ∧
    (0, .output) ∈ s.confirms ∧
    ¬ Commutes Config.classic s (0, .output) (.input 0 readyFrame ⟨none, none, fun _ => 0⟩) := by
  obtain ⟨s, hr, hk, hs, hp, he⟩ := exists_run Config.classic firstFrameOwed
    (fun s => (0, .output) ∈ s.confirms ∧ (s.flow (0, .output)).state = .txFf ∧
      s.findPcb 0 readyFrame = some 0 ∧ s.Enabled (.input 0 readyFrame ⟨none, none, fun _ => 0⟩))
    (by decide)
  exact ⟨s, hr, hk, (not_commutes hr hk (Or.inl hs) ⟨hp, rfl, by decide⟩ he).1⟩

/-- **The peer says READY, and the sender waits on**: the flow control comes before the confirmation
of the first frame, and is gone. -/
theorem reply_lost : ¬∀ (cfg : Config) (es : List Event) (s : Node) (k : FlowId) (canif : Nat)
    (frame : CanFrame) (g : Grant), Run cfg es s → k ∈ s.confirms → s.Requests k →
    s.Replies k canif frame → s.Enabled (.input canif frame g) →
    Commutes cfg s k (.input canif frame g) := by
  intro h
  obtain ⟨s, hr, hk, hs, hp, he, h₁, h₂⟩ := exists_run Config.classic firstFrameOwed
    (fun s => (0, .output) ∈ s.confirms ∧ (s.flow (0, .output)).state = .txFf ∧
      s.findPcb 0 readyFrame = some 0 ∧ s.Enabled (.input 0 readyFrame ⟨none, none, fun _ => 0⟩) ∧
      (Runs.run (step Config.classic) s [.input 0 readyFrame ⟨none, none, fun _ => 0⟩,
        .sent (0, .output) .ok]).map (fun t => (t.flow (0, .output)).state) = some .waitFc ∧
      (Runs.run (step Config.classic) s [.sent (0, .output) .ok,
        .input 0 readyFrame ⟨none, none, fun _ => 0⟩]).map
          (fun t => (t.flow (0, .output)).state) = some .txCf) (by decide)
  obtain ⟨s₁, s₂, hrun₁, hrun₂, hfar⟩ := h Config.classic _ s (0, .output) 0 readyFrame
    ⟨none, none, fun _ => 0⟩ hr hk (Or.inl hs) ⟨hp, rfl, by decide⟩ he
  rw [hrun₁] at h₁
  rw [hrun₂] at h₂
  have hwait : (s₁.flow (0, .output)).state = .waitFc := Option.some.inj h₁
  have hsend : (s₂.flow (0, .output)).state = .txCf := Option.some.inj h₂
  cases hwait.symm.trans (hfar.state.trans hsend)

end Node
end Lwcan
