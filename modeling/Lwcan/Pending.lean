import Lwcan.Reachable

/-!
# At most one thing is pending for a flow

While a frame of a flow is on its way, the flow's output handler is pending once or the driver owes
one confirmation. While the peer is awaited, the error handler is pending once. While the flow is
idle, nothing is. That is an upper bound, `AtMostOne`; that the flow does not lose the one thing it
waits for is another matter (`Lwcan.Wakeup`).

The bound needs drivers that confirm only what they have accepted, and for the output flow that no
message is accepted inside the error callback of `isotp_sent`, whose `switch` then finds the state
of the new message and takes its confirmation for granted.
-/

namespace Lwcan

/-- A frame of the flow is on its way to the driver or on the bus. -/
def IsotpState.sends : IsotpState → Bool
  | .txSf | .txFf | .txCf | .txFc => true
  | .idle | .waitCf | .waitFc => false

/-- The flow awaits a frame of the peer. -/
def IsotpState.waits : IsotpState → Bool
  | .waitCf | .waitFc => true
  | .idle | .txSf | .txFf | .txCf | .txFc => false

/-- An input flow sends flow control only. -/
theorem IsotpState.eq_txFc {st : IsotpState} (h : st.sends) (hu : Dir.input.uses st) :
    st = .txFc := by
  cases st <;> first | rfl | exact absurd h (by decide) | exact absurd hu (by decide)

/-- An input flow awaits consecutive frames only. -/
theorem IsotpState.eq_waitCf {st : IsotpState} (h : st.waits) (hu : Dir.input.uses st) :
    st = .waitCf := by
  cases st <;> first | rfl | exact absurd h (by decide) | exact absurd hu (by decide)

theorem ne_idle_of_sends {st : IsotpState} (h : st.sends) : st ≠ .idle := by
  rintro rfl
  cases h

theorem ne_idle_of_waits {st : IsotpState} (h : st.waits) : st ≠ .idle := by
  rintro rfl
  cases h

theorem not_sends_of_waits {st : IsotpState} (h : st.waits) : ¬ st.sends := by
  intro hs
  cases st <;> first | exact absurd h (by decide) | exact absurd hs (by decide)

/-- What may be pending for a flow in a state: entries of its output handler, entries of its error
handler, and confirmations. -/
def Pending (state : IsotpState) (tx err confirms : Nat) : Prop :=
  match state with
  | .idle => tx = 0 ∧ err = 0 ∧ confirms = 0
  | .txSf | .txFf | .txCf | .txFc => err = 0 ∧ tx + confirms ≤ 1
  | .waitCf | .waitFc => tx = 0 ∧ err ≤ 1 ∧ confirms = 0

/-- **At most one thing is pending**, the one the state asks for, and a flow is idle while a
function of it waits for a callback. -/
structure AtMostOne (v : View) : Prop where
  pending : Pending v.flow.state v.tx v.err v.confirms
  suspended : v.suspended ≠ none → v.flow.state = .idle

/-- In an idle flow the switch does nothing. -/
theorem OutputSwitch.eq_of_idle {pcb : IsotpPcb} {p : Nat} {slot : Bool} {v v' : View}
    (hw : OutputSwitch pcb p slot v v') (h : v.flow.state = .idle) : v' = v := by
  cases hw with
  | skip => rfl
  | complete hc => simp [h] at hc
  | ff hc | cf hc | block hc => simp [h] at hc

theorem InputSwitch.eq_of_idle {pcb : IsotpPcb} {p : Nat} {slot : Bool} {v v' : View}
    (hw : InputSwitch pcb p slot v v') (h : v.flow.state = .idle) : v' = v := by
  cases hw with
  | skip => rfl
  | abort hc | ready hc => simp [h] at hc

namespace Node

/-- The driver confirms only frames it has accepted, each once. -/
def ConfirmsAccepted (s : Node) : Event → Prop
  | .sent k _ => k ∈ s.confirms
  | _ => True

/-- No message is accepted for a pcb inside the error callback of its own failed confirmation. -/
def SendsOutside (s : Node) : Event → Prop
  | .call (.isotpSend (some p) (some d) g) =>
    d.length ≠ 0 → (s.flow (p, .output)).state = .idle → g.granted →
      ∀ f ∈ s.suspended, f.flow ≠ (p, .output)
  | _ => True

instance (s : Node) : (e : Event) → Decidable (s.ConfirmsAccepted e)
  | .sent k _ => inferInstanceAs (Decidable (k ∈ s.confirms))
  | .call _ | .input _ _ _ | .timer _ _ | .resume | .tick _ => inferInstanceAs (Decidable True)

instance (s : Node) : (e : Event) → Decidable (s.SendsOutside e)
  | .call (.isotpSend (some p) (some d) g) =>
    inferInstanceAs (Decidable (d.length ≠ 0 → (s.flow (p, .output)).state = .idle → g.granted →
      ∀ f ∈ s.suspended, f.flow ≠ (p, .output)))
  | .call (.isotpSend none _ _) | .call (.isotpSend (some _) none _)
  | .call .isotpNew | .call (.isotpBind _ _) | .call (.isotpRemove _)
  | .call (.isotpSetCallbacks _ _ _ _ _) | .call (.isotpSetCallbackArg _ _)
  | .call (.isotpReceived _ _) | .call (.canifAdd _ _ _) | .call (.canifRemove _)
  | .call (.lwcanTimeout _ _ _) | .call (.lwcanUntimeout _ _) | .input _ _ _ | .timer _ _
  | .sent _ _ | .resume | .tick _ => isTrue True.intro

end Node

namespace AtMostOne

open Node

variable {cfg : Config} {s : Node} {p : Nat} {e : Event} {v v' : View}

theorem initial : AtMostOne View.initial := ⟨⟨rfl, rfl, rfl⟩, fun h => absurd rfl h⟩

/-! ### Reaching a state -/

/-- Giving a message up leaves nothing pending, if nothing was pending but what has just gone. -/
theorem fail {k : FlowId} {c : Bool} {arg : Ptr} {err : Lwcanerr} (ht : v.tx = 0) (he : v.err = 0)
    (hc : v.confirms = 0) (hs : v.suspended = none) : AtMostOne (v.fail k c arg err) := by
  refine ⟨?_, fun h => absurd ?_ h⟩
  · rw [View.fail, View.emitIf_flow, View.emitIf_tx, View.emitIf_err, View.emitIf_confirms]
    exact ⟨ht, he, hc⟩
  · rw [View.fail, View.emitIf_suspended]
    exact hs

theorem refused {k : FlowId} {pcb : IsotpPcb} {err : Lwcanerr} (ht : v.tx = 0) (he : v.err = 0)
    (hc : v.confirms = 0) : AtMostOne (v.refused k pcb err) := by
  refine ⟨?_, fun _ => ?_⟩
  · rw [View.refused_flow, View.refused_tx, View.refused_err, View.refused_confirms]
    exact ⟨ht, he, hc⟩
  · rw [View.refused_flow]

theorem sending (hst : v.flow.state.sends) (he : v.err = 0) (hc : v.tx + v.confirms ≤ 1)
    (hs : v.suspended = none) : AtMostOne v := by
  refine ⟨?_, fun h => absurd hs h⟩
  cases h : v.flow.state <;> rw [h] at hst <;> first | exact ⟨he, hc⟩ | cases hst

theorem waiting (hst : v.flow.state.waits) (ht : v.tx = 0) (he : v.err ≤ 1) (hc : v.confirms = 0)
    (hs : v.suspended = none) : AtMostOne v := by
  refine ⟨?_, fun h => absurd hs h⟩
  cases h : v.flow.state <;> rw [h] at hst <;> first | exact ⟨ht, he, hc⟩ | cases hst

theorem idle (hst : v.flow.state = .idle) (ht : v.tx = 0) (he : v.err = 0) (hc : v.confirms = 0) :
    AtMostOne v :=
  ⟨by rw [hst]; exact ⟨ht, he, hc⟩, fun _ => hst⟩

/-! ### What is pending tells the state -/

/-- While an entry of the output handler is pending, it is all there is. -/
theorem of_tx_pos (h : AtMostOne v) (ht : 0 < v.tx) :
    v.tx = 1 ∧ v.err = 0 ∧ v.confirms = 0 ∧ v.suspended = none ∧ v.flow.state.sends := by
  obtain ⟨hp, hs⟩ := h
  cases hst : v.flow.state <;> rw [hst] at hp hs <;> simp only [Pending] at hp
  case txSf | txFf | txCf | txFc =>
    exact ⟨by omega, hp.1, by omega, by simpa using hs, rfl⟩
  all_goals omega

/-- While a confirmation is owed, it is all there is. -/
theorem of_confirms_pos (h : AtMostOne v) (hc : 0 < v.confirms) :
    v.confirms = 1 ∧ v.tx = 0 ∧ v.err = 0 ∧ v.suspended = none ∧ v.flow.state.sends := by
  obtain ⟨hp, hs⟩ := h
  cases hst : v.flow.state <;> rw [hst] at hp hs <;> simp only [Pending] at hp
  case txSf | txFf | txCf | txFc =>
    exact ⟨by omega, by omega, hp.1, by simpa using hs, rfl⟩
  all_goals omega

/-- While the peer is awaited, an entry of the error handler is all there is. -/
theorem of_waits (h : AtMostOne v) (hw : v.flow.state.waits) :
    v.err ≤ 1 ∧ v.tx = 0 ∧ v.confirms = 0 ∧ v.suspended = none := by
  obtain ⟨hp, hs⟩ := h
  cases hst : v.flow.state <;> rw [hst] at hp hs hw <;> simp only [Pending] at hp
  case waitCf | waitFc => exact ⟨hp.2.1, hp.1, hp.2.2, by simpa using hs⟩
  all_goals cases hw

/-- While an entry of the error handler is pending, the peer is awaited. -/
theorem waits_of_err_pos (h : AtMostOne v) (he : 0 < v.err) : v.flow.state.waits := by
  obtain ⟨hp, -⟩ := h
  cases hst : v.flow.state <;> rw [hst] at hp <;> simp only [Pending] at hp
  case waitCf | waitFc => rfl
  all_goals omega

/-- A flow for which anything is pending is not idle. -/
theorem ne_idle_of_tx (h : AtMostOne v) (ht : 0 < v.tx) : v.flow.state ≠ .idle :=
  ne_idle_of_sends (h.of_tx_pos ht).2.2.2.2

theorem ne_idle_of_confirms (h : AtMostOne v) (hc : 0 < v.confirms) : v.flow.state ≠ .idle :=
  ne_idle_of_sends (h.of_confirms_pos hc).2.2.2.2

theorem ne_idle_of_err (h : AtMostOne v) (he : 0 < v.err) : v.flow.state ≠ .idle :=
  ne_idle_of_waits (h.waits_of_err_pos he)

theorem of_idle (h : AtMostOne v) (hst : v.flow.state = .idle) :
    v.tx = 0 ∧ v.err = 0 ∧ v.confirms = 0 := by
  have hp := h.pending
  rwa [hst] at hp

/-- A suspended function's flow is idle. -/
theorem idle_of_suspended {k : FlowId} {f : Suspended} (h : AtMostOne (s.view k))
    (hs : s.suspended = some f) (hk : f.flow = k) : (s.view k).flow.state = .idle :=
  h.suspended (by simp [view, hs, hk])

/-! ### Transitions -/

section Both

variable {k : FlowId} {pcb : IsotpPcb} {slot c : Bool} {o : Obs}

/-- What is logged in an idle flow leaves it idle. -/
theorem emitIf (h : AtMostOne v) (hst : v.flow.state = .idle) : AtMostOne (v.emitIf c o) := by
  obtain ⟨ht, he, hc⟩ := h.of_idle hst
  refine idle ?_ ?_ ?_ ?_
  · rwa [View.emitIf_flow]
  · rwa [View.emitIf_tx]
  · rwa [View.emitIf_err]
  · rwa [View.emitIf_confirms]

theorem deliver (h : AtMostOne v) (hst : v.flow.state = .idle) : AtMostOne (v.deliver pcb p) := by
  obtain ⟨ht, he, hc⟩ := h.of_idle hst
  refine idle ?_ ?_ ?_ ?_
  · rwa [View.deliver_state]
  · rwa [View.deliver_tx]
  · rwa [View.deliver_err]
  · rwa [View.deliver_confirms]

/-- The entry of the output handler goes and nothing takes its place. -/
theorem skip (h : AtMostOne v) (ht : 0 < v.tx) : AtMostOne { v with tx := v.tx - 1 } := by
  obtain ⟨h₁, h₂, h₃, h₄, hst⟩ := h.of_tx_pos ht
  refine sending hst h₂ ?_ h₄
  show v.tx - 1 + v.confirms ≤ 1
  omega

/-- A confirmation takes the place of the entry of the output handler. -/
theorem output {fl : IsotpFlow} {canif timeout : Nat} {frame : CanFrame} (h : AtMostOne v)
    (ht : 0 < v.tx) (hfl : fl.state = v.flow.state) :
    AtMostOne (({ v with tx := v.tx - 1 }.setFlow fl).accepted k canif frame timeout) := by
  obtain ⟨h₁, h₂, h₃, h₄, hst⟩ := h.of_tx_pos ht
  refine sending ?_ h₂ ?_ h₄
  · show fl.state.sends
    rw [hfl]
    exact hst
  · show v.tx - 1 + (v.confirms + 1) ≤ 1
    omega

theorem reject {fl : IsotpFlow} {canif timeout : Nat} {frame : CanFrame} {ret : Lwcanerr}
    (h : AtMostOne v) (ht : 0 < v.tx) :
    AtMostOne (({ v with tx := v.tx - 1 }.setFlow fl).rejected k pcb canif frame timeout ret) := by
  obtain ⟨h₁, h₂, h₃, h₄, -⟩ := h.of_tx_pos ht
  refine fail ?_ h₂ h₃ h₄
  show v.tx - 1 = 0
  omega

theorem expire {arg : Ptr} {err : Lwcanerr} (h : AtMostOne v) (he : 0 < v.err) :
    AtMostOne ({ v with err := v.err - 1 }.fail k c arg err) := by
  obtain ⟨h₁, h₂, h₃, h₄⟩ := h.of_waits (h.waits_of_err_pos he)
  refine fail h₂ ?_ h₃ h₄
  show v.err - 1 = 0
  omega

theorem refuse {err : Lwcanerr} (h : AtMostOne v) (hc : 0 < v.confirms) :
    AtMostOne ({ v with confirms := v.confirms - 1 }.refused k pcb err) := by
  obtain ⟨h₁, h₂, h₃, -, -⟩ := h.of_confirms_pos hc
  refine refused h₂ h₃ ?_
  show v.confirms - 1 = 0
  omega

/-- From an idle flow a frame is put on its way. -/
theorem start {fl : IsotpFlow} {chain : List (Nat × LwcanBuffer)} {log : List Obs}
    (h : AtMostOne v) (hst : v.flow.state = .idle) (hs : v.suspended = none)
    (hfl : fl.state.sends) :
    AtMostOne ({ v with flow := fl, chain := chain, log := log }.armOutput slot) := by
  obtain ⟨h₁, h₂, h₃⟩ := h.of_idle hst
  refine sending hfl h₂ ?_ hs
  have hslot : slot.toNat ≤ 1 := Bool.toNat_le slot
  show v.tx + slot.toNat + v.confirms ≤ 1
  omega

/-- The peer has answered, the entry of the error handler is cancelled, and a frame is put on its
way. -/
theorem answer {fl : IsotpFlow} {chain : List (Nat × LwcanBuffer)} {log : List Obs}
    (h : AtMostOne v) (hst : v.flow.state.waits) (hfl : fl.state.sends) :
    AtMostOne ({ v with flow := fl, chain := chain, log := log, err := v.err - 1 }.armOutput
      slot) := by
  obtain ⟨h₁, h₂, h₃, h₄⟩ := h.of_waits hst
  have hslot : slot.toNat ≤ 1 := Bool.toNat_le slot
  refine sending hfl ?_ ?_ h₄
  · show v.err - 1 = 0
    omega
  · show v.tx + slot.toNat + v.confirms ≤ 1
    omega

/-- The entry of the error handler is armed anew. -/
theorem rearm {fl : IsotpFlow} {chain : List (Nat × LwcanBuffer)} {log : List Obs}
    (h : AtMostOne v) (hst : v.flow.state.waits) (hfl : fl.state.waits) :
    AtMostOne ({ v with flow := fl, chain := chain, log := log, err := v.err - 1 }.armError
      slot) := by
  obtain ⟨h₁, h₂, h₃, h₄⟩ := h.of_waits hst
  have hslot : slot.toNat ≤ 1 := Bool.toNat_le slot
  refine waiting hfl h₂ ?_ h₃ h₄
  show v.err - 1 + slot.toNat ≤ 1
  omega

/-- A suspended function finds its flow idle when it is resumed. -/
theorem resumed {f : Suspended} (h : AtMostOne (s.view k)) (hs : s.suspended = some f)
    (hk : f.flow = k) : AtMostOne { s.view k with suspended := none } := by
  have hst := h.idle_of_suspended hs hk
  obtain ⟨h₁, h₂, h₃⟩ := h.of_idle hst
  exact idle hst h₁ h₂ h₃

end Both

section Switch

variable {pcb : IsotpPcb} {slot : Bool}

/-- The switch of `isotp_sent` is run when the flow's one confirmation has come. -/
theorem outputSwitch (hw : OutputSwitch pcb p slot v v') (hc : v.confirms = 0) (ht : v.tx = 0)
    (he : v.err = 0) (hs : v.suspended = none) (hst : v.flow.state.sends) : AtMostOne v' := by
  have hslot : slot.toNat ≤ 1 := Bool.toNat_le slot
  cases hw with
  | skip hsk =>
    rcases hsk with hsk | hsk <;> rw [hsk] at hst <;> cases hst
  | complete =>
    refine emitIf ?_ rfl
    exact idle rfl ht he hc
  | ff | block =>
    refine waiting rfl ht ?_ hc hs
    show v.err + slot.toNat ≤ 1
    omega
  | cf =>
    refine sending rfl he ?_ hs
    show v.tx + slot.toNat + v.confirms ≤ 1
    omega

theorem inputSwitch (hw : InputSwitch pcb p slot v v') (hc : v.confirms = 0) (ht : v.tx = 0)
    (he : v.err = 0) (hs : v.suspended = none) (hst : v.flow.state.sends) : AtMostOne v' := by
  have hslot : slot.toNat ≤ 1 := Bool.toNat_le slot
  cases hw with
  | skip hsk =>
    rcases hsk with hsk | hsk <;> rw [hsk] at hst <;> cases hst
  | abort =>
    refine emitIf ?_ rfl
    exact idle rfl ht he hc
  | ready =>
    refine waiting rfl ht ?_ hc hs
    show v.err + slot.toNat ≤ 1
    omega

end Switch

theorem sendFlow_sends (cfg : Config) (flow : IsotpFlow) (b : Nat) (d : List UInt8) :
    (View.sendFlow cfg flow b d).state.sends := by
  unfold View.sendFlow
  split <;> rfl

/-- **Every transition of an output flow** keeps the bound. -/
theorem output_step (hn : e ≠ .call .isotpNew) (hc : ConfirmsAccepted s e) (ho : SendsOutside s e)
    (h : AtMostOne (s.view (p, .output)))
    (hst : OutputStep cfg s p (s.view (p, .output)) e v') : AtMostOne v' := by
  cases hst with
  | send hsi hd hl hg hb =>
    refine h.start hsi ?_ (sendFlow_sends cfg _ _ _)
    exact Option.filter_eq_none_iff.mpr fun f hf hk => ho hd hsi hg f hf (of_decide_eq_true hk)
  | skip hf hcan ht => exact h.skip ht
  | output hf hcan ht hfl => exact h.output ht (isotpFill_state hfl)
  | reject hf hcan ht hfl hr => exact h.reject ht
  | expire hf herr => exact h.expire herr
  | confirm hsn hsw =>
    obtain ⟨h₁, h₂, h₃, h₄, hst⟩ := h.of_confirms_pos (List.count_pos_iff.mpr hc)
    refine outputSwitch hsw ?_ h₂ h₃ h₄ hst
    show (s.view (p, .output)).confirms - 1 = 0
    omega
  | refuse hsn herr => exact h.refuse (List.count_pos_iff.mpr hc)
  | resume hsn hsw =>
    -- the flow was idle when the error callback was called, and nothing was sent inside it
    rw [hsw.eq_of_idle (h.idle_of_suspended hsn rfl)]
    exact h.resumed hsn rfl
  | wait hfind hsi hf hn => exact h.rearm (by rw [hsi]; rfl) (by rw [hsi]; rfl)
  | abort hfind hsi hf hr =>
    obtain ⟨h₁, h₂, h₃, h₄⟩ := h.of_waits (by rw [hsi]; rfl)
    refine fail h₂ ?_ h₃ h₄
    show (s.view (p, .output)).err - 1 = 0
    omega
  | proceed hfind hsi hf => exact h.answer (by rw [hsi]; rfl) rfl
  | new => exact absurd rfl hn

/-- **Every transition of an input flow** keeps the bound. -/
theorem input_step (he : s.Enabled e) (hn : e ≠ .call .isotpNew) (hc : ConfirmsAccepted s e)
    (h : AtMostOne (s.view (p, .input)))
    (hst : InputStep cfg s p (s.view (p, .input)) e v') : AtMostOne v' := by
  cases hst with
  | sfMemory hp ht hsi => exact h.emitIf hsi
  | sf hp ht hsi =>
    obtain ⟨h₁, h₂, h₃⟩ := h.of_idle hsi
    -- a single frame is stored and delivered without any timer
    refine deliver ?_ hsi
    exact idle hsi h₁ h₂ h₃
  | ffMemory hp ht hsi | ff hp ht hsi => exact h.start hsi (he.input_not_suspended _) rfl
  | ffMemoryCallback hp ht hsi | ffCallback hp ht hsi =>
    obtain ⟨h₁, h₂, h₃⟩ := h.of_idle hsi
    exact idle hsi h₁ h₂ h₃
  | resumeFf hsn | resumeFfMemory hsn =>
    exact (h.resumed hsn rfl).start (h.idle_of_suspended hsn rfl) rfl rfl
  | cfWrong hp ht hsi => exact h.answer (by rw [hsi]; rfl) rfl
  | cfLast hp ht hsi hsn hv hr =>
    obtain ⟨h₁, h₂, h₃, -⟩ := h.of_waits (by rw [hsi]; rfl)
    subst hv
    refine deliver ?_ rfl
    refine idle rfl h₂ ?_ h₃
    show (s.view (p, .input)).err - 1 = 0
    omega
  | cf hp ht hsi hsn hv hr hb =>
    subst hv
    exact h.rearm (by rw [hsi]; rfl) rfl
  | block hp ht hsi hsn hv hr hb =>
    subst hv
    exact h.answer (by rw [hsi]; rfl) rfl
  | skip hf hcan ht => exact h.skip ht
  | output hf hcan hsi ht => exact h.output ht rfl
  | reject hf hcan hsi ht hr => exact h.reject ht
  | expire hf herr => exact h.expire herr
  | confirm hsn hsw =>
    obtain ⟨h₁, h₂, h₃, h₄, hst⟩ := h.of_confirms_pos (List.count_pos_iff.mpr hc)
    -- the confirmation taken was the one event pending
    refine inputSwitch hsw ?_ h₂ h₃ h₄ hst
    show (s.view (p, .input)).confirms - 1 = 0
    omega
  | refuse hsn herr => exact h.refuse (List.count_pos_iff.mpr hc)
  | resume hsn hsw =>
    rw [hsw.eq_of_idle (h.idle_of_suspended hsn rfl)]
    exact h.resumed hsn rfl
  | release => exact ⟨h.pending, h.suspended⟩
  | new => exact absurd rfl hn

end AtMostOne

/-! ### Runs with drivers that confirm what they accept -/

namespace Node

variable {cfg : Config} {s : Node} {es : List Event} {I : View → Prop} {C : Node → Event → Prop}

/-- **An invariant of an output flow**, where at most one thing is pending for it -/
theorem output_inv_confirmed (p : Nat) (hI : I View.initial)
    (hstep : ∀ {s e v'}, Sound s → e ≠ .call .isotpNew → ConfirmsAccepted s e → SendsOutside s e →
      C s e → AtMostOne (s.view (p, .output)) → I (s.view (p, .output)) →
      OutputStep cfg s p (s.view (p, .output)) e v' → I v')
    (hr : Run cfg es s) (hk : RunAlong cfg KeepsPcbs es) (hc : RunAlong cfg ConfirmsAccepted es)
    (ho : RunAlong cfg SendsOutside es) (hC : RunAlong cfg C es) :
    AtMostOne (s.view (p, .output)) ∧ I (s.view (p, .output)) :=
  output_inv (I := fun v => AtMostOne v ∧ I v) p ⟨AtMostOne.initial, hI⟩
    (fun hs _ h hn hi hst => ⟨hi.1.output_step hn h.1 h.2.1 hst,
      hstep hs hn h.1 h.2.1 h.2.2 hi.1 hi.2 hst⟩) hr hk (hc.and (ho.and hC))

/-- **An invariant of an input flow**, where at most one thing is pending for it -/
theorem input_inv_confirmed (p : Nat) (hI : I View.initial)
    (hstep : ∀ {s e v'}, Sound s → s.Enabled e → e ≠ .call .isotpNew → ConfirmsAccepted s e →
      C s e → AtMostOne (s.view (p, .input)) → I (s.view (p, .input)) →
      InputStep cfg s p (s.view (p, .input)) e v' → I v')
    (hr : Run cfg es s) (hk : RunAlong cfg KeepsPcbs es) (hc : RunAlong cfg ConfirmsAccepted es)
    (hC : RunAlong cfg C es) : AtMostOne (s.view (p, .input)) ∧ I (s.view (p, .input)) :=
  input_inv (I := fun v => AtMostOne v ∧ I v) p ⟨AtMostOne.initial, hI⟩
    (fun hs he h hn hi hst => ⟨hi.1.input_step he hn h.1 hst,
      hstep hs he hn h.1 h.2 hi.1 hi.2 hst⟩) hr hk (hc.and hC)

end Node
end Lwcan
