import Lwcan.Messages
import Lwcan.Pending
import Lwcan.Reassembly

/-!
# Whose buffer an error path removes

A delivered buffer stays on the chain of the input flow until the application releases it, behind
the buffer that is being filled. Every error path removes the buffer at the head of the chain,
whether a message is under reassembly or not.

* `Custody` — the buffers the application holds are on the chain, and the message under reassembly
  is at its head and not among them.
* `FcNotRefused` — no flow control that answers a message already given up fails. This is where an
  error path runs although no message is under reassembly.
* `delivered_kept` — under it, a delivered buffer is kept until it is released, and what an error
  path removes is the message under reassembly.
* `delivered_removed` — without it, it need not be.
-/

namespace Lwcan

open Monitor
namespace Node

variable {cfg : Config} {s : Node} {p : Nat} {e : Event}

/-- The pcb whose flow control is due -/
def dueFc (s : Node) : Option Nat :=
  match s.timeouts.expire s.now with
  | some (⟨_, .isotpInFlowOutput, .pcb p, _, _⟩, _) => some p
  | _ => none

theorem dueFc_of_fires (h : s.Fires .isotpInFlowOutput p) : s.dueFc = some p := by
  obtain ⟨⟨t, hd, a, m, st⟩, ts, he, hh, ha⟩ := h
  subst hh ha
  rw [dueFc, he]

/-- **No refused flow control without a message.** When the driver refuses a flow control or reports
that it failed, it was one that asks for more. -/
def FcNotRefused (s : Node) : Event → Prop
  | .timer _ ret => ret ≠ .ok → ∀ p ∈ s.dueFc, s.canif p ≠ none →
      (s.flow (p, .input)).state = .txFc → (s.flow (p, .input)).fs = fsReady
  | .sent (p, .input) err => err ≠ .ok →
      (s.flow (p, .input)).state = .txFc → (s.flow (p, .input)).fs = fsReady
  | _ => True

instance (s : Node) : (e : Event) → Decidable (s.FcNotRefused e)
  | .timer _ ret => inferInstanceAs (Decidable (ret ≠ .ok → ∀ p ∈ s.dueFc, s.canif p ≠ none →
      (s.flow (p, .input)).state = .txFc → (s.flow (p, .input)).fs = fsReady))
  | .sent (p, .input) err => inferInstanceAs (Decidable (err ≠ .ok →
      (s.flow (p, .input)).state = .txFc → (s.flow (p, .input)).fs = fsReady))
  | .sent (_, .output) _ | .call _ | .input _ _ _ | .resume | .tick _ => isTrue True.intro

end Node

/-- Every buffer dropped is that of the message current then. -/
def DropsIt (cur : Option Message) (o : Obs) : Prop :=
  ∀ k buf, o = .dropped k buf → ∃ m ∈ cur, buf = some m.buffer

theorem DropsIt.of_neutral {o : Obs} (h : o.neutral) (cur : Option Message) : DropsIt cur o := by
  intro k buf he
  subst he
  cases h

/-- **Custody.** The application's buffers are on the chain, and the message under reassembly is at
its head and not one of them. -/
structure Custody (v : View) : Prop where
  linked : v.chain.map Prod.fst = v.flow.buffer
  held : ∀ b ∈ held v.log, b ∈ v.flow.buffer
  drops : AtEach Message.step DropsIt none v.log
  message : v.flow.reassembling → ∃ b, (current v.log).map Message.buffer = some b ∧
    v.flow.buffer.head? = some b ∧ b ∉ Lwcan.held v.log
  suspended : ∀ q, v.suspended = some (.receivedFfOutput q) → v.flow.fs ≠ fsReady

namespace Custody

open Node

variable {cfg : Config} {s : Node} {p : Nat} {e : Event} {v v' w : View}

theorem initial : Custody View.initial :=
  ⟨rfl, by rintro _ ⟨⟩, trivial, by rintro ⟨⟩, by rintro _ ⟨⟩⟩

/-- A transition that neither opens nor ends a message -/
theorem quiet (h : Custody v) {m : List Obs} (hl : w.log = v.log ++ m) (hm : ∀ o ∈ m, o.neutral)
    (hc : w.chain.map Prod.fst = v.chain.map Prod.fst) (hb : w.flow.buffer = v.flow.buffer)
    (hr : w.flow.reassembling → v.flow.reassembling)
    (hs : ∀ q, w.suspended = some (.receivedFfOutput q) → w.flow.fs ≠ fsReady) : Custody w := by
  have hheld : Lwcan.held w.log = Lwcan.held v.log := by rw [hl, held_append_neutral hm]
  refine ⟨by rw [hc, hb]; exact h.linked, ?_, ?_, fun hw => ?_, hs⟩
  · rw [hheld, hb]
    exact h.held
  · rw [hl]
    exact AtEach.append.mpr ⟨h.drops, AtEach.of_forall fun o ho => DropsIt.of_neutral (hm o ho)⟩
  · obtain ⟨b, hcur, hhead, hnot⟩ := h.message (hr hw)
    refine ⟨b, ?_, by rwa [hb], by rwa [hheld]⟩
    rw [hl, current_append, foldl_neutral hm]
    exact hcur

/-- A message under reassembly is dropped, and its buffer taken off the chain. -/
theorem drop (h : Custody v) (hv : v.flow.reassembling) (k : FlowId) (fl : IsotpFlow)
    (hb : fl.buffer = v.flow.buffer.tail) (hr : fl.reassembling = false)
    (hs : ∀ q, v.suspended = some (.receivedFfOutput q) → fl.fs ≠ fsReady) :
    Custody ((v.drop k).setFlow fl) := by
  obtain ⟨b, hcur, hhead, hnot⟩ := h.message hv
  obtain ⟨rest, hbuf⟩ := List.head?_eq_some_iff.mp hhead
  -- what is dropped is the current message, which the application does not hold
  obtain ⟨m, hm, rfl⟩ := Option.map_eq_some_iff.mp hcur
  refine ⟨?_, fun b' hb' => ?_, ?_, fun hw => ?_, hs⟩
  · show v.chain.tail.map Prod.fst = fl.buffer
    rw [hb, List.map_tail, h.linked]
  · change b' ∈ Lwcan.held (v.log ++ [_]) at hb'
    rw [held_append] at hb'
    have hmem := h.held b' hb'
    rw [hbuf] at hmem
    rcases List.mem_cons.mp hmem with rfl | hmem
    · exact absurd hb' hnot
    · show b' ∈ fl.buffer
      rwa [hb, hbuf]
  · show AtEach Message.step DropsIt none (v.log ++ [_])
    refine AtEach.append.mpr ⟨h.drops, fun k' buf he => ⟨m, hm, ?_⟩, trivial⟩
    cases he
    exact hhead
  · rw [show (View.setFlow _ fl).flow = fl from rfl, hr] at hw
    cases hw

/-- **Opening a message** keeps what the application holds behind it. -/
theorem push (h : Custody v) {b : Nat} (hb : b ∉ v.flow.buffer) (q : Nat) {wire : List UInt8}
    {m : List Obs} (hm : ∀ o ∈ m, o.neutral)
    (hl : w.log = v.log ++ .opened q b wire :: m) (hf : w.flow.buffer = b :: v.flow.buffer)
    (hc : w.chain.map Prod.fst = b :: v.chain.map Prod.fst)
    (hs : ∀ q, w.suspended = some (.receivedFfOutput q) → w.flow.fs ≠ fsReady) :
    Custody w ∧ (current w.log).map Message.buffer = some b ∧ b ∉ Lwcan.held w.log := by
  -- what is logged behind the first frame changes neither message nor holder
  have hheld : Lwcan.held w.log = Lwcan.held v.log := by
    rw [hl, held_append, List.foldl_cons]
    have := held_append_neutral (l := v.log) hm
    rw [held_append] at this
    exact this
  have hcur : (current w.log).map Message.buffer = some b := by
    rw [hl, current_append, List.foldl_cons, foldl_neutral hm]
    rfl
  have hnot : b ∉ Lwcan.held w.log := by
    rw [hheld]
    exact fun hmem => hb (h.held b hmem)
  refine ⟨⟨by rw [hc, hf, h.linked], fun b' hb' => ?_, ?_, fun _ => ⟨b, hcur, ?_, hnot⟩, hs⟩, hcur,
    hnot⟩
  · rw [hheld] at hb'
    rw [hf]
    exact List.mem_cons_of_mem _ (h.held b' hb')
  · rw [hl]
    refine AtEach.append.mpr ⟨h.drops, by rintro _ _ ⟨⟩, ?_⟩
    exact AtEach.of_forall fun o ho => DropsIt.of_neutral (hm o ho)
  · rw [hf]
    rfl

theorem ffStore (h : Custody v) {frame : CanFrame} {b : Nat} {buf : LwcanBuffer} {slot : Bool}
    (hb : b ∉ v.flow.buffer) (hs : v.suspended = none) :
    Custody (v.ffStore cfg p frame b buf slot) := by
  refine (h.push (w := v.ffStore cfg p frame b buf slot) hb p (m := [.store p 0 _ _])
    (by simp [Obs.neutral]) (List.append_assoc _ [_] [_]) rfl rfl fun q hq => ?_).1
  change v.suspended = _ at hq
  rw [hs] at hq
  cases hq

/-- **Handing a message over** puts its buffer into the application's hands, or takes it off the
chain. -/
theorem deliver (h : Custody v) {b : Nat} (hhead : v.flow.buffer.head? = some b)
    (hv : v.flow.reassembling = false) (hnot : b ∉ Lwcan.held v.log) (pcb : IsotpPcb) :
    Custody (v.deliver pcb p) := by
  obtain ⟨rest, hbuf⟩ := List.head?_eq_some_iff.mp hhead
  have hlink := h.linked
  rw [hbuf] at hlink
  obtain ⟨⟨b', buf⟩, crest, hc, hb', hrest⟩ := List.map_eq_cons_iff.mp hlink
  cases hb'
  unfold View.deliver
  rw [hc]
  simp only
  split
  · -- with a callback the buffer stays in the chain and is held from now on
    refine ⟨h.linked, fun x hx => ?_, ?_, fun hw => ?_, h.suspended⟩
    · change x ∈ Lwcan.held (v.log ++ [_]) at hx
      rw [held_append] at hx
      rcases List.mem_cons.mp hx with rfl | hx
      · exact List.mem_of_mem_head? hhead
      · exact h.held x hx
    · exact AtEach.append.mpr ⟨h.drops, by rintro _ _ ⟨⟩, trivial⟩
    · rw [show (View.emit v _).flow = v.flow from rfl, hv] at hw
      cases hw
  · -- without one it is released at once
    refine ⟨?_, fun x hx => ?_, ?_, fun hw => ?_, h.suspended⟩
    · show v.chain.tail.map Prod.fst = v.flow.buffer.tail
      rw [List.map_tail, h.linked]
    · change x ∈ Lwcan.held (v.log ++ [_]) at hx
      rw [held_append] at hx
      have hx' := (List.mem_filter.mp hx).1
      have hmem := h.held x hx'
      show x ∈ v.flow.buffer.tail
      rw [hbuf] at hmem ⊢
      rcases List.mem_cons.mp hmem with rfl | hmem
      · exact absurd hx' hnot
      · exact hmem
    · exact AtEach.append.mpr ⟨h.drops, by rintro _ _ ⟨⟩, trivial⟩
    · rw [show (View.removeHead (View.emit v _)).flow.reassembling = v.flow.reassembling from rfl,
        hv] at hw
      cases hw

theorem emitIf (h : Custody v) (c : Bool) {o : Obs} (ho : o.neutral) : Custody (v.emitIf c o) := by
  unfold View.emitIf
  split
  · exact h.quiet rfl (by simpa using ho) rfl rfl id h.suspended
  · exact h

/-- **Every error path** that runs while a message is under reassembly removes that message. -/
theorem fail (h : Custody v) (hv : v.flow.reassembling) (k : FlowId) (c : Bool) (arg : Ptr)
    (err : Lwcanerr) : Custody (v.fail k c arg err) := by
  have h₀ : Custody ((v.drop k).setState .idle) := h.drop hv k _ rfl rfl h.suspended
  exact h₀.emitIf c rfl

/-- A frame out of sequence gives up the message under reassembly. -/
theorem giveUp (h : Custody v) (hv : v.flow.reassembling) (hs : v.suspended = none)
    {wire : List UInt8} {slot : Bool} :
    Custody (
      let v' := (({ v with err := v.err - 1 } : View).emit (.consecutive p wire)).drop (p, .input)
      (v'.setFlow { v'.flow with fs := fsOverflow, state := .txFc }).armOutput slot) := by
  have h₀ : Custody (({ v with err := v.err - 1 } : View).emit (.consecutive p wire)) :=
    h.quiet rfl (by simp [Obs.neutral]) rfl rfl id h.suspended
  have h₁ := h₀.drop hv (p, .input)
    { v.flow with buffer := v.flow.buffer.tail, fs := fsOverflow, state := .txFc } rfl rfl
    fun _ hq => by
      change v.suspended = _ at hq
      rw [hs] at hq
      cases hq
  exact ⟨h₁.linked, h₁.held, h₁.drops, h₁.message, h₁.suspended⟩

theorem inputSwitch (h : Custody v) {pcb : IsotpPcb} {slot : Bool}
    (hw : InputSwitch pcb p slot v v') : Custody v' := by
  cases hw with
  | skip => exact h
  | abort =>
    have h₀ : Custody (v.setState .idle) :=
      h.quiet (List.append_nil _).symm (by simp) rfl rfl (by rintro ⟨⟩) h.suspended
    exact h₀.emitIf _ rfl
  | ready hs hfs =>
    exact h.quiet (List.append_nil _).symm (by simp) rfl rfl
      (fun _ => IsotpFlow.reassembling_of_ready hs hfs) h.suspended

/-- What a consecutive frame stores changes no chain. -/
theorem storeCf (h : Custody v) (hv : v.flow.reassembling) {frame : CanFrame}
    (hw : w = (({ v with err := v.err - 1 } : View).emit (.consecutive p frame.wire)).storeCf p
      frame.data frame.len) : Custody w ∧ w.flow.buffer = v.flow.buffer ∧
        Lwcan.held w.log = Lwcan.held v.log := by
  have hl : w.log = v.log ++ [.consecutive p frame.wire,
      .store p (u32 ((v.capacity : Int) - v.flow.remainingData))
        (View.cfCount v.flow.remainingData frame.len) v.capacity] := by
    subst hw
    exact List.append_assoc _ [_] [_]
  refine ⟨h.quiet hl (by simp [Obs.neutral]) ?_ ?_ (fun _ => hv) ?_, ?_, ?_⟩
  · subst hw
    show (v.chain.modifyHead _).map Prod.fst = _
    cases v.chain <;> rfl
  · subst hw
    rfl
  · subst hw
    exact h.suspended
  · subst hw
    rfl
  · rw [hl, held_append_neutral (by simp [Obs.neutral])]

/-- **A buffer is released** that is not the one of the message under reassembly. -/
theorem release (h : Custody v) {b : Nat}
    (ho : v.flow.reassembling → v.flow.buffer.head? ≠ some b) :
    Custody { v with
      flow := { v.flow with buffer := v.flow.buffer.erase b }
      chain := v.chain.eraseP (·.1 = b)
      log := v.log ++ [.released p b] } := by
  refine ⟨?_, fun x hx => ?_, ?_, fun hr => ?_, h.suspended⟩
  · show (v.chain.eraseP _).map Prod.fst = v.flow.buffer.erase b
    rw [← h.linked, List.erase_eq_eraseP, List.eraseP_map]
    congr 2
    funext x
    by_cases hx : x.1 = b
    · simp [hx]
    · simp [hx, Ne.symm hx]
  · change x ∈ Lwcan.held (v.log ++ [_]) at hx
    rw [held_append] at hx
    obtain ⟨hx, hne⟩ := List.mem_filter.mp hx
    exact (List.mem_erase_of_ne (of_decide_eq_true hne)).mpr (h.held x hx)
  · exact AtEach.append.mpr ⟨h.drops, by rintro _ _ ⟨⟩, trivial⟩
  · -- the message under reassembly is at the head, and it is not the one released
    obtain ⟨b', hcur, hhead, hnot⟩ := h.message hr
    have hne : b' ≠ b := fun hbb => ho hr (hbb ▸ hhead)
    obtain ⟨m, hm, rfl⟩ := Option.map_eq_some_iff.mp hcur
    obtain ⟨rest, hbuf⟩ := List.head?_eq_some_iff.mp hhead
    refine ⟨m.buffer, ?_, ?_, fun hmem => ?_⟩
    · show (current (v.log ++ [_])).map Message.buffer = _
      rw [current_append, List.foldl_cons, hm]
      simp [Message.step, hne]
    · show (v.flow.buffer.erase b).head? = _
      rw [hbuf, List.erase_cons_tail (by simpa using hne)]
      rfl
    · change m.buffer ∈ Lwcan.held (v.log ++ [_]) at hmem
      rw [held_append] at hmem
      exact hnot (List.mem_filter.mp hmem).1

/-- **Every transition of an input flow** keeps custody. -/
theorem step (hsound : Sound s) (he : s.Enabled e) (hn : e ≠ .call .isotpNew)
    (hc : ConfirmsAccepted s e) (ho : KeepsOpen s e) (hf : FcNotRefused s e)
    (ha : AtMostOne (s.view (p, .input))) (h : Custody (s.view (p, .input)))
    (hst : InputStep cfg s p (s.view (p, .input)) e v') : Custody v' := by
  have hns : ∀ {canif frame g}, e = .input canif frame g → ∀ {fs : Nat} (q : Nat),
      (s.view (p, .input)).suspended = some (.receivedFfOutput q) → fs ≠ fsReady := by
    rintro canif frame g rfl fs q hsf
    rw [he.input_not_suspended] at hsf
    cases hsf
  have huses := hsound.states (p, .input)
  cases hst with
  | sfMemory => exact h.emitIf _ rfl
  | @sf _ frame _ b buf hp ht hs hb hl hz =>
    obtain ⟨h₁, -, hnot⟩ := h.push hb p (m := [.store p 0
        ((s.view (p, .input)).push b buf buf.length).flow.remainingData
        ((s.view (p, .input)).push b buf buf.length).capacity])
      (w := View.storeSf cfg (((s.view (p, .input)).push b buf buf.length).emit
        (.opened p b frame.wire)) p frame.data)
      (by simp [Obs.neutral]) (List.append_assoc _ [_] [_]) rfl rfl h.suspended
    exact h₁.deliver rfl (IsotpFlow.reassembling_of_idle hs) hnot _
  | ffMemory hp ht hs =>
    exact h.quiet (List.append_nil _).symm (by simp) rfl rfl (by rintro ⟨⟩) (hns rfl)
  | ffMemoryCallback hp ht hs =>
    refine h.quiet (m := [_]) rfl (by simp [Obs.neutral]) rfl rfl (fun hr => ?_) fun q hsf => ?_
    · have hfl : IsotpFlow.reassembling { (s.view (p, .input)).flow with fs := fsOverflow } =
        false :=
        IsotpFlow.reassembling_of_idle hs
      exact absurd (hfl ▸ hr) Bool.false_ne_true
    · show fsOverflow ≠ fsReady
      decide
  | ff hp ht hs hb =>
    exact h.ffStore hb (he.input_not_suspended _)
  | ffCallback hp ht hs =>
    refine h.quiet (m := [_]) rfl (by simp [Obs.neutral]) rfl rfl id fun q hsf => ?_
    cases hsf
  | resumeFf hsn hb =>
    refine ffStore ?_ hb rfl
    exact ⟨h.linked, h.held, h.drops, h.message, by rintro _ ⟨⟩⟩
  | resumeFfMemory hsn =>
    -- an overflow goes out, and the flow holds no message
    have hsus : (s.view (p, .input)).flow.fs ≠ fsReady := h.suspended _ (view_suspended hsn rfl)
    refine h.quiet (List.append_nil _).symm (by simp) rfl rfl (fun hr => ?_) (by rintro _ ⟨⟩)
    have hr' : IsotpFlow.reassembling { (s.view (p, .input)).flow with state := .txFc } := hr
    rw [IsotpFlow.reassembling, decide_eq_false hsus] at hr'
    cases hr'
  | cfWrong hp ht hs hsn =>
    exact h.giveUp (IsotpFlow.reassembling_of_waitCf hs) (he.input_not_suspended _)
  | cfLast hp ht hs hsn hv' hr =>
    -- the buffer at the head is the one being filled, and is handed over for the first time
    obtain ⟨h₁, hbuf, hheld⟩ := h.storeCf (IsotpFlow.reassembling_of_waitCf hs) hv'
    obtain ⟨b, hcur, hhead, hnot⟩ := h.message (IsotpFlow.reassembling_of_waitCf hs)
    have h₂ : Custody (View.setState _ .idle) :=
      h₁.quiet (List.append_nil _).symm (by simp) rfl rfl (by rintro ⟨⟩) h₁.suspended
    exact h₂.deliver (by rw [← hbuf] at hhead; exact hhead) rfl
      (by rw [← hheld] at hnot; exact hnot) _
  | cf hp ht hs hsn hv' hr hb =>
    obtain ⟨h₁, -, -⟩ := h.storeCf (IsotpFlow.reassembling_of_waitCf hs) hv'
    refine h₁.quiet (List.append_nil _).symm (by simp) rfl rfl (fun _ => ?_) h₁.suspended
    subst hv'
    exact IsotpFlow.reassembling_of_waitCf hs
  | block hp ht hs hsn hv' hr hb =>
    obtain ⟨h₁, -, -⟩ := h.storeCf (IsotpFlow.reassembling_of_waitCf hs) hv'
    subst hv'
    exact h₁.quiet (List.append_nil _).symm (by simp) rfl rfl
      (fun _ => IsotpFlow.reassembling_of_waitCf hs) (hns rfl)
  | skip => exact ⟨h.linked, h.held, h.drops, h.message, h.suspended⟩
  | output => exact h.quiet rfl (by simp [Obs.neutral]) rfl rfl id h.suspended
  | reject hfi hcan hs ht hr =>
    -- the driver refuses flow control that asks for more: the message is given up
    have hfs := hf hr p (dueFc_of_fires hfi) (by rw [hcan]; exact Option.some_ne_none _) hs
    refine fail ?_ ?_ _ _ _ _
    · exact h.quiet rfl (by simp [Obs.neutral]) rfl rfl id h.suspended
    · exact IsotpFlow.reassembling_of_ready hs hfs
  | expire hfi herr =>
    refine fail ?_ ?_ _ _ _ _
    · exact ⟨h.linked, h.held, h.drops, h.message, h.suspended⟩
    · exact IsotpFlow.reassembling_of_waitCf (IsotpState.eq_waitCf (ha.waits_of_err_pos herr) huses)
  | confirm hsn hw =>
    refine inputSwitch ?_ hw
    exact ⟨h.linked, h.held, h.drops, h.message, h.suspended⟩
  | resume hsn hw =>
    refine inputSwitch ?_ hw
    exact ⟨h.linked, h.held, h.drops, h.message, by rintro _ ⟨⟩⟩
  | refuse hsn herr =>
    have hs := IsotpState.eq_txFc (ha.of_confirms_pos (List.count_pos_iff.mpr hc)).2.2.2.2 huses
    have h₀ : Custody { s.view (p, .input) with confirms := (s.view (p, .input)).confirms - 1 } :=
      ⟨h.linked, h.held, h.drops, h.message, h.suspended⟩
    have h₁ : Custody ((View.drop _ (p, .input)).setState .idle) :=
      h₀.drop (IsotpFlow.reassembling_of_ready hs (hf herr hs)) (p, .input) _ rfl rfl h.suspended
    unfold View.refused
    simp only
    split
    · exact h₁.quiet rfl (by simp [Obs.neutral]) rfl rfl id fun _ h => (by cases h)
    · exact h₁
  | release => exact h.release ho
  | new => exact absurd rfl hn

end Custody

namespace Node

variable {cfg : Config} {s : Node} {es : List Event}

theorem custody_run (hr : Run cfg es s) (hk : RunAlong cfg KeepsPcbs es)
    (hc : RunAlong cfg ConfirmsAccepted es) (ho : RunAlong cfg KeepsOpen es)
    (hf : RunAlong cfg FcNotRefused es) (p : Nat) : Custody (s.view (p, .input)) :=
  (input_inv_confirmed p Custody.initial
    (fun hs he hn hc h ha hi hst => Custody.step hs he hn hc h.1 h.2 ha hi hst) hr hk hc
      (ho.and hf)).2

/-- **A delivered buffer is kept until it is released.** In every run in which frames fit, so that
nothing is copied over it, and no flow control that answers a message already given up fails: the
buffers handed to the application and not released are on the input flow's chain and allocated, and
every buffer an error path removed was that of the message under reassembly. -/
theorem delivered_kept (hr : Run cfg es s) (hk : RunAlong cfg KeepsPcbs es)
    (hc : RunAlong cfg ConfirmsAccepted es) (ho : RunAlong cfg KeepsOpen es)
    (hf : RunAlong cfg FcNotRefused es) (hv : RunAlong cfg (ValidFrames cfg) es)
    (hfit : RunAlong cfg (FramesFit cfg) es) (p : Nat) :
    (∀ b ∈ held (s.logOf (p, .input)), b ∈ (s.flow (p, .input)).buffer ∧
      b ∈ s.heap.blocks ∧ (s.heap.buffer b).payload ∈ s.heap.blocks) ∧
    (∀ l₁ buf l₂, s.logOf (p, .input) = l₁ ++ .dropped (p, .input) buf :: l₂ →
      ∃ m ∈ current l₁, buf = some m.buffer) ∧
    CopiesInside s := by
  have h := custody_run hr hk hc ho hf p
  have hheap := HeapOk.run hr
  refine ⟨?_, ?_, .of_contained (contained_run hr hk hv ho hfit)⟩
  · intro b hb
    have hmem := h.held b hb
    have hown : b ∈ s.owned (p, .input) := mem_owned_of_mem hmem
    exact ⟨hmem, hheap.header hown, hheap.payload hown⟩
  · intro l₁ buf l₂ hl
    have hd := h.drops
    change AtEach Message.step DropsIt none (s.logOf (p, .input)) at hd
    rw [hl] at hd
    exact hd.of_split _ buf rfl

/-- A single frame with one byte -/
def singleFrame : CanFrame := ⟨0x7E8, 8, 0, fun i => [0x01, 0x7F].getD i 0⟩

/-- The buffer of a single frame is kept through a message that is given up. -/
theorem delivered_kept_singleFrame : ∃ s, Run {} (connected ++
    [.call (.isotpSetCallbacks 0 true false false false),
      .input 0 singleFrame ⟨some 1, some 2, fun _ => 0⟩,
      .input 0 firstFrame ⟨some 3, some 4, fun _ => 0⟩,
      .timer ⟨0, 0, 0, fun _ => 0⟩ (.driver 1)]) s ∧
    1 ∈ (s.flow (0, .input)).buffer := by
  obtain ⟨s, hr, hb⟩ := exists_run {} (connected ++
    [.call (.isotpSetCallbacks 0 true false false false),
      .input 0 singleFrame ⟨some 1, some 2, fun _ => 0⟩,
      .input 0 firstFrame ⟨some 3, some 4, fun _ => 0⟩,
      .timer ⟨0, 0, 0, fun _ => 0⟩ (.driver 1)])
    (fun s => 1 ∈ held (s.logOf (0, .input))) (by decide)
  obtain ⟨hkept, -⟩ := delivered_kept hr (by decide) (by decide) (by decide) (by decide) (by decide)
    (by decide) 0
  exact ⟨s, hr, (hkept 1 hb).1⟩

/-- **A delivered buffer is removed.** There is no memory for the next message; the driver refuses
the flow control that says so, and the error path frees the buffer at the head, which the
application holds. -/
theorem delivered_removed : ¬ ∀ (es : List Event) (s : Node), Run {} es s →
    RunAlong {} KeepsPcbs es → RunAlong {} ConfirmsAccepted es → RunAlong {} (Confined {}) es → ∀ p,
      ∀ b ∈ held (s.logOf (p, .input)), b ∈ (s.flow (p, .input)).buffer := by
  obtain ⟨s, hr, hb, hn⟩ := exists_run {} (connected ++
    [.call (.isotpSetCallbacks 0 true false false false),
      .input 0 singleFrame ⟨some 1, some 2, fun _ => 0⟩,
      .input 0 firstFrame ⟨none, none, fun _ => 0⟩,
      .timer ⟨0, 0, 0, fun _ => 0⟩ (.driver 1)])
    (fun s => 1 ∈ held (s.logOf (0, .input)) ∧ 1 ∉ (s.flow (0, .input)).buffer)
    (by decide)
  intro h
  exact hn (h _ s hr (by decide) (by decide) (by decide) 0 1 hb)

end Node
end Lwcan
