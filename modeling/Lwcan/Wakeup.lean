import Lwcan.Pending

/-!
# Every busy flow has one wake-up pending

A flow that is not idle waits for something: a timeout of its own, or the confirmation of a frame
the driver has accepted. If nothing was pending it would be stuck, and `isotp_send` would answer
`ERROR_INPROGRESS` from then on.

* `Awake` — something is pending for a flow that is not idle. `Awake.output_step` and
  `Awake.input_step` say that every transition keeps it under `WakeSafe`.
* `WaitsForDriver` — an accepted message has its output timeout pending until it reaches the driver.
* `one_wakeup` — hence, with `AtMostOne`, exactly one wake-up is pending in every run whose steps
  are `WakeSafe`, and accepted messages reach the driver.
* `wakeup_lost` — it is not so in a run in which an interface is removed while a frame is due.

`WakeSafe` names the two places where the code loses a wake-up: the early return of the output
handlers when the interface is not found, and a timer pool without a free chunk.
-/

namespace Lwcan

/-- **Something is pending** for a flow that is not idle. -/
def Awake (v : View) : Prop := v.flow.state ≠ .idle → 0 < v.tx + v.err + v.confirms

namespace Node

variable {cfg : Config} {s s' : Node} {k : FlowId} {p : Nat} {e : Event} {es : List Event}

/-- A confirmation after which the switch of `isotp_sent` arms a timeout -/
def armsNext (s : Node) : FlowId → Bool
  | (p, .output) => (s.flow (p, .output)).state = .txFf ||
      (s.flow (p, .output)).state = .txCf && (s.flow (p, .output)).remainingData ≠ 0
  | (p, .input) => (s.flow (p, .input)).state = .txFc && (s.flow (p, .input)).fs = fsReady

/-- A first frame for an idle flow after which `received_ff` arms a timeout without waiting for a
callback -/
def armsFc (cfg : Config) (s : Node) (p : Nat) (frame : CanFrame) (g : Grant) : Bool :=
  frame.data 0 &&& frameTypeMask = ffType && (s.flow (p, .input)).state = .idle &&
    if isotpGetFfDl cfg frame.data ≠ 0 ∧ g.granted then !(s.pcb p).receiveFf else !(s.pcb p).error

/-- The pcb whose output handler is due -/
def dueOutput (s : Node) : Option Nat :=
  match s.timeouts.expire s.now with
  | some (⟨_, .isotpOutFlowOutput, .pcb p, _, _⟩, _) => some p
  | some (⟨_, .isotpInFlowOutput, .pcb p, _, _⟩, _) => some p
  | _ => none

/-- `received_ff` is suspended. -/
def resumesFf (s : Node) : Bool :=
  match s.suspended with
  | some (.receivedFf _ _ _ _) | some (.receivedFfOutput _) => true
  | _ => false

/-- **No wake-up gets lost.** A chunk is free when an entry is armed that replaces none, and the
interface is registered when a flow's frame is due. -/
def WakeSafe (cfg : Config) (s : Node) : Event → Prop
  | .call (.isotpSend (some p) (some d) g) =>
    d.length ≠ 0 → (s.flow (p, .output)).state = .idle → g.granted → s.timeouts.slotFree
  | .input canif frame g =>
    ∀ p ∈ s.findPcb canif frame, s.armsFc cfg p frame g → s.timeouts.slotFree
  | .timer _ _ => ∀ p ∈ s.dueOutput, s.canif p ≠ none
  | .sent k .ok => s.armsNext k → s.timeouts.slotFree
  | .resume => s.resumesFf → s.timeouts.slotFree
  | _ => True

instance (cfg : Config) (s : Node) : (e : Event) → Decidable (s.WakeSafe cfg e)
  | .call (.isotpSend (some p) (some d) g) =>
    inferInstanceAs (Decidable (d.length ≠ 0 → (s.flow (p, .output)).state = .idle → g.granted →
      s.timeouts.slotFree))
  | .call (.isotpSend none _ _) | .call (.isotpSend (some _) none _) => isTrue True.intro
  | .call .isotpNew | .call (.isotpBind _ _) | .call (.isotpRemove _)
  | .call (.isotpSetCallbacks _ _ _ _ _) | .call (.isotpSetCallbackArg _ _)
  | .call (.isotpReceived _ _) | .call (.canifAdd _ _ _) | .call (.canifRemove _)
  | .call (.lwcanTimeout _ _ _) | .call (.lwcanUntimeout _ _) | .tick _ => isTrue True.intro
  | .input canif frame g =>
    inferInstanceAs (Decidable
      (∀ p ∈ s.findPcb canif frame, s.armsFc cfg p frame g → s.timeouts.slotFree))
  | .timer _ _ => inferInstanceAs (Decidable (∀ p ∈ s.dueOutput, s.canif p ≠ none))
  | .sent k err =>
    decidable_of_iff (err = .ok → s.armsNext k → s.timeouts.slotFree) <| by
      cases err <;> simp [WakeSafe]
  | .resume => inferInstanceAs (Decidable (s.resumesFf → s.timeouts.slotFree))

/-- What is pending for a flow, all kinds together -/
def wakeups (s : Node) (k : FlowId) : Nat :=
  s.timeouts.pending (outputHandler k.2) (.pcb k.1) +
    s.timeouts.pending (errorHandler k.2) (.pcb k.1) + s.confirms.count k

/-- Cancelling a pending entry frees a chunk. -/
theorem Sound.slotAfterCancel (h : Sound s) (he : 0 < (s.view k).err) :
    s.slotAfterCancel k = true :=
  h.slots.slotFree_lwcanUntimeout he

theorem canif_of_fires {frame : CanFrame} {ret : Lwcanerr} {h : Handler}
    (hw : WakeSafe cfg s (.timer frame ret)) (hf : s.Fires h p)
    (hh : h = .isotpOutFlowOutput ∨ h = .isotpInFlowOutput) : s.canif p ≠ none := by
  obtain ⟨⟨t, hd, a, m, st⟩, ts, he, rfl, rfl⟩ := hf
  refine hw p ?_
  rcases hh with hh | hh <;> cases hh <;> rw [dueOutput, he] <;> rfl

end Node

namespace Awake

open Node

variable {cfg : Config} {s : Node} {p : Nat} {e : Event} {v v' : View}

theorem initial : Awake View.initial := fun h => absurd rfl h

theorem of_idle (h : v.flow.state = .idle) : Awake v := fun hn => absurd h hn

theorem of_tx (h : 0 < v.tx) : Awake v := fun _ => by omega

theorem of_err (h : 0 < v.err) : Awake v := fun _ => by omega

theorem of_confirms (h : 0 < v.confirms) : Awake v := fun _ => by omega

theorem armOutput {slot : Bool} (hs : slot = true) : Awake (v.armOutput slot) :=
  of_tx (by subst hs; exact Nat.succ_pos _)

theorem armError {slot : Bool} (hs : slot = true) : Awake (v.armError slot) :=
  of_err (by subst hs; exact Nat.succ_pos _)

theorem fail {k : FlowId} {c : Bool} {arg : Ptr} {err : Lwcanerr} : Awake (v.fail k c arg err) :=
  of_idle (by rw [View.fail, View.emitIf_flow]; rfl)

/-- While the peer is awaited, it is for the error timeout. -/
theorem err_pos (h : Awake v) (ha : AtMostOne v) (hw : v.flow.state.waits) : 0 < v.err := by
  obtain ⟨-, h₂, h₃, -⟩ := ha.of_waits hw
  have := h (by intro hi; rw [hi] at hw; cases hw)
  omega

/-- The handler runs only while a frame is on its way, and finds the interface: it does not return
early. -/
theorem not_skipped {k : FlowId} {h : Handler} {st : IsotpState} {frame : CanFrame} {ret : Lwcanerr}
    (ha : AtMostOne (s.view k)) (ht : 0 < (s.view k).tx) (hw : WakeSafe cfg s (.timer frame ret))
    (hf : s.Fires h p) (hh : h = .isotpOutFlowOutput ∨ h = .isotpInFlowOutput) (hst : st.waits) :
    ¬ (s.canif p = none ∨ (s.view k).flow.state = .idle ∨ (s.view k).flow.state = st) := by
  obtain ⟨-, -, -, -, hsends⟩ := ha.of_tx_pos ht
  rintro (hcan | hidle | hwait)
  · exact canif_of_fires hw hf hh hcan
  · exact ne_idle_of_sends hsends hidle
  · rw [hwait] at hsends
    exact not_sends_of_waits hst hsends

/-- **Every transition of an output flow** leaves something pending. -/
theorem output_step (hs : Sound s) (hn : e ≠ .call .isotpNew) (hc : ConfirmsAccepted s e)
    (hw : WakeSafe cfg s e) (ha : AtMostOne (s.view (p, .output))) (h : Awake (s.view (p, .output)))
    (hst : OutputStep cfg s p (s.view (p, .output)) e v') : Awake v' := by
  cases hst with
  | send hsi hd hl hg hb => exact armOutput (hw hd hsi hg)
  | skip hf hcan ht => exact absurd hcan (not_skipped ha ht hw hf (Or.inl rfl) rfl)
  | output => exact of_confirms (Nat.succ_pos _)
  | reject | expire | abort => exact fail
  | confirm hsn hsw =>
    obtain ⟨-, -, -, -, hst⟩ := ha.of_confirms_pos (List.count_pos_iff.mpr hc)
    cases hsw with
    | skip hsk =>
      change (s.view (p, .output)).flow.state = _ ∨ (s.view (p, .output)).flow.state = _ at hsk
      rcases hsk with hsk | hsk <;> rw [hsk] at hst <;> cases hst
    | complete => exact of_idle (by rw [View.emitIf_flow]; rfl)
    | ff hff =>
      change (s.flow (p, .output)).state = .txFf at hff
      exact armError (hw (by simp [armsNext, hff]))
    | cf hcf hr hb =>
      change (s.flow (p, .output)).state = .txCf at hcf
      change (s.flow (p, .output)).remainingData ≠ 0 at hr
      exact armOutput (hw (by simp [armsNext, hcf, hr]))
    | block hcf hr hb =>
      change (s.flow (p, .output)).state = .txCf at hcf
      change (s.flow (p, .output)).remainingData ≠ 0 at hr
      exact armError (hw (by simp [armsNext, hcf, hr]))
  | refuse => exact of_idle (by rw [View.refused_flow])
  | resume hsn hsw =>
    have hsi := ha.idle_of_suspended hsn rfl
    rw [hsw.eq_of_idle hsi]
    exact of_idle hsi
  -- the entry cancelled has just freed the chunk that is armed
  | wait hfind hsi =>
    exact armError (hs.slotAfterCancel (h.err_pos ha (by rw [hsi]; rfl)))
  | proceed hfind hsi =>
    exact armOutput (hs.slotAfterCancel (h.err_pos ha (by rw [hsi]; rfl)))
  | new => exact absurd rfl hn

/-- **Every transition of an input flow** leaves something pending. -/
theorem input_step (hs : Sound s) (hn : e ≠ .call .isotpNew) (hc : ConfirmsAccepted s e)
    (hw : WakeSafe cfg s e) (ha : AtMostOne (s.view (p, .input))) (h : Awake (s.view (p, .input)))
    (hst : InputStep cfg s p (s.view (p, .input)) e v') : Awake v' := by
  -- A timeout armed in place of another takes the chunk that this one frees; any other timeout
  -- needs a chunk that is free.
  cases hst with
  | sfMemory hp ht hsi => exact of_idle (by rw [View.emitIf_flow]; exact hsi)
  | sf hp ht hsi => exact of_idle (by rw [View.deliver_state]; exact hsi)
  | ffMemory hp ht hsi hg herr =>
    change (s.flow (p, .input)).state = .idle at hsi
    refine armOutput (hw p hp ?_)
    rw [armsFc, if_neg hg]
    simp [ht, hsi, herr]
  | ffMemoryCallback hp ht hsi => exact of_idle hsi
  | ff hp ht hsi hb hl hz hg hr =>
    change (s.flow (p, .input)).state = .idle at hsi
    refine armOutput (hw p hp ?_)
    rw [armsFc, if_pos ⟨hl ▸ hz, hg⟩]
    simp [ht, hsi, hr]
  | ffCallback hp ht hsi => exact of_idle hsi
  | resumeFf hsn hb => exact armOutput (hw (by rw [resumesFf, hsn]))
  | resumeFfMemory hsn => exact armOutput (hw (by rw [resumesFf, hsn]))
  | cfWrong hp ht hsi =>
    exact armOutput (hs.slotAfterCancel (h.err_pos ha (by rw [hsi]; rfl)))
  | cfLast hp ht hsi hsn hv hr => exact of_idle (by rw [View.deliver_state]; rfl)
  | cf hp ht hsi => exact armError (hs.slotAfterCancel (h.err_pos ha (by rw [hsi]; rfl)))
  | block hp ht hsi => exact armOutput (hs.slotAfterCancel (h.err_pos ha (by rw [hsi]; rfl)))
  | skip hf hcan ht => exact absurd hcan (not_skipped ha ht hw hf (Or.inr rfl) rfl)
  | output => exact of_confirms (Nat.succ_pos _)
  | reject | expire => exact fail
  | confirm hsn hsw =>
    obtain ⟨-, -, -, -, hst⟩ := ha.of_confirms_pos (List.count_pos_iff.mpr hc)
    cases hsw with
    | skip hsk =>
      change (s.view (p, .input)).flow.state = _ ∨ (s.view (p, .input)).flow.state = _ at hsk
      rcases hsk with hsk | hsk <;> rw [hsk] at hst <;> cases hst
    | abort => exact of_idle (by rw [View.emitIf_flow]; rfl)
    | ready hsi hf =>
      change (s.flow (p, .input)).state = .txFc at hsi
      change (s.flow (p, .input)).fs = fsReady at hf
      exact armError (hw (by simp [armsNext, hsi, hf]))
  | refuse => exact of_idle (by rw [View.refused_flow])
  | resume hsn hsw =>
    have hsi := ha.idle_of_suspended hsn rfl
    rw [hsw.eq_of_idle hsi]
    exact of_idle hsi
  | release => exact h
  | new => exact absurd rfl hn

end Awake

/-! ### Accepted messages reach the driver -/

/-- Whether a message waits to reach the driver, after an entry of the log -/
def unsentStep (u : Bool) : Obs → Bool
  | .send _ _ => true
  | .output _ _ _ _ _ _ => false
  | _ => u

/-- The last message accepted has not reached the driver. -/
def unsent (log : List Obs) : Bool := log.foldl unsentStep false

/-- A frame of flow `k` is handed to a driver. -/
def Obs.isOutput (k : FlowId) : Obs → Bool
  | .output k' _ _ _ _ _ => k' = k
  | _ => false

theorem unsent_append (l m : List Obs) : unsent (l ++ m) = m.foldl unsentStep (unsent l) :=
  List.foldl_append

/-- Giving a message up hands nothing to a driver. -/
theorem unsent_fail (v : View) (k : FlowId) (c : Bool) (arg : Ptr) (err : Lwcanerr) :
    unsent (v.fail k c arg err).log = unsent v.log := by
  simp only [View.fail, View.emitIf_log]
  simp only [View.drop, View.emit, View.removeHead, View.setState, View.setFlow, unsent_append]
  split <;> rfl

/-- Nothing is handed to a driver after the last message accepted. -/
theorem unsent_of_split {k : FlowId} {p : Nat} {d : List UInt8} {l₁ l₂ : List Obs}
    (h : ∀ o ∈ l₂, o.flow = k ∧ o.isOutput k = false) : unsent (l₁ ++ .send p d :: l₂) = true := by
  rw [unsent_append, List.foldl_cons]
  induction l₂ with
  | nil => rfl
  | cons o l₂ ih =>
    rw [List.foldl_cons]
    obtain ⟨hf, ho⟩ := h o List.mem_cons_self
    have ih := ih fun o' ho' => h o' (List.mem_cons_of_mem _ ho')
    cases o with
    | output k' canif i w t r =>
      subst hf
      simp only [Obs.isOutput, decide_eq_false_iff_not] at ho
      exact absurd rfl ho
    | _ => exact ih

namespace Node

variable {cfg : Config} {s s' : Node} {p : Nat} {e : Event} {es : List Event} {v' : View}

/-- A message that was accepted waits, until it reaches the driver, for the timeout that takes it
there. -/
def WaitsForDriver (v : View) : Prop :=
  unsent v.log → (v.flow.state = .txSf ∨ v.flow.state = .txFf) ∧ v.tx = 1

theorem WaitsForDriver.of_not_sends {v w : View} (h : WaitsForDriver v)
    (hv : v.flow.state.sends → v.tx ≠ 1) (hu : unsent w.log = unsent v.log) : WaitsForDriver w := by
  intro hw
  obtain ⟨hst, ht⟩ := h (hu ▸ hw)
  refine absurd ht (hv ?_)
  rcases hst with hst | hst <;> rw [hst] <;> rfl

/-- **Every transition of an output flow** keeps an accepted message on its way to the driver. -/
theorem WaitsForDriver.output_step (hn : e ≠ .call .isotpNew) (hc : ConfirmsAccepted s e)
    (hw : WakeSafe cfg s e) (ha : AtMostOne (s.view (p, .output)))
    (h : WaitsForDriver (s.view (p, .output)))
    (hst : OutputStep cfg s p (s.view (p, .output)) e v') : WaitsForDriver v' := by
  -- Only `send` starts a wait, and only a frame that is handed to the driver ends one; the other
  -- transitions come when no output timeout is armed.
  cases hst with
  | send hsi hd hl hg hb =>
    intro
    obtain ⟨h₁, -, -⟩ := ha.of_idle hsi
    constructor
    · show (View.sendFlow cfg _ _ _).state = _ ∨ (View.sendFlow cfg _ _ _).state = _
      unfold View.sendFlow
      split
      · exact Or.inr rfl
      · exact Or.inl rfl
    · show (s.view (p, .output)).tx + s.timeouts.slotFree.toNat = 1
      rw [h₁, hw hd hsi hg]
      rfl
  | skip hf hcan ht => exact absurd hcan (Awake.not_skipped ha ht hw hf (Or.inl rfl) rfl)
  | output hf hcan ht hfl =>
    intro hu
    simp [View.accepted, View.emit, View.setFlow, unsent_append, unsentStep] at hu
  | reject hf hcan ht hfl hr =>
    intro hu
    rw [View.rejected, unsent_fail] at hu
    simp [View.emit, unsent_append, unsentStep] at hu
  | expire hf herr =>
    refine h.of_not_sends (fun hs => ?_) ?_
    · have := (ha.of_waits (ha.waits_of_err_pos herr)).2.1
      omega
    · exact unsent_fail _ _ _ _ _
  | confirm hsn hsw =>
    have ht := (ha.of_confirms_pos (List.count_pos_iff.mpr hc)).2.1
    refine h.of_not_sends (fun _ => by omega) ?_
    cases hsw with
    | skip => rfl
    | complete =>
      simp only [View.emitIf_log, unsent_append]
      split <;> rfl
    | cf => rfl
    | ff | block => exact unsent_append _ _
  | refuse hsn herr =>
    have ht := (ha.of_confirms_pos (List.count_pos_iff.mpr hc)).2.1
    refine h.of_not_sends (fun _ => by omega) ?_
    rw [View.refused_log, unsent_append]
    split <;> rfl
  | resume hsn hsw =>
    have hsi := ha.idle_of_suspended hsn rfl
    have ht := (ha.of_idle hsi).1
    refine h.of_not_sends (fun _ => by omega) ?_
    rw [hsw.eq_of_idle hsi]
  | wait hfind hsi | proceed hfind hsi =>
    have ht := (ha.of_waits (by rw [hsi]; rfl)).2.1
    exact h.of_not_sends (fun _ => by omega) (unsent_append _ _)
  | abort hfind hsi =>
    have ht := (ha.of_waits (by rw [hsi]; rfl)).2.1
    refine h.of_not_sends (fun _ => by omega) ?_
    exact (unsent_fail _ _ _ _ _).trans (unsent_append _ _)
  | new => exact absurd rfl hn

theorem isotpRemoveBuffer_log (s : Node) (k : FlowId) (b : Option Nat) :
    (s.isotpRemoveBuffer k b).log = s.log := by
  unfold isotpRemoveBuffer
  split
  · rfl
  · split <;> rfl

theorem dropHead_log (s : Node) (k : FlowId) :
    (s.dropHead k).log = s.log ++ [.dropped k (s.head k)] :=
  isotpRemoveBuffer_log ..

theorem setState_log (s : Node) (k : FlowId) (state : IsotpState) :
    (s.setState k state).log = s.log := rfl

theorem callError_log (s : Node) (k : FlowId) (arg : Ptr) (err : Lwcanerr) :
    (s.callError k arg err).log =
      s.log ++ if (s.pcb k.1).error then [.error k arg err] else [] := by
  unfold callError
  split
  · rfl
  · exact (List.append_nil _).symm

/-- Handing a frame to the driver is the first thing `canif->output` is called for. -/
theorem canifOutput_log (s : Node) (k : FlowId) (canif : Nat) (frame : CanFrame) (timeout : Nat)
    (ret : Lwcanerr) : ∃ rest, (s.canifOutput k canif frame timeout ret).log =
      s.log ++ .output k canif frame.canId frame.wire timeout ret :: rest := by
  unfold canifOutput
  split
  · exact ⟨[], rfl⟩
  · rw [callError_log, setState_log, dropHead_log]
    exact ⟨_, by rw [List.append_assoc]; exact List.append_assoc _ [_] _⟩

/-- The timeout of an accepted message takes it to the driver. -/
theorem fires_output {frame : CanFrame} {ret : Lwcanerr} (hf : s.Fires .isotpOutFlowOutput p)
    (hst : (s.flow (p, .output)).state = .txSf ∨ (s.flow (p, .output)).state = .txFf)
    (hcan : s.canif p ≠ none) (hs : step cfg s (.timer frame ret) = some s') :
    ∃ canif canId wire timeout rest,
      s'.log = s.log ++ .output (p, .output) canif canId wire timeout ret :: rest := by
  obtain ⟨⟨t, h, a, m, st⟩, ts, he, rfl, rfl⟩ := hf
  obtain ⟨-, rfl⟩ := step_eq_some.mp hs
  obtain ⟨canif, hcanif⟩ := Option.ne_none_iff_exists'.mp hcan
  simp only [next, he, runHandler, isotpOutFlowOutput]
  change s.canifs.canifGetByIndex (s.pcb p).ifIndex = some canif at hcanif
  simp only [hcanif]
  -- both states hand a frame over; they differ in what is filled into it
  rcases hst with hst | hst
  · have hst' : (({ s with timeouts := ts } : Node).flow (p, .output)).state = .txSf := hst
    simp only [hst']
    obtain ⟨rest, hl⟩ := canifOutput_log _ (p, .output) canif _ cfg.nAs ret
    exact ⟨_, _, _, _, rest, hl⟩
  · have hst' : (({ s with timeouts := ts } : Node).flow (p, .output)).state = .txFf := hst
    simp only [hst']
    obtain ⟨rest, hl⟩ := canifOutput_log _ (p, .output) canif _ cfg.nAs ret
    exact ⟨_, _, _, _, rest, hl⟩

/-! ### Every run -/

/-- What is pending for a flow that is not idle is one thing. -/
theorem wakeups_eq_one {k : FlowId} (ha : AtMostOne (s.view k)) (h : Awake (s.view k))
    (hst : (s.flow k).state ≠ .idle) : s.wakeups k = 1 := by
  have hp := ha.pending
  have hpos := h hst
  change Pending (s.flow k).state (s.timeouts.pending (outputHandler k.2) (.pcb k.1))
    (s.timeouts.pending (errorHandler k.2) (.pcb k.1)) (s.confirms.count k) at hp
  change 0 < s.wakeups k at hpos
  unfold wakeups at hpos ⊢
  cases h : (s.flow k).state <;> rw [h] at hp hst <;> simp only [Pending] at hp
  case idle => exact absurd rfl hst
  all_goals omega

/-- **No flow is left stuck.** In every run whose steps are `WakeSafe`, with drivers that confirm
each accepted frame once, a flow that is not idle has exactly one wake-up pending; and a message
that `isotp_send` accepted has its timeout pending until it reaches the driver, which is where that
timeout takes it. -/
theorem one_wakeup (hr : Run cfg es s) (hk : RunAlong cfg KeepsPcbs es)
    (hc : RunAlong cfg ConfirmsAccepted es) (ho : RunAlong cfg SendsOutside es)
    (hw : RunAlong cfg (WakeSafe cfg) es) :
    (∀ k, (s.flow k).state ≠ .idle → s.wakeups k = 1) ∧
      ∀ p d l₁ l₂, s.log = l₁ ++ .send p d :: l₂ → (∀ o ∈ l₂, o.isOutput (p, .output) = false) →
        s.timeouts.pending .isotpOutFlowOutput (.pcb p) = 1 ∧
          ∀ frame ret s', s.Fires .isotpOutFlowOutput p → WakeSafe cfg s (.timer frame ret) →
            step cfg s (.timer frame ret) = some s' →
            ∃ canif canId wire timeout rest,
              s'.log = s.log ++ .output (p, .output) canif canId wire timeout ret :: rest := by
  have hout := fun p => output_inv_confirmed (I := fun v => Awake v ∧ WaitsForDriver v) p
    ⟨Awake.initial, by rintro ⟨⟩⟩
    (fun hs hn hc _ hw ha h hst => ⟨Awake.output_step hs hn hc hw ha h.1 hst,
      WaitsForDriver.output_step hn hc hw ha h.2 hst⟩) hr hk hc ho hw
  have hin := fun p => input_inv_confirmed p Awake.initial
    (fun hs _ hn hc hw ha h hst => Awake.input_step hs hn hc hw ha h hst) hr hk hc hw
  constructor
  · rintro ⟨p, d⟩
    cases d with
    | output => exact wakeups_eq_one (hout p).1 (hout p).2.1
    | input => exact wakeups_eq_one (hin p).1 (hin p).2
  · intro p d l₁ l₂ hl hno
    -- nothing was handed over after the message, so it still waits
    have hu : unsent (s.view (p, .output)).log = true := by
      show unsent (s.log.filter _) = true
      rw [hl, List.filter_append, List.filter_cons_of_pos (by simp [Obs.flow])]
      exact unsent_of_split fun o hm =>
        ⟨of_decide_eq_true (List.mem_filter.mp hm).2, hno o (List.mem_filter.mp hm).1⟩
    obtain ⟨hst, ht⟩ := (hout p).2.2 hu
    exact ⟨ht, fun frame ret s' hf hsafe hs =>
      fires_output hf hst (canif_of_fires hsafe hf (Or.inl rfl)) hs⟩

/-- A message of one byte that the driver has taken -/
theorem one_wakeup_sent : ∃ s, Run {} (connected ++
    [.call (.isotpSend (some 0) (some [0x3E]) ⟨some 1, some 2, fun _ => 0⟩),
      .timer ⟨0, 0, 0, fun _ => 0⟩ .ok]) s ∧ s.wakeups (0, .output) = 1 := by
  obtain ⟨s, hr, hst⟩ := exists_run {} (connected ++
    [.call (.isotpSend (some 0) (some [0x3E]) ⟨some 1, some 2, fun _ => 0⟩),
      .timer ⟨0, 0, 0, fun _ => 0⟩ .ok]) (fun s => (s.flow (0, .output)).state ≠ .idle) (by decide)
  exact ⟨s, hr, (one_wakeup hr (by decide) (by decide) (by decide) (by decide)).1 _ hst⟩

/-- **A wake-up is lost.** The interface of the pcb is removed while a frame is due, and the handler
that should hand the frame over returns without doing anything. -/
theorem wakeup_lost : ¬ ∀ (es : List Event) (s : Node), Run {} es s → RunAlong {} KeepsPcbs es →
    RunAlong {} ConfirmsAccepted es → ∀ k : FlowId, k.1 ∈ s.isotpPcbList →
      (s.flow k).state ≠ .idle → s.wakeups k = 1 := by
  obtain ⟨s, hr, hp, hst, hw⟩ := exists_run {} (connected ++
    [.call (.isotpSend (some 0) (some [0x3E]) ⟨some 1, some 2, fun _ => 0⟩),
      .call (.canifRemove (some 0)), .timer ⟨0, 0, 0, fun _ => 0⟩ .ok])
    (fun s => 0 ∈ s.isotpPcbList ∧ (s.flow (0, .output)).state ≠ .idle ∧
      s.wakeups (0, .output) = 0) (by decide)
  intro h
  have := h _ s hr (by decide) (by decide) (0, .output) hp hst
  rw [hw] at this
  cases this

end Node
end Lwcan
