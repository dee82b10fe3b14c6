import Lwcan.Progress
import Lwcan.Accounting
import Lwcan.Solo

/-!
# The flows are independent

Every event of the traffic works on one flow: a call on the flow it is called for, a frame on the
flow of the pcb it is dispatched to that takes frames of its type, a timeout on the flow whose entry
it runs, a confirmation on the flow it was given for.

* `owner` — the flow an event works on;
* `view_of_not_owner`, `entries_of_not_owner` — the others do not notice: neither their buffers nor
  their timers nor anything else they see changes;
* `flows_apart` — so a flow's own events, run by themselves in the same order, bring it to where it
  is after all of them.
-/

namespace Lwcan

/-- The flow an entry of the timer list belongs to, if it is one of the library's -/
def Timeout.flow (e : Timeout Handler Ptr) : Option FlowId :=
  match e.handler, e.arg with
  | .isotpOutFlowOutput, .pcb p | .isotpOutputErrorHandler, .pcb p => some (p, .output)
  | .isotpInFlowOutput, .pcb p | .isotpInputErrorHandler, .pcb p => some (p, .input)
  | _, _ => none

theorem Timeout.flow_of_ofFlow {k : FlowId} {e : Timeout Handler Ptr} (h : e.ofFlow k) :
    e.flow = some k := by
  obtain ⟨p, d⟩ := k
  obtain ⟨ha, hh⟩ := armsFor_iff.mp h
  unfold flow
  rw [ha]
  cases d <;> rcases hh with hh | hh <;> rw [hh] <;> rfl

theorem Timeout.ofFlow_of_flow {k : FlowId} {e : Timeout Handler Ptr} (h : e.flow = some k) :
    e.ofFlow k := by
  unfold flow at h
  apply armsFor_iff.mpr
  split at h
  · next hh ha =>
    cases h
    exact ⟨ha, Or.inl hh⟩
  · next hh ha =>
    cases h
    exact ⟨ha, Or.inr hh⟩
  · next hh ha =>
    cases h
    exact ⟨ha, Or.inl hh⟩
  · next hh ha =>
    cases h
    exact ⟨ha, Or.inr hh⟩
  · cases h

/-- The flow that takes frames of this type -/
def CanFrame.dir (frame : CanFrame) : Option Dir :=
  if frame.data 0 &&& frameTypeMask = sfType then some .input
  else if frame.data 0 &&& frameTypeMask = ffType then some .input
  else if frame.data 0 &&& frameTypeMask = cfType then some .input
  else if frame.data 0 &&& frameTypeMask = fcType then some .output
  else none

/-- All flows notice the event: a call that sets connections up, and the clock. -/
def Event.shared : Event → Bool
  | .call c => c.setsUp
  | .tick _ => true
  | .input _ _ _ | .timer _ _ | .sent _ _ | .resume => false

namespace Node

variable {cfg : Config} {s s' t : Node} {k j : FlowId} {p : Nat} {e : Event} {es : List Event}

/-- **The flow an event works on** -/
def owner (s : Node) : Event → Option FlowId
  | .call (.isotpSend pcb _ _) => pcb.map (·, .output)
  | .call (.isotpReceived pcb _) => pcb.map (·, .input)
  | .call _ => none
  | .input canif frame _ => (s.findPcb canif frame).bind fun p => frame.dir.map (p, ·)
  | .timer _ _ => (s.timeouts.expire s.now).bind (·.1.flow)
  | .sent k _ => some k
  | .resume => s.suspended.map Suspended.flow
  | .tick _ => none

/-- The event is one of the flow's own, or one that all flows notice. -/
def isOwn (k : FlowId) (s : Node) (e : Event) : Bool := e.shared || s.owner e = some k

/-- No call is made while a function waits for a callback: callbacks start no operation. -/
def CallsOutside (s : Node) : Event → Prop
  | .call _ => s.suspended.isNone
  | _ => True

instance (s : Node) : (e : Event) → Decidable (s.CallsOutside e)
  | .call _ => inferInstanceAs (Decidable (_ = true))
  | .input _ _ _ | .timer _ _ | .sent _ _ | .resume | .tick _ => inferInstanceAs (Decidable True)

/-! ### An event works on its owner only -/

theorem owner_of_fires {h : Handler} {frame : CanFrame} {ret : Lwcanerr} (hf : s.Fires h k.1)
    (hk : h = outputHandler k.2 ∨ h = errorHandler k.2) : s.owner (.timer frame ret) = some k := by
  obtain ⟨x, ts, hx, rfl, ha⟩ := hf
  unfold owner
  dsimp only
  rw [hx]
  exact Timeout.flow_of_ofFlow (armsFor_iff.mpr ⟨ha, hk⟩)

theorem owner_of_findPcb {canif : Nat} {frame : CanFrame} {g : Grant} {d : Dir}
    (hp : s.findPcb canif frame = some p) (hd : frame.dir = some d) :
    s.owner (.input canif frame g) = some (p, d) := by
  unfold owner
  dsimp only
  rw [hp, hd]
  rfl

theorem dir_of_sf {frame : CanFrame} (h : frame.data 0 &&& frameTypeMask = sfType) :
    frame.dir = some .input := by
  rw [CanFrame.dir, if_pos h]

theorem dir_of_ff {frame : CanFrame} (h : frame.data 0 &&& frameTypeMask = ffType) :
    frame.dir = some .input := by
  rw [CanFrame.dir, h]
  rfl

theorem dir_of_cf {frame : CanFrame} (h : frame.data 0 &&& frameTypeMask = cfType) :
    frame.dir = some .input := by
  rw [CanFrame.dir, h]
  rfl

theorem dir_of_fc {frame : CanFrame} (h : frame.data 0 &&& frameTypeMask = fcType) :
    frame.dir = some .output := by
  rw [CanFrame.dir, h]
  rfl

/-- Every transition of an output flow is its own, but for `isotp_new`. -/
theorem owner_of_outputStep {v v' : View} (h : OutputStep cfg s p v e v')
    (hn : e ≠ .call .isotpNew) : s.owner e = some (p, .output) := by
  cases h with
  | send => rfl
  | skip hf | output hf | reject hf => exact owner_of_fires (k := (p, .output)) hf (Or.inl rfl)
  | expire hf => exact owner_of_fires (k := (p, .output)) hf (Or.inr rfl)
  | confirm | refuse => rfl
  | resume hs =>
    unfold Node.owner
    dsimp only
    rw [hs]
    rfl
  | wait hp _ _ _ ht => exact owner_of_findPcb hp (dir_of_fc ht)
  | abort hp _ _ _ ht => exact owner_of_findPcb hp (dir_of_fc ht)
  | proceed hp _ _ ht => exact owner_of_findPcb hp (dir_of_fc ht)
  | new => exact absurd rfl hn

/-- Every transition of an input flow is its own, but for `isotp_new`. -/
theorem owner_of_inputStep {v v' : View} (h : InputStep cfg s p v e v') (hn : e ≠ .call .isotpNew) :
    s.owner e = some (p, .input) := by
  cases h with
  | sfMemory hp ht => exact owner_of_findPcb hp (dir_of_sf ht)
  | sf hp ht => exact owner_of_findPcb hp (dir_of_sf ht)
  | ffMemory hp ht => exact owner_of_findPcb hp (dir_of_ff ht)
  | ffMemoryCallback hp ht => exact owner_of_findPcb hp (dir_of_ff ht)
  | ff hp ht => exact owner_of_findPcb hp (dir_of_ff ht)
  | ffCallback hp ht => exact owner_of_findPcb hp (dir_of_ff ht)
  | cfWrong hp ht => exact owner_of_findPcb hp (dir_of_cf ht)
  | cfLast hp ht => exact owner_of_findPcb hp (dir_of_cf ht)
  | cf hp ht => exact owner_of_findPcb hp (dir_of_cf ht)
  | block hp ht => exact owner_of_findPcb hp (dir_of_cf ht)
  | resumeFf hs | resumeFfMemory hs | resume hs =>
    unfold Node.owner
    dsimp only
    rw [hs]
    rfl
  | skip hf | output hf | reject hf => exact owner_of_fires (k := (p, .input)) hf (Or.inl rfl)
  | expire hf => exact owner_of_fires (k := (p, .input)) hf (Or.inr rfl)
  | confirm | refuse | release => rfl
  | new => exact absurd rfl hn

/-- **What a flow sees is not changed** by an event it does not own. -/
theorem view_of_not_owner (hs : Sound s) (hu : Unused cfg s) (ho : s.owner e ≠ some k)
    (hst : Node.step cfg s e = some t) : t.view k = s.view k := by
  obtain ⟨p, d⟩ := k
  cases d with
  | output =>
    refine (output_moves hs hu hst p).resolve_right ?_
    rintro ⟨hn, hm⟩
    exact ho (owner_of_outputStep hm hn)
  | input =>
    refine (input_moves hs hu hst p).resolve_right ?_
    rintro ⟨hn, hm⟩
    exact ho (owner_of_inputStep hm hn)

/-! ### Timers -/

theorem armsFor_user (k : FlowId) (n : Nat) (a : Ptr) : armsFor k (.user n) a = false := by
  unfold armsFor
  cases k.2 <;> simp [outputHandler, errorHandler]

section Timers

variable (hne : k ≠ j)
include hne

/-- Arming for one flow leaves the entries of another alone. -/
theorem entries_lwcanTimeout {hd : Handler} {a : Ptr} (n : Nat) (hj : armsFor j hd a) :
    (s.lwcanTimeout n hd a).timeouts.entries k = s.timeouts.entries k :=
  Timeouts.entries_lwcanTimeout_other (armsFor_other hj hne)

/-- **Cancelling** a timer of one flow removes no entry of another. -/
theorem entries_lwcanUntimeout {hd : Handler} {a : Ptr} (hj : armsFor j hd a) :
    (s.lwcanUntimeout hd a).timeouts.entries k = s.timeouts.entries k :=
  Timeouts.entries_lwcanUntimeout_other (armsFor_other hj hne)

theorem entries_isotpSentSwitch (hu : j.2.uses (s.flow j).state) :
    (s.isotpSentSwitch cfg j).timeouts.entries k = s.timeouts.entries k := by
  have hsf : (s.sentSf j.1).timeouts = s.timeouts := by
    unfold sentSf
    dsimp only
    split
    · exact isotpRemoveBuffer_timeouts ..
    · exact isotpRemoveBuffer_timeouts ..
  obtain ⟨p, d⟩ := j
  unfold isotpSentSwitch
  split
  · rw [hsf]
  · next hst =>
    -- the state tells the direction
    obtain rfl : d = .output := by
      cases d
      · rfl
      · rw [hst] at hu
        cases hu
    unfold sentFf
    split
    · rfl
    · exact entries_lwcanTimeout hne cfg.nBs (armsFor_error (p, .output))
  · next hst =>
    obtain rfl : d = .output := by
      cases d
      · rfl
      · rw [hst] at hu
        cases hu
    unfold sentCf
    dsimp only
    split
    · exact congrArg (Timeouts.entries · k) hsf
    · split
      · exact entries_lwcanTimeout hne _ (armsFor_output (p, .output))
      · exact entries_lwcanTimeout hne cfg.nBs (armsFor_error (p, .output))
  · next hst =>
    obtain rfl : d = .input := by
      cases d
      · rw [hst] at hu
        cases hu
      · rfl
    unfold sentFc callError
    split
    · split <;> rfl
    · exact entries_lwcanTimeout hne cfg.nCr (armsFor_error (p, .input))
  · rfl

theorem entries_isotpSent (hu : j.2.uses (s.flow j).state) (err : Lwcanerr) :
    (s.isotpSent cfg j err).timeouts.entries k = s.timeouts.entries k := by
  unfold isotpSent
  split
  · have hdrop : ((s.dropHead j).setState j .idle).timeouts = s.timeouts :=
      isotpRemoveBuffer_timeouts ..
    have hidle : j.2.uses (((s.dropHead j).setState j .idle).flow j).state := by
      unfold setState
      rw [flow_setFlow_self]
      exact uses_idle j.2
    dsimp only
    split
    · exact congrArg (Timeouts.entries · k) hdrop
    · rw [entries_isotpSentSwitch hne hidle, hdrop]
  · exact entries_isotpSentSwitch hne hu

omit hne in
theorem deliver_timeouts (s : Node) (p : Nat) : (s.deliver p).timeouts = s.timeouts := by
  unfold deliver isotpReceived
  dsimp only
  split
  · split <;> rfl
  · split
    · exact isotpRemoveBuffer_timeouts ..
    · rfl

omit hne in
theorem receivedSf_timeouts (s : Node) (p : Nat) (frame : CanFrame) (g : Grant) :
    (s.receivedSf cfg p frame g).timeouts = s.timeouts := by
  unfold receivedSf callError
  dsimp only
  split
  · rfl
  · split
    · split <;> rfl
    · exact deliver_timeouts ..

variable (hj : j = (p, .input))
include hj

theorem entries_receivedFfOutput :
    (s.receivedFfOutput cfg p).timeouts.entries k = s.timeouts.entries k := by
  subst hj
  exact entries_lwcanTimeout hne 0 (armsFor_output (p, .input))

theorem entries_receivedFfStore (frame : CanFrame) (b n : Nat) :
    (s.receivedFfStore cfg p frame b n).timeouts.entries k = s.timeouts.entries k := by
  unfold receivedFfStore
  rw [entries_receivedFfOutput hne hj]
  show (storeFfData cfg _ p frame.data frame.len).timeouts.entries k = _
  rw [storeFfData_timeouts]
  rfl

theorem entries_receivedFf (frame : CanFrame) (g : Grant) :
    (s.receivedFf cfg p frame g).timeouts.entries k = s.timeouts.entries k := by
  unfold receivedFf
  dsimp only
  split
  · rfl
  · split
    · split
      · rfl
      · exact entries_receivedFfOutput hne hj
    · split
      · rfl
      · exact entries_receivedFfStore hne hj _ _ _

theorem entries_receivedCf (frame : CanFrame) :
    (s.receivedCf cfg p frame).timeouts.entries k = s.timeouts.entries k := by
  subst hj
  have hcancel : ((s.emit (.consecutive p frame.wire)).lwcanUntimeout .isotpInputErrorHandler
      (.pcb p)).timeouts.entries k = s.timeouts.entries k :=
    entries_lwcanUntimeout hne (armsFor_error (p, .input))
  unfold receivedCf
  dsimp only
  -- the branches differ in what is armed last, and none of it is for `k`
  split
  · rfl
  · rw [← hcancel]
    generalize (s.emit (.consecutive p frame.wire)).lwcanUntimeout .isotpInputErrorHandler
      (.pcb p) = a
    have hstore := (storeCfData_parts a p frame.data frame.len).1
    split
    · refine (entries_lwcanTimeout hne 0 (armsFor_output (p, .input))).trans ?_
      exact congrArg (Timeouts.entries · k) (isotpRemoveBuffer_timeouts ..)
    · split
      · rw [deliver_timeouts]
        exact congrArg (Timeouts.entries · k) hstore
      · split
        · refine (entries_lwcanTimeout hne _ (armsFor_error (p, .input))).trans ?_
          exact congrArg (Timeouts.entries · k) hstore
        · refine (entries_lwcanTimeout hne 0 (armsFor_output (p, .input))).trans ?_
          exact congrArg (Timeouts.entries · k) hstore

omit hj in
theorem entries_receivedFc (hj : j = (p, .output)) (frame : CanFrame) :
    (s.receivedFc cfg p frame).timeouts.entries k = s.timeouts.entries k := by
  subst hj
  have hcancel : ∀ o, ((s.emit o).lwcanUntimeout .isotpOutputErrorHandler
      (.pcb p)).timeouts.entries k = s.timeouts.entries k :=
    fun _ => entries_lwcanUntimeout hne (armsFor_error (p, .output))
  unfold receivedFc callError
  dsimp only
  split
  · rfl
  · rw [← hcancel]
    split
    · exact entries_lwcanTimeout hne _ (armsFor_error (p, .output))
    · split
      · split <;> exact congrArg (Timeouts.entries · k) (isotpRemoveBuffer_timeouts ..)
      · exact entries_lwcanTimeout hne 0 (armsFor_output (p, .output))

omit hj in
theorem entries_isotpSend (hj : j = (p, .output)) (data : Option (List UInt8)) (g : Grant) :
    (s.isotpSend cfg (some p) data g).2.timeouts.entries k = s.timeouts.entries k := by
  subst hj
  unfold isotpSend
  cases data with
  | none => rfl
  | some d =>
    dsimp only
    split
    · rfl
    · split
      · rfl
      · split
        · rfl
        · exact entries_lwcanTimeout hne 0 (armsFor_output (p, .output))

end Timers

/-- **A flow's entries stay as they are** in an event that neither it owns nor all flows notice. -/
theorem entries_of_not_owner (hs : Sound s) (hk : KeepsPcbs s e) (hsh : e.shared = false)
    (ho : s.owner e ≠ some k) (hst : Node.step cfg s e = some t) :
    t.timeouts.entries k = s.timeouts.entries k := by
  obtain ⟨he, rfl⟩ := step_eq_some.mp hst
  -- the owner is another flow
  have hne : ∀ {j}, s.owner e = some j → k ≠ j := by
    rintro j hj rfl
    exact ho hj
  cases e with
  | call c =>
    cases c with
    | isotpSend pcb data g =>
      cases pcb with
      | none => rfl
      | some p => exact entries_isotpSend (hne rfl) rfl data g
    | isotpReceived pcb buffer =>
      unfold next call isotpReceived
      dsimp only
      split
      · exact congrArg (Timeouts.entries · k) (isotpRemoveBuffer_timeouts ..)
      · rfl
    | lwcanTimeout timeMs n arg => exact Timeouts.entries_lwcanTimeout_other (armsFor_user k n arg)
    | lwcanUntimeout n arg => exact Timeouts.entries_lwcanUntimeout_other (armsFor_user k n arg)
    | isotpRemove pcb => exact hk.elim
    | isotpNew | isotpBind | isotpSetCallbacks | isotpSetCallbackArg | canifAdd | canifRemove =>
      cases hsh
  | input canif frame g =>
    unfold next isotpInput
    dsimp only
    split
    · rfl
    · next p hp =>
      split
      · exact congrArg (Timeouts.entries · k) (receivedSf_timeouts ..)
      · split
        · next ht => exact entries_receivedFf (hne (owner_of_findPcb hp (dir_of_ff ht))) rfl frame g
        · split
          · next ht => exact entries_receivedCf (hne (owner_of_findPcb hp (dir_of_cf ht))) rfl frame
          · split
            · next ht =>
                exact entries_receivedFc (hne (owner_of_findPcb hp (dir_of_fc ht))) rfl frame
            · rfl
  | timer frame ret =>
    unfold next
    dsimp only
    split
    · rfl
    · next x timeouts hx =>
      -- the entry is not this flow's
      have hnot : ¬x.ofFlow k := by
        intro hof
        refine ho ?_
        unfold owner
        dsimp only
        rw [hx]
        exact Timeout.flow_of_ofFlow hof
      have hent : timeouts.entries k = s.timeouts.entries k := by
        rw [Timeouts.entries_expire (k := k) hx, if_neg hnot]
      rw [runHandler_timeouts]
      exact hent
  | sent j err =>
    have hu : j.2.uses (({ s with confirms := s.confirms.erase j } : Node).flow j).state :=
      hs.states j
    exact entries_isotpSent (hne rfl) hu err
  | resume =>
    unfold next
    dsimp only
    split
    · rfl
    · next f hf =>
      have hfk : k ≠ f.flow := hne (by unfold owner; dsimp only; rw [hf]; rfl)
      cases f with
      | receivedFf p frame b n => exact entries_receivedFfStore hfk rfl frame b n
      | receivedFfOutput p => exact entries_receivedFfOutput hfk rfl
      | isotpSent j => exact entries_isotpSentSwitch hfk (hs.states j)
  | tick ms => cases hsh

/-! ### What is no flow's -/

theorem SameSetup.symm (h : SameSetup s s') : SameSetup s' s :=
  ⟨h.list.symm, h.pool.symm, h.canifs.symm, fun p => (h.pcb p).symm⟩

theorem Prims.fixed (h : Prims s s') : s'.isotpPcbNum = s.isotpPcbNum ∧ s'.now = s.now := by
  induction h with
  | refl => exact ⟨rfl, rfl⟩
  | emit _ _ ih | setFlow _ _ _ ih | lwcanTimeout _ _ _ _ ih | lwcanUntimeout _ _ _ ih | heap _ _ ih
  | confirms _ _ ih | suspended _ _ ih => exact ih

/-- The setup and the clock are changed by what all flows notice, and by nothing else. -/
theorem fixed_of_not_shared (cfg : Config) (hk : KeepsPcbs s e) (hsh : e.shared = false) :
    SameSetup s (s.next cfg e) ∧ (s.next cfg e).isotpPcbNum = s.isotpPcbNum ∧
      (s.next cfg e).now = s.now := by
  have hprims : ∀ {s'}, Prims s s' → SameSetup s s' ∧ s'.isotpPcbNum = s.isotpPcbNum ∧
      s'.now = s.now :=
    fun h => ⟨h.sameSetup, h.fixed⟩
  cases e with
  | call c =>
    cases c with
    | isotpSend pcb data g => exact hprims (Prims.refl.isotpSend pcb data g)
    | isotpReceived pcb buffer => exact hprims (Prims.refl.isotpReceived pcb buffer)
    | lwcanTimeout timeMs n arg => exact hprims (Prims.refl.lwcanTimeout timeMs (.user n) arg)
    | lwcanUntimeout n arg => exact hprims (Prims.refl.lwcanUntimeout (.user n) arg)
    | isotpRemove => exact hk.elim
    | isotpNew | isotpBind | isotpSetCallbacks | isotpSetCallbackArg | canifAdd | canifRemove =>
      cases hsh
  -- the entry is taken off before its handler runs
  | timer frame ret =>
    refine ⟨SameSetup.next s (by nofun), ?_⟩
    unfold next
    dsimp only
    split
    · exact ⟨rfl, rfl⟩
    · next x timeouts _ =>
      exact (Prims.refl (s := { s with timeouts })).runHandler x.handler x.arg frame ret |>.fixed
  | input canif frame g => exact hprims (Prims.refl.isotpInput canif frame g)
  | sent j err => exact hprims ((Prims.refl.confirms _).isotpSent j err)
  | resume =>
    refine hprims ((Prims.next cfg s (e := .resume) nofun nofun).resolve_right ?_)
    rintro ⟨ms, hms⟩
    cases hms
  | tick ms => cases hsh

/-! ### The flow by itself -/

/-- A buffer is held for the flow that the function works on. -/
theorem Suspended.flow_of_owned {f : Suspended} {b : Nat} (h : b ∈ f.owned k) : f.flow = k := by
  cases f with
  | receivedFf p frame b' n =>
    by_cases hk : k = (p, .input)
    · exact hk.symm
    · rw [Suspended.owned, if_neg hk] at h
      cases h
  | receivedFfOutput p => cases h
  | isotpSent j => cases h

/-- The switch of `isotp_sent` arms nothing in an idle flow. -/
theorem armsNext_of_idle (h : (s.flow k).state = .idle) : s.armsNext k = false := by
  obtain ⟨p, d⟩ := k
  unfold armsNext
  cases d <;> simp [h]

/-- **`s'` is where flow `k` of `s` is when it runs by itself.** -/
structure Projects (cfg : Config) (k : FlowId) (s s' : Node) : Prop where
  solo : Solo k s s'
  sound : Sound s
  unused : Unused cfg s
  once : AtMostOne (s.view k)
  awake : Awake (s.view k)
  sound' : Sound s'
  unused' : Unused cfg s'
  accounted : Accounted s'
  /-- The other flows of `s'` do nothing. -/
  others : ∀ j, j ≠ k → s'.flow j = {}

namespace Projects

theorem initial (cfg : Config) (k : FlowId) : Projects cfg k (lwcanInit cfg) (lwcanInit cfg) := by
  have hflow : ∀ j, (lwcanInit cfg).flow j = {} := fun j =>
    congrArg View.flow (view_lwcanInit cfg j)
  refine ⟨?_, Sound.initial cfg, Unused.initial cfg, ?_, ?_, Sound.initial cfg, Unused.initial cfg,
    Accounted.initial cfg, fun j _ => hflow j⟩
  · exact {
      now := rfl
      setup := SameSetup.refl _
      num := rfl
      flow := rfl
      buffer := fun _ _ => rfl
      held := fun _ _ _ _ => rfl
      entries := rfl
      confirms := rfl
      suspended := rfl
      log := rfl
      alone := nofun
      tidy := Timeouts.Tidy.initial cfg
      room := rfl }
  · rw [view_lwcanInit]
    exact AtMostOne.initial
  · rw [view_lwcanInit]
    exact Awake.initial

/-- What is allocated for the flow alone is allocated in `s`. -/
theorem blocks (h : Projects cfg k s s') : s'.heap.blocks ⊆ s.heap.blocks := by
  intro a ha
  obtain ⟨j, b, hb, hab⟩ := h.accounted.owner a ha
  have hown : b ∈ s.owned k ∧ s'.heap.buffer b = s.heap.buffer b := by
    rcases List.mem_append.mp hb with hb | hb
    · -- the buffer that a suspended function holds
      have hsus := h.solo.suspended
      cases hf : s'.suspended with
      | none =>
        rw [hf] at hb
        cases hb
      | some f =>
        rw [hf] at hb hsus
        obtain ⟨hf', hfk⟩ := Option.filter_eq_some_iff.mp hsus.symm
        have hj : j = k := (Suspended.flow_of_owned hb).symm.trans (of_decide_eq_true hfk)
        subst hj
        refine ⟨List.mem_append_left _ ?_, h.solo.held f hf' b hb⟩
        rw [hf']
        exact hb
    · by_cases hj : j = k
      · subst hj
        rw [h.solo.flow] at hb
        exact ⟨mem_owned_of_mem hb, h.solo.buffer b hb⟩
      · rw [h.others j hj] at hb
        cases hb
  rcases hab with rfl | rfl
  · exact h.sound.heap.header hown.1
  · rw [hown.2]
    exact h.sound.heap.payload hown.1

theorem fresh (h : Projects cfg k s s') {g : Grant} (hg : g.Fresh s.heap.blocks) :
    g.Fresh s'.heap.blocks :=
  ⟨fun a ha => ⟨fun hm => (hg.1 a ha).1 (h.blocks hm), (hg.1 a ha).2⟩,
    fun b hb hm => hg.2 b hb (h.blocks hm)⟩

theorem suspended_none (h : Projects cfg k s s') (hn : s.suspended = none) :
    s'.suspended = none := by
  rw [h.solo.suspended, hn]
  rfl

/-- Nothing is pending for an idle flow. -/
theorem entries_of_idle (h : Projects cfg k s s') (hi : (s.flow k).state = .idle) :
    s.timeouts.entries k = [] := by
  obtain ⟨ht, he, -⟩ := h.once.of_idle hi
  exact Timeouts.entries_eq_nil.mpr ⟨ht, he⟩

/-- Nothing is pending for a waiting flow once its error timeout is cancelled, and its chunk is
free. -/
theorem entries_of_waits (h : Projects cfg k s s') (hw : (s.flow k).state.waits) :
    (s.timeouts.lwcanUntimeout (errorHandler k.2) (.pcb k.1)).entries k = [] ∧
      s.slotAfterCancel k := by
  obtain ⟨he, ht, -⟩ := h.once.of_waits hw
  refine ⟨Timeouts.entries_eq_nil.mpr ⟨?_, ?_⟩, h.sound.slotAfterCancel (h.awake.err_pos h.once hw)⟩
  · rw [Timeouts.pending_lwcanUntimeout]
    have : s.timeouts.pending (outputHandler k.2) (.pcb k.1) = 0 := ht
    omega
  · rw [Timeouts.pending_lwcanUntimeout, if_pos ⟨rfl, rfl⟩]
    have : s.timeouts.pending (errorHandler k.2) (.pcb k.1) ≤ 1 := he
    omega

/-! ### The flow's own events -/

theorem call (h : Projects cfg k s s') {c : Call} (hsh : c.setsUp = false)
    (hw : WakeSafe cfg s (.call c))
    (ho : s.owner (.call c) = some k) : Solo k (s.call cfg c) (s'.call cfg c) := by
  cases c with
  | isotpSend pcb data g =>
    obtain ⟨p, rfl, rfl⟩ := Option.map_eq_some_iff.mp ho
    refine h.solo.isotpSend data g h.entries_of_idle ?_
    rintro d rfl
    exact hw
  | isotpReceived pcb buffer =>
    obtain ⟨p, rfl, rfl⟩ := Option.map_eq_some_iff.mp ho
    exact h.solo.isotpReceived buffer
  | isotpNew | isotpBind | isotpRemove | isotpSetCallbacks | isotpSetCallbackArg | canifAdd
  | canifRemove | lwcanTimeout | lwcanUntimeout => cases ho

theorem isotpInput (h : Projects cfg k s s') {canif : Nat} {frame : CanFrame} {g : Grant}
    (hw : WakeSafe cfg s (.input canif frame g)) (ho : s.owner (.input canif frame g) = some k) :
    Solo k (s.isotpInput cfg canif frame g) (s'.isotpInput cfg canif frame g) := by
  obtain ⟨p, hp, hd⟩ := Option.bind_eq_some_iff.mp ho
  obtain ⟨d, hd, rfl⟩ := Option.map_eq_some_iff.mp hd
  unfold Node.isotpInput
  rw [h.solo.setup.findPcb, hp]
  dsimp only
  -- the type of the frame tells which flow of the pcb it is for
  unfold CanFrame.dir at hd
  split at hd
  · next ht =>
    cases hd
    rw [if_pos ht, if_pos ht]
    exact h.solo.receivedSf frame g
  · next ht₁ =>
    rw [if_neg ht₁, if_neg ht₁]
    split at hd
    · next ht =>
      cases hd
      rw [if_pos ht, if_pos ht]
      exact h.solo.receivedFf frame g ht h.entries_of_idle (hw p hp)
    · next ht₂ =>
      rw [if_neg ht₂, if_neg ht₂]
      split at hd
      · next ht =>
        cases hd
        rw [if_pos ht, if_pos ht]
        refine h.solo.receivedCf frame ?_ ?_
        · intro hst
          exact (h.entries_of_waits (by rw [hst]; rfl)).1
        · intro hst
          exact (h.entries_of_waits (by rw [hst]; rfl)).2
      · next ht₃ =>
        rw [if_neg ht₃, if_neg ht₃]
        split at hd
        · next ht =>
          cases hd
          rw [if_pos ht, if_pos ht]
          refine h.solo.receivedFc frame ?_ ?_
          · intro hst
            exact (h.entries_of_waits (by rw [hst]; rfl)).1
          · intro hst
            exact (h.entries_of_waits (by rw [hst]; rfl)).2
        · cases hd

theorem timer (h : Projects cfg k s s') (cfg : Config) (frame : CanFrame) (ret : Lwcanerr)
    (ho : s.owner (.timer frame ret) = some k) :
    (s'.timeouts.expire s'.now).isSome ∧
      Solo k (s.next cfg (.timer frame ret)) (s'.next cfg (.timer frame ret)) := by
  obtain ⟨⟨x, timeouts⟩, hx, hxk⟩ := Option.bind_eq_some_iff.mp ho
  have hof := Timeout.ofFlow_of_flow hxk
  obtain ⟨x', timeouts', hx', hh, ha, hs⟩ := h.solo.expire hx hof
  -- an entry of a flow has one of two handlers, with the pcb as argument
  obtain ⟨harg, hhd⟩ := armsFor_iff.mp hof
  obtain ⟨p, d⟩ := k
  refine ⟨by rw [hx']; rfl, ?_⟩
  unfold next
  rw [hx, hx']
  dsimp only
  rw [hh, ha, harg]
  cases d with
  | output =>
    rcases hhd with hhd | hhd
    · rw [hhd]
      exact hs.isotpOutFlowOutput frame ret
    · rw [hhd]
      exact hs.fail (.pcb p) .transmitTimeout
  | input =>
    rcases hhd with hhd | hhd
    · rw [hhd]
      exact hs.isotpInFlowOutput frame ret
    · rw [hhd]
      exact hs.fail (.pcb p) .receiveTimeout

theorem isotpSent (h : Projects cfg k s s') {err : Lwcanerr} (hc : k ∈ s.confirms)
    (hw : WakeSafe cfg s (.sent k err)) :
    Solo k (s.next cfg (.sent k err)) (s'.next cfg (.sent k err)) := by
  obtain ⟨-, ht, he, -⟩ := h.once.of_confirms_pos (List.count_pos_iff.mpr hc)
  refine h.solo.confirm.isotpSent (h.sound.states k) (Timeouts.entries_eq_nil.mpr ⟨ht, he⟩) err ?_
  rintro rfl
  exact hw

theorem resume (h : Projects cfg k s s') (hw : WakeSafe cfg s .resume)
    (ho : s.owner .resume = some k) :
    s'.suspended.isSome ∧ Solo k (s.next cfg .resume) (s'.next cfg .resume) := by
  obtain ⟨f, hf, hfk⟩ := Option.map_eq_some_iff.mp ho
  have hf' : s'.suspended = some f := by
    rw [h.solo.suspended, hf]
    simp [Option.filter, hfk]
  -- the flow was idle when the callback was called, so nothing of it is pending
  have hidle : (s.flow k).state = .idle := h.once.idle_of_suspended hf hfk
  have he := h.entries_of_idle hidle
  refine ⟨by rw [hf']; rfl, ?_⟩
  unfold next
  rw [hf, hf']
  dsimp only
  cases f with
  | receivedFf p frame b n =>
    subst hfk
    refine h.solo.wake.receivedFfStore n ?_ he (hw (by unfold resumesFf; rw [hf]))
    refine h.solo.held _ hf b ?_
    show b ∈ if (p, Dir.input) = (p, Dir.input) then [b] else []
    rw [if_pos rfl]
    exact List.mem_singleton_self b
  | receivedFfOutput p =>
    subst hfk
    exact h.solo.wake.receivedFfOutput he (hw (by unfold resumesFf; rw [hf]))
  | isotpSent j =>
    subst hfk
    refine h.solo.wake.isotpSentSwitch (h.sound.states _) he ?_
    intro harm
    have hno : ({ s with suspended := none } : Node).armsNext j = false := armsNext_of_idle hidle
    cases hno.symm.trans harm

/-- **An event of the flow** can happen in both nodes, and does the same there. -/
theorem own (h : Projects cfg k s s') (he : s.Enabled e) (hsh : e.shared = false)
    (hc : ConfirmsAccepted s e) (hw : WakeSafe cfg s e) (ho : s.owner e = some k) :
    s'.Enabled e ∧ Solo k (s.next cfg e) (s'.next cfg e) := by
  cases e with
  | call c =>
    refine ⟨?_, h.call hsh hw ho⟩
    cases c with
    | isotpSend pcb data g =>
      -- what is granted is free in the smaller heap as well
      refine ⟨?_, he.2.1, h.fresh he.2.2⟩
      rw [h.solo.setup.list]
      exact he.1
    | isotpReceived pcb buffer =>
      show ∀ p ∈ pcb, p ∈ s'.isotpPcbList
      rw [h.solo.setup.list]
      exact he
    | isotpNew | isotpBind | isotpRemove | isotpSetCallbacks | isotpSetCallbackArg | canifAdd
    | canifRemove | lwcanTimeout | lwcanUntimeout => cases ho
  | input canif frame g =>
    refine ⟨⟨?_, h.fresh he.2⟩, h.isotpInput hw ho⟩
    rw [h.suspended_none (Option.isNone_iff_eq_none.mp he.1)]
    rfl
  | timer frame ret =>
    obtain ⟨hdue, hs⟩ := h.timer cfg frame ret ho
    refine ⟨⟨?_, hdue⟩, hs⟩
    rw [h.suspended_none (Option.isNone_iff_eq_none.mp he.1)]
    rfl
  | sent j err =>
    obtain rfl : j = k := Option.some.inj ho
    refine ⟨?_, h.isotpSent hc hw⟩
    show s'.suspended.isNone
    rw [h.suspended_none (Option.isNone_iff_eq_none.mp he)]
    rfl
  | resume => exact h.resume hw ho
  | tick ms => cases hsh

/-- It is the flow's own in both nodes. -/
theorem owner (h : Projects cfg k s s') (ho : s.owner e = some k) : s'.owner e = some k := by
  cases e with
  | call c =>
    cases c with
    | isotpSend | isotpReceived => exact ho
    | isotpNew | isotpBind | isotpRemove | isotpSetCallbacks | isotpSetCallbackArg | canifAdd
    | canifRemove | lwcanTimeout | lwcanUntimeout => cases ho
  | input canif frame g =>
    unfold Node.owner at ho ⊢
    dsimp only at ho ⊢
    rw [h.solo.setup.findPcb]
    exact ho
  | timer frame ret =>
    -- the entry of this flow that is due is due on both sides
    obtain ⟨⟨x, timeouts⟩, hx, hxk⟩ := Option.bind_eq_some_iff.mp ho
    obtain ⟨x', timeouts', hx', hh, ha, -⟩ := h.solo.expire hx (Timeout.ofFlow_of_flow hxk)
    unfold Node.owner
    dsimp only
    rw [hx']
    refine Eq.trans ?_ hxk
    show x'.flow = x.flow
    unfold Timeout.flow
    rw [hh, ha]
  | sent j err => exact ho
  | resume =>
    obtain ⟨f, hf, hfk⟩ := Option.map_eq_some_iff.mp ho
    unfold Node.owner
    dsimp only
    rw [h.solo.suspended, hf]
    simp [Option.filter, hfk]
  | tick ms => cases ho

/-- **What all flows notice** happens in both nodes alike. -/
theorem shared (h : Projects cfg k s s') (he : s.Enabled e) (hsh : e.shared) :
    s'.Enabled e ∧ Solo k (s.next cfg e) (s'.next cfg e) := by
  cases e with
  | call c =>
    refine ⟨?_, h.solo.call hsh⟩
    have hlist := h.solo.setup.list
    cases c with
    | isotpNew | canifRemove => trivial
    | isotpBind pcb addr =>
      show ∀ p ∈ pcb, p ∈ s'.isotpPcbList
      rw [hlist]
      exact he
    | isotpSetCallbacks p | isotpSetCallbackArg p =>
      show p ∈ s'.isotpPcbList
      rw [hlist]
      exact he
    | canifAdd canif name init =>
      show (s'.canifs.canifAdd canif name init).isSome
      rw [h.solo.setup.canifs]
      exact he
    | isotpRemove | isotpSend | isotpReceived | lwcanTimeout | lwcanUntimeout => cases hsh
  | tick ms => exact ⟨trivial, h.solo.tick ms⟩
  | input | timer | sent | resume => cases hsh

/-- No flow owns what all notice. -/
theorem owner_of_shared (s : Node) (hsh : e.shared) : s.owner e = none := by
  cases e with
  | call c => cases c <;> first | rfl | cases hsh
  | tick ms => rfl
  | input | timer | sent | resume => cases hsh

/-- What the flow has pending, after any step -/
theorem pending_step (h : Projects cfg k s s') (hc : ConfirmsAccepted s e) (ho : CallsOutside s e)
    (hw : WakeSafe cfg s e) (hst : Node.step cfg s e = some t) :
    AtMostOne (t.view k) ∧ Awake (t.view k) := by
  have hso : SendsOutside s e := by
    unfold SendsOutside
    split
    · intro _ _ _ f hf
      rw [Option.isNone_iff_eq_none.mp (show s.suspended.isNone from ho)] at hf
      cases hf
    · trivial
  obtain ⟨p, d⟩ := k
  cases d with
  | output =>
    rcases output_moves h.sound h.unused hst p with heq | ⟨hn, hm⟩
    · rw [heq]
      exact ⟨h.once, h.awake⟩
    · exact ⟨h.once.output_step hn hc hso hm, Awake.output_step h.sound hn hc hw h.once h.awake hm⟩
  | input =>
    rcases input_moves h.sound h.unused hst p with heq | ⟨hn, hm⟩
    · rw [heq]
      exact ⟨h.once, h.awake⟩
    · exact ⟨h.once.input_step (step_eq_some.mp hst).1 hn hc hm,
        Awake.input_step h.sound hn hc hw h.once h.awake hm⟩

/-- **An event that the flow takes part in** is a step of both nodes. -/
theorem step_own (h : Projects cfg k s s') (hk : KeepsPcbs s e) (hc : ConfirmsAccepted s e)
    (ho : CallsOutside s e) (hw : WakeSafe cfg s e) (hown : s.isOwn k e)
    (hst : Node.step cfg s e = some t) :
    ∃ t', Node.step cfg s' e = some t' ∧ Projects cfg k t t' := by
  obtain ⟨he, rfl⟩ := step_eq_some.mp hst
  have hboth : (s'.Enabled e ∧ Solo k (s.next cfg e) (s'.next cfg e)) ∧
      ∀ j, j ≠ k → s'.owner e ≠ some j := by
    -- a shared event happens to both sides, an own one to this flow only
    cases hsh : e.shared with
    | true =>
      refine ⟨h.shared he hsh, ?_⟩
      intro j _
      rw [owner_of_shared s' hsh]
      nofun
    | false =>
      have hmine : s.owner e = some k := by simpa [isOwn, hsh] using hown
      refine ⟨h.own he hsh hc hw hmine, ?_⟩
      intro j hj heq
      rw [h.owner hmine] at heq
      exact hj (Option.some.inj heq).symm
  obtain ⟨⟨he', hsolo⟩, hno⟩ := hboth
  have hst' : Node.step cfg s' e = some (s'.next cfg e) := step_eq_some.mpr ⟨he', rfl⟩
  obtain ⟨honce, hawake⟩ := h.pending_step hc ho hw hst
  refine ⟨_, hst', ⟨hsolo, h.sound.step hst, h.unused.step h.sound hk hst, honce, hawake,
    h.sound'.step hst', h.unused'.step h.sound' ?_ hst', h.accounted.step h.unused' hst', ?_⟩⟩
  · cases e with
    | call c => cases c <;> exact hk
    | input | timer | sent | resume | tick => trivial
  · intro j hj
    rw [← h.others j hj]
    exact congrArg View.flow (view_of_not_owner h.sound' h.unused' (hno j hj) hst')

/-- **The events of the others** leave the flow where it is by itself. -/
theorem step_other (h : Projects cfg k s s') (hk : KeepsPcbs s e) (hc : ConfirmsAccepted s e)
    (ho : CallsOutside s e) (hw : WakeSafe cfg s e) (hown : s.isOwn k e = false)
    (hst : Node.step cfg s e = some t) : Projects cfg k t s' := by
  obtain ⟨hsh, hno⟩ : e.shared = false ∧ s.owner e ≠ some k := by simpa [isOwn] using hown
  -- the event belongs to another flow, which leaves this one and its timers as they are
  have hview := view_of_not_owner h.sound h.unused hno hst
  have hent := entries_of_not_owner h.sound hk hsh hno hst
  obtain ⟨honce, hawake⟩ := h.pending_step hc ho hw hst
  refine ⟨?_, h.sound.step hst, h.unused.step h.sound hk hst, honce, hawake, h.sound', h.unused',
    h.accounted, h.others⟩
  obtain ⟨he, rfl⟩ := step_eq_some.mp hst
  obtain ⟨hsetup, hnum, hnow⟩ := fixed_of_not_shared cfg hk hsh
  have hs := h.solo
  have hflow : (s.next cfg e).flow k = s.flow k := congrArg View.flow hview
  refine { hs with
    now := hs.now.trans hnow.symm
    setup := hsetup.symm.trans hs.setup
    num := hs.num.trans hnum.symm
    flow := hs.flow.trans hflow.symm
    buffer := ?_
    held := ?_
    entries := hs.entries.trans hent.symm
    confirms := hs.confirms.trans (congrArg View.confirms hview).symm
    suspended := hs.suspended.trans (congrArg View.suspended hview).symm
    log := hs.log.trans (congrArg View.log hview).symm
    room := ?_ }
  · intro b hb
    -- the blocks of the flow are read through its chain
    have hchain := congrArg View.chain hview
    unfold view at hchain
    rw [hflow] at hb hchain
    have hbuf := List.map_inj_left.mp hchain b hb
    rw [hs.buffer b hb]
    exact (congrArg Prod.snd hbuf).symm
  · -- while a function of the flow is suspended, the others do nothing
    intro f hf b hb
    have hfk := Suspended.flow_of_owned hb
    have hsus : (s.view k).suspended = some f := by
      rw [← hview]
      exact view_suspended hf hfk
    have hf' : s.suspended = some f := (Option.filter_eq_some_iff.mp hsus).1
    exfalso
    cases e with
    | call c =>
      rw [Option.isNone_iff_eq_none.mp (show s.suspended.isNone from ho)] at hf'
      cases hf'
    | input | timer =>
      have := he.1
      rw [hf'] at this
      cases this
    | sent =>
      change s.suspended.isNone at he
      rw [hf'] at he
      cases he
    | resume =>
      refine hno ?_
      unfold Node.owner
      dsimp only
      rw [hf', ← hfk]
      rfl
    | tick => cases hsh
  · refine hs.room.trans (Eq.symm ?_)
    exact timeouts_step (I := fun u => u.room = s.timeouts.room)
      (fun _ _ _ a hr => (Timeouts.room_lwcanTimeout a).trans hr)
      (fun _ a hr => (Timeouts.room_lwcanUntimeout a).trans hr)
      (fun hr hx => (Timeouts.room_expire hx).trans hr) rfl hst

end Projects

/-! ### Every interleaving -/

/-- **The flow's own events** of a run, with what all flows notice -/
def ownEvents (cfg : Config) (k : FlowId) (es : List Event) : List Event :=
  Runs.picked (step cfg) (isOwn k) (lwcanInit cfg) es

/-- Where the pcbs have different addresses, a frame belongs to the pcb it is addressed to. -/
theorem owner_of_addressed {canif : Nat} {frame : CanFrame} {g : Grant} {d : Dir}
    (hdiff : ∀ p ∈ s.isotpPcbList, ∀ q ∈ s.isotpPcbList, (s.pcb p).ifIndex = (s.pcb q).ifIndex →
      (s.pcb p).rxId = (s.pcb q).rxId → p = q)
    (hp : p ∈ s.isotpPcbList) (hif : (s.pcb p).ifIndex = s.canifs.canifGetIndex (some canif))
    (hid : (s.pcb p).rxId = frame.canId) (hd : frame.dir = some d) :
    s.owner (.input canif frame g) = some (p, d) := by
  refine owner_of_findPcb ?_ hd
  unfold findPcb
  cases hf : s.isotpPcbList.find? fun p =>
      (s.pcb p).ifIndex = s.canifs.canifGetIndex (some canif) && (s.pcb p).rxId = frame.canId with
  | none =>
    have := List.find?_eq_none.mp hf p hp
    simp [hif, hid] at this
  | some q =>
    have hq := List.find?_some hf
    simp only [Bool.and_eq_true, decide_eq_true_eq] at hq
    rw [hdiff q (List.mem_of_find?_eq_some hf) p hp (hq.1.trans hif.symm) (hq.2.trans hid.symm)]

/-- **The flows are independent.** In every run, whatever the other flows do in between, a flow ends
where its own events alone, in the same order, bring it: with the same state, the same buffers and
contents, the same timers and deadlines, the same confirmations owed, the same frames handed over
and the same callbacks invoked. Cancelling a timer of another flow removes none of its entries. -/
theorem flows_apart (hr : Run cfg es s) (hk : RunAlong cfg KeepsPcbs es)
    (hc : RunAlong cfg ConfirmsAccepted es) (ho : RunAlong cfg CallsOutside es)
    (hw : RunAlong cfg (WakeSafe cfg) es) (k : FlowId) :
    (∃ s', Run cfg (ownEvents cfg k es) s' ∧ s'.view k = s.view k ∧
      s'.timeouts.entries k = s.timeouts.entries k) ∧
      ∀ j hd a, j ≠ k → armsFor j hd a →
        (s.timeouts.lwcanUntimeout hd a).entries k = s.timeouts.entries k := by
  constructor
  · obtain ⟨s', hr', h⟩ := Runs.run_picked (p := isOwn k) (R := Projects cfg k)
      (C := fun s e => KeepsPcbs s e ∧ ConfirmsAccepted s e ∧ CallsOutside s e ∧ WakeSafe cfg s e)
      (fun s s' e t h hC hown hst => h.step_own hC.1 hC.2.1 hC.2.2.1 hC.2.2.2 hown hst)
      (fun s s' e t h hC hown hst => h.step_other hC.1 hC.2.1 hC.2.2.1 hC.2.2.2 hown hst)
      (Projects.initial cfg k) (hk.and (hc.and (ho.and hw))) hr
    exact ⟨s', hr', h.solo.view, h.solo.entries⟩
  · intro j hd a hj harm
    exact entries_lwcanUntimeout (Ne.symm hj) harm

end Node
end Lwcan
