import Lwcan.Refinement
import Lwcan.Primitives

/-!
# Runs, flow by flow

The induction over the runs of a node is done here once. In runs without `isotp_remove` a pcb that
`isotp_new` hands out is untouched (`Unused.isotpNew_notMem`), so its transition changes nothing.
`output_inv` and `input_inv` reduce an invariant of one flow's view to the other transitions: it
holds in every such run if it holds of an untouched flow and every transition keeps it.
-/

namespace Lwcan

/-- An untouched flow's view -/
def View.initial : View := ⟨{}, [], 0, 0, 0, none, []⟩

/-! ### The states of a direction are kept -/

section Uses

variable {cfg : Config} {s : Node} {p : Nat} {e : Event}

/-- What fills a frame leaves the state alone. -/
theorem isotpFill_state {b : Option LwcanBuffer} {fl : IsotpFlow} {f : CanFrame}
    {filled : IsotpFlow × CanFrame} {n : Nat} (h : isotpFill cfg b fl f = some (filled, n)) :
    filled.1.state = fl.state := by
  unfold isotpFill at h
  split at h
  · cases h
    rfl
  · cases h
    rfl
  · cases h
    unfold isotpFillCf
    simp only
    split <;> rfl
  · cases h

theorem OutputSwitch.uses {pcb : IsotpPcb} {slot : Bool} {v v' : View}
    (hw : OutputSwitch pcb p slot v v') (h : Dir.output.uses v.flow.state) :
    Dir.output.uses v'.flow.state := by
  cases hw with
  | skip => exact h
  | complete => rw [View.emitIf_flow]; rfl
  | ff | cf | block => rfl

/-- An output flow stays among its states. -/
theorem OutputStep.uses {v v' : View} (hs : OutputStep cfg s p v e v')
    (h : Dir.output.uses v.flow.state) : Dir.output.uses v'.flow.state := by
  cases hs with
  | send =>
    show Dir.output.uses (View.sendFlow cfg v.flow _ _).state
    unfold View.sendFlow
    split <;> rfl
  | skip | wait => exact h
  | output _ _ _ hfl =>
    show Dir.output.uses _
    rw [View.accepted, View.emit, View.setFlow, isotpFill_state hfl]
    exact h
  | reject | expire | abort =>
    simp only [View.rejected, View.fail, View.emitIf_flow]
    rfl
  | confirm _ hw => exact hw.uses h
  | resume _ hw => exact hw.uses h
  | refuse => rw [View.refused_flow]; rfl
  | proceed | new => rfl

theorem InputSwitch.uses {pcb : IsotpPcb} {slot : Bool} {v v' : View}
    (hw : InputSwitch pcb p slot v v') (h : Dir.input.uses v.flow.state) :
    Dir.input.uses v'.flow.state := by
  cases hw with
  | skip => exact h
  | abort => rw [View.emitIf_flow]; rfl
  | ready => rfl

/-- An input flow stays among its states. -/
theorem InputStep.uses {v v' : View} (hs : InputStep cfg s p v e v')
    (h : Dir.input.uses v.flow.state) : Dir.input.uses v'.flow.state := by
  cases hs with
  | sfMemory => rw [View.emitIf_flow]; exact h
  | sf => rw [View.deliver_state]; exact h
  | ffMemory | ff | resumeFf | resumeFfMemory | cfWrong | cf | block | new => rfl
  | ffMemoryCallback | ffCallback | skip | output | release => exact h
  | cfLast => rw [View.deliver_state]; rfl
  | reject | expire =>
    simp only [View.rejected, View.fail, View.emitIf_flow]
    rfl
  | confirm _ hw => exact hw.uses h
  | resume _ hw => exact hw.uses h
  | refuse => rw [View.refused_flow]; rfl

end Uses

namespace Node

variable {cfg : Config} {s s' : Node} {k : FlowId} {p : Nat} {e : Event} {es : List Event}

theorem view_lwcanInit (cfg : Config) (k : FlowId) : (lwcanInit cfg).view k = View.initial := by
  obtain ⟨p, d⟩ := k
  cases d <;> rfl

/-! ### What holds in every run -/

/-- Every flow is in a state of its direction. -/
def StatesOk (s : Node) : Prop := ∀ k : FlowId, k.2.uses (s.flow k).state

theorem uses_idle (d : Dir) : d.uses .idle := by cases d <;> rfl

/-- What holds of every reachable state, whatever happens. -/
structure Sound (s : Node) : Prop where
  heap : HeapOk s
  states : StatesOk s
  slots : s.timeouts.SlotsOk

namespace Sound

theorem initial (cfg : Config) : Sound (lwcanInit cfg) := by
  refine ⟨HeapOk.initial cfg, fun k => ?_, Timeouts.SlotsOk.initial cfg⟩
  rw [← view_flow, view_lwcanInit]
  exact uses_idle _

theorem moves (h : Sound s) (hst : Node.step cfg s e = some s') : Moves cfg s e s' :=
  moves_step h.heap h.states hst

theorem step (h : Sound s) (hst : Node.step cfg s e = some s') : Sound s' := by
  have hm := h.moves hst
  refine ⟨h.heap.step hst, ?_, SlotsOk.step h.slots hst⟩
  rintro ⟨p, d⟩
  rw [← view_flow]
  cases d with
  | output =>
    rcases hm.output p with he | hs
    · rw [he]
      exact h.states (p, .output)
    · exact hs.uses (h.states (p, .output))
  | input =>
    rcases hm.input p with he | hs
    · rw [he]
      exact h.states (p, .input)
    · exact hs.uses (h.states (p, .input))

end Sound

theorem sound_run (hr : Run cfg es s) : Sound s :=
  Runs.run_inv (C := fun _ _ => True) (fun _ _ _ h _ hst => h.step hst) (Sound.initial cfg)
    (Runs.Along.trivial _ _) hr

/-! ### Runs without `isotp_remove` -/

/-- No connection is removed. -/
def KeepsPcbs (_ : Node) : Event → Prop
  | .call (.isotpRemove _) => False
  | _ => True

instance (s : Node) : (e : Event) → Decidable (s.KeepsPcbs e)
  | .call (.isotpRemove _) => inferInstanceAs (Decidable False)
  | .call .isotpNew | .call (.isotpBind _ _) | .call (.isotpSetCallbacks _ _ _ _ _)
  | .call (.isotpSetCallbackArg _ _) | .call (.isotpSend _ _ _) | .call (.isotpReceived _ _)
  | .call (.canifAdd _ _ _) | .call (.canifRemove _) | .call (.lwcanTimeout _ _ _)
  | .call (.lwcanUntimeout _ _) | .input _ _ _ | .timer _ _ | .sent _ _ | .resume | .tick _ =>
    inferInstanceAs (Decidable True)

/-- **Unused pcbs are untouched.** -/
structure Unused (cfg : Config) (s : Node) : Prop where
  chunk : s.isotpMemPool.chunk = cfg.isotpPcbSize
  marked : ∀ p ∈ s.isotpPcbList,
    ∃ i, p = i * cfg.isotpPcbSize ∧ s.isotpMemPool.service[i]? = some true
  pcb : ∀ p, p ∉ s.isotpPcbList → s.pcb p = {}
  suspended : ∀ f ∈ s.suspended, f.flow.1 ∈ s.isotpPcbList

namespace Unused

theorem initial (cfg : Config) : Unused cfg (lwcanInit cfg) :=
  ⟨rfl, fun _ h => absurd h List.not_mem_nil, fun _ _ => rfl, by rintro _ ⟨⟩⟩

/-- `isotp_new` hands out a pcb that is not in use. -/
theorem isotpNew_notMem (h : Unused cfg s) (hp : (s.isotpNew cfg).1 = some p) :
    p ∉ s.isotpPcbList := by
  unfold isotpNew at hp
  split at hp
  · cases hp
  · split at hp
    · cases hp
    · next hm =>
      cases hp
      obtain ⟨i, hi, rfl, -⟩ := Pool.malloc_some hm
      intro hmem
      obtain ⟨j, hj, hj'⟩ := h.marked _ hmem
      rw [h.chunk] at hj
      rw [Nat.eq_of_mul_eq_mul_right cfg.isotpPcbSize_pos hj, hj'] at hi
      cases hi

/-- The flows of an untouched pcb -/
theorem view_notMem (h : Unused cfg s) (hp : p ∉ s.isotpPcbList) (d : Dir) :
    (s.flow (p, d)) = {} := by
  unfold flow
  rw [h.pcb p hp]
  cases d <;> rfl

/-- A step that keeps the setup keeps unused pcbs untouched, if it keeps their flows. -/
theorem of_sameSetup (h : Unused cfg s) (hs : SameSetup s s')
    (hf : ∀ p d, p ∉ s.isotpPcbList → s'.flow (p, d) = s.flow (p, d))
    (hsus : ∀ f ∈ s'.suspended, f.flow.1 ∈ s.isotpPcbList) : Unused cfg s' := by
  refine ⟨by rw [hs.pool]; exact h.chunk, ?_, fun p hp => ?_, ?_⟩
  · rw [hs.list, hs.pool]
    exact h.marked
  · rw [hs.list] at hp
    rw [← h.pcb p hp]
    exact IsotpPcb.ext_setup (hs.pcb p) fun d => hf p d hp
  · rw [hs.list]
    exact hsus

/-- No function of a chunk that is not in the list waits for a callback. -/
theorem not_suspended (h : Unused cfg s) (hp : p ∉ s.isotpPcbList) (d : Dir) :
    (s.view (p, d)).suspended = none := by
  refine Option.filter_eq_none_iff.mpr fun f hf hk => hp ?_
  have := h.suspended f hf
  rw [of_decide_eq_true hk] at this
  exact this

end Unused

/-- Giving up leaves a flow that was never used as it is. -/
theorem fail_unused {v : View} (hfl : v.flow = {}) (hs : v.suspended = none) (k : FlowId)
    (c : Bool) (arg : Ptr) (err : Lwcanerr) :
    (v.fail k c arg err).flow = {} ∧ (v.fail k c arg err).suspended = none := by
  simp only [View.fail, View.emitIf_flow, View.emitIf_suspended]
  simp [View.drop, View.removeHead, View.emit, View.setState, View.setFlow, hfl, hs]

/-- A transition of an output flow that is not in use changes nothing of it. -/
theorem output_notMem (h : Unused cfg s) (he : s.Enabled e) (hp : p ∉ s.isotpPcbList) {v' : View}
    (hs : OutputStep cfg s p (s.view (p, .output)) e v') :
    v'.flow = {} ∧ v'.suspended = none := by
  have hfl : s.flow (p, .output) = {} := h.view_notMem hp .output
  have hsus := h.not_suspended hp .output
  have herr : (s.pcb p).error = false := by rw [h.pcb p hp]
  have hin : ∀ {canif frame}, s.findPcb canif frame = some p → False := fun hf =>
    hp (List.mem_of_find?_eq_some hf)
  have hsw : ∀ {slot : Bool} {v v' : View}, OutputSwitch (s.pcb p) p slot v v' → v.flow = {} →
      v.suspended = none → v'.flow = {} ∧ v'.suspended = none := by
    intro slot v v' hw hv hv'
    cases hw with
    | skip => exact ⟨hv, hv'⟩
    | complete hst => simp [hv] at hst
    | ff hst => simp [hv] at hst
    | cf hst => simp [hv] at hst
    | block hst => simp [hv] at hst
  cases hs with
  | send => exact absurd (he.1 p rfl) hp
  | skip => exact ⟨hfl, hsus⟩
  | output _ _ _ hfill | reject _ _ _ hfill => simp [isotpFill, hfl] at hfill
  | expire => refine fail_unused ?_ ?_ _ _ _ _ <;> assumption
  | confirm _ hw => exact hsw hw hfl hsus
  | refuse => simp [hfl, herr, hsus]
  | resume hs' => exact absurd (h.suspended _ hs') hp
  -- no frame reaches it
  | wait hf | abort hf | proceed hf => exact (hin hf).elim
  | new => exact ⟨rfl, hsus⟩

/-- A transition of an input flow that is not in use changes nothing of it. -/
theorem input_notMem (h : Unused cfg s) (he : s.Enabled e) (hp : p ∉ s.isotpPcbList) {v' : View}
    (hs : InputStep cfg s p (s.view (p, .input)) e v') :
    v'.flow = {} ∧ v'.suspended = none := by
  have hfl : s.flow (p, .input) = {} := h.view_notMem hp .input
  have hsus := h.not_suspended hp .input
  have herr : (s.pcb p).error = false := by rw [h.pcb p hp]
  have hin : ∀ {canif frame}, s.findPcb canif frame = some p → False := fun hf =>
    hp (List.mem_of_find?_eq_some hf)
  cases hs with
  -- no frame reaches it
  | sfMemory hf | sf hf | ffMemory hf | ffMemoryCallback hf | ff hf | ffCallback hf | cfWrong hf
  | cfLast hf | cf hf | block hf => exact (hin hf).elim
  | resumeFf hs' | resumeFfMemory hs' | resume hs' => exact absurd (h.suspended _ hs') hp
  | skip => exact ⟨hfl, hsus⟩
  | output _ _ hst | reject _ _ hst => simp [hfl] at hst
  | expire => refine fail_unused ?_ ?_ _ _ _ _ <;> assumption
  | confirm _ hw =>
    cases hw with
    | skip => exact ⟨hfl, hsus⟩
    | abort hst => simp [hfl] at hst
    | ready hst => simp [hfl] at hst
  | refuse => simp [hfl, herr, hsus]
  | release => exact absurd (he p rfl) hp
  | new => exact ⟨rfl, hsus⟩

namespace Unused

/-- The flows of unused pcbs, and who is suspended, after any step -/
theorem flows_step (h : Unused cfg s) (hs : Sound s) (hst : Node.step cfg s e = some s') :
    (∀ p d, p ∉ s.isotpPcbList → s'.flow (p, d) = {}) ∧
      ∀ f ∈ s'.suspended, f.flow.1 ∈ s.isotpPcbList := by
  have he := (step_eq_some.mp hst).1
  have hm := hs.moves hst
  -- nothing that happens moves a flow of a pcb outside the list
  have key : ∀ p d, p ∉ s.isotpPcbList →
      (s'.view (p, d)).flow = {} ∧ (s'.view (p, d)).suspended = none := by
    intro p d hp
    have hsame : (s.view (p, d)).flow = {} ∧ (s.view (p, d)).suspended = none := by
      refine ⟨h.view_notMem hp d, Option.filter_eq_none_iff.mpr fun f hf hk => hp ?_⟩
      have := h.suspended f hf
      rwa [of_decide_eq_true hk] at this
    cases d with
    | output =>
      rcases hm.output p with hv | hv
      · rw [hv]
        exact hsame
      · exact output_notMem h he hp hv
    | input =>
      rcases hm.input p with hv | hv
      · rw [hv]
        exact hsame
      · exact input_notMem h he hp hv
  refine ⟨fun p d hp => (key p d hp).1, fun f hf => ?_⟩
  by_contra hp
  have := (key f.flow.1 f.flow.2 hp).2
  rw [Option.mem_def] at hf
  simp [view, hf] at this

theorem step (h : Unused cfg s) (hs : Sound s) (hk : KeepsPcbs s e)
    (hst : Node.step cfg s e = some s') : Unused cfg s' := by
  obtain ⟨hfl, hsus⟩ := h.flows_step hs hst
  have hfl' : ∀ p d, p ∉ s.isotpPcbList → s'.flow (p, d) = s.flow (p, d) := fun p d hp => by
    rw [hfl p d hp, h.view_notMem hp d]
  obtain ⟨he, rfl⟩ := step_eq_some.mp hst
  by_cases hc : ∃ c, e = .call c
  · obtain ⟨c, rfl⟩ := hc
    -- a pcb that is written to is in use
    have hupd : ∀ q pcb, q ∈ s.isotpPcbList →
        ({ s with pcb := Function.update s.pcb q pcb } : Node) =
        s.call cfg c → Unused cfg (s.call cfg c) := by
      intro q pcb hq heq
      rw [← heq]
      refine ⟨h.chunk, h.marked, fun p hp => ?_, h.suspended⟩
      have hne : p ≠ q := fun e => hp (e ▸ hq)
      exact (Function.update_of_ne hne _ _).trans (h.pcb p hp)
    cases c with
    | isotpRemove pcb => exact hk.elim
    | isotpNew =>
      show Unused cfg (s.isotpNew cfg).2
      unfold isotpNew
      split
      · exact h
      · split
        · exact h
        · next p pool hm =>
          -- the pool hands out a chunk that was not marked
          obtain ⟨i, hi, rfl, rfl⟩ := Pool.malloc_some hm
          refine ⟨h.chunk, fun q hq => ?_, fun q hq => ?_, fun f hf =>
            List.mem_cons_of_mem _ (h.suspended f hf)⟩
          · rcases List.mem_cons.mp hq with rfl | hq
            · refine ⟨i, by rw [h.chunk], ?_⟩
              have hlt : i < s.isotpMemPool.service.length := (List.getElem?_eq_some_iff.mp hi).1
              simp [hlt]
            · obtain ⟨j, rfl, hj⟩ := h.marked q hq
              refine ⟨j, rfl, ?_⟩
              have hne : i ≠ j := fun e => by rw [e, hj] at hi; cases hi
              simp [hne, hj]
          · have hq' := not_or.mp (fun hh => hq (List.mem_cons.mpr hh))
            exact (Function.update_of_ne hq'.1 _ _).trans (h.pcb q hq'.2)
    | isotpBind pcb addr =>
      -- a call that is refused changes nothing
      by_cases hh : s.call cfg (.isotpBind pcb addr) = s
      · show Unused cfg (s.call cfg (.isotpBind pcb addr))
        rw [hh]
        exact h
      · unfold Node.call Node.isotpBind at hh
        simp only at hh
        split at hh
        · next p i tx rx =>
          refine hupd p { s.pcb p with ifIndex := i, txId := tx, rxId := rx } (he p rfl) ?_
          unfold Node.call Node.isotpBind
          split at hh
          · exact absurd rfl hh
          · next hi =>
            split at hh
            · exact absurd rfl hh
            · next hm => simp only [hi, hm, if_false]
        · exact absurd rfl hh
    | isotpSetCallbacks p receive receiveFf sent error =>
      exact hupd p _ he (call_isotpSetCallbacks ..).symm
    | isotpSetCallbackArg p arg => exact hupd p _ he rfl
    | isotpSend pcb data g =>
      exact h.of_sameSetup (Prims.refl.isotpSend pcb data g).sameSetup hfl' hsus
    | isotpReceived pcb buffer =>
      exact h.of_sameSetup (Prims.refl.isotpReceived pcb buffer).sameSetup hfl' hsus
    | canifAdd | canifRemove => exact ⟨h.chunk, h.marked, h.pcb, h.suspended⟩
    | lwcanTimeout | lwcanUntimeout => exact ⟨h.chunk, h.marked, h.pcb, h.suspended⟩
  · exact h.of_sameSetup (SameSetup.next s fun c hc' => hc ⟨c, hc'⟩) hfl' hsus

end Unused

/-- In a run that keeps its pcbs, `isotp_new` changes no flow's view. -/
theorem Unused.view_new (h : Unused cfg s) (hp : (s.isotpNew cfg).1 = some p) (d : Dir) :
    { s.view (p, d) with flow := {}, chain := [] } = s.view (p, d) := by
  have hfl := h.view_notMem (h.isotpNew_notMem hp) d
  unfold view
  rw [hfl]
  rfl

/-- What holds in every run that keeps its pcbs, with an invariant of the caller's -/
theorem kept_inv {J : Node → Prop} {C : Node → Event → Prop} (hJ : J (lwcanInit cfg))
    (hstep : ∀ {s e t}, Sound s → Unused cfg s → C s e → J s → Node.step cfg s e = some t → J t)
    (hr : Run cfg es s) (hk : RunAlong cfg KeepsPcbs es) (hC : RunAlong cfg C es) :
    (Sound s ∧ Unused cfg s) ∧ J s :=
  Runs.run_inv (I := fun s => (Sound s ∧ Unused cfg s) ∧ J s)
    (fun _ _ _ hs hc ht =>
      ⟨⟨hs.1.1.step ht, hs.1.2.step hs.1.1 hc.1 ht⟩, hstep hs.1.1 hs.1.2 hc.2 hs.2 ht⟩)
    ⟨⟨Sound.initial cfg, Unused.initial cfg⟩, hJ⟩ (hk.and hC) hr

/-- A step of a node that keeps its pcbs, as one flow sees it: nothing, or a transition that is not
`isotp_new`. -/
theorem output_moves (hs : Sound s) (hu : Unused cfg s) (hst : Node.step cfg s e = some s')
    (p : Nat) : s'.view (p, .output) = s.view (p, .output) ∨
      e ≠ .call .isotpNew ∧ OutputStep cfg s p (s.view (p, .output)) e (s'.view (p, .output)) := by
  rcases (hs.moves hst).output p with he | hm
  · exact Or.inl he
  · by_cases hn : e = .call .isotpNew
    · refine Or.inl ?_
      generalize s'.view (p, .output) = v' at hm ⊢
      cases hm <;> cases hn
      next hp => exact hu.view_new hp .output
    · exact Or.inr ⟨hn, hm⟩

theorem input_moves (hs : Sound s) (hu : Unused cfg s) (hst : Node.step cfg s e = some s')
    (p : Nat) : s'.view (p, .input) = s.view (p, .input) ∨
      e ≠ .call .isotpNew ∧ InputStep cfg s p (s.view (p, .input)) e (s'.view (p, .input)) := by
  rcases (hs.moves hst).input p with he | hm
  · exact Or.inl he
  · by_cases hn : e = .call .isotpNew
    · refine Or.inl ?_
      generalize s'.view (p, .input) = v' at hm ⊢
      cases hm <;> cases hn
      next hp => exact hu.view_new hp .input
    · exact Or.inr ⟨hn, hm⟩

/-- **An invariant of an output flow**, in runs that keep their pcbs -/
theorem output_inv {I : View → Prop} {C : Node → Event → Prop} (p : Nat) (hI : I View.initial)
    (hstep : ∀ {s e v'}, Sound s → s.Enabled e → C s e → e ≠ .call .isotpNew →
      I (s.view (p, .output)) → OutputStep cfg s p (s.view (p, .output)) e v' → I v')
    (hr : Run cfg es s) (hk : RunAlong cfg KeepsPcbs es) (hC : RunAlong cfg C es) :
    I (s.view (p, .output)) := by
  refine (kept_inv (J := fun s => I (s.view (p, .output))) (by rwa [view_lwcanInit])
    (fun hs hu hc hi ht => ?_) hr hk hC).2
  rcases output_moves hs hu ht p with he | ⟨hn, hm⟩
  · rwa [he]
  · exact hstep hs (step_eq_some.mp ht).1 hc hn hi hm

/-- **An invariant of an input flow**, in runs that keep their pcbs -/
theorem input_inv {I : View → Prop} {C : Node → Event → Prop} (p : Nat) (hI : I View.initial)
    (hstep : ∀ {s e v'}, Sound s → s.Enabled e → C s e → e ≠ .call .isotpNew →
      I (s.view (p, .input)) → InputStep cfg s p (s.view (p, .input)) e v' → I v')
    (hr : Run cfg es s) (hk : RunAlong cfg KeepsPcbs es) (hC : RunAlong cfg C es) :
    I (s.view (p, .input)) := by
  refine (kept_inv (J := fun s => I (s.view (p, .input))) (by rwa [view_lwcanInit])
    (fun hs hu hc hi ht => ?_) hr hk hC).2
  rcases input_moves hs hu ht p with he | ⟨hn, hm⟩
  · rwa [he]
  · exact hstep hs (step_eq_some.mp ht).1 hc hn hi hm

/-- What holds in every run that keeps its pcbs -/
theorem kept_run (hr : Run cfg es s) (hk : RunAlong cfg KeepsPcbs es) : Sound s ∧ Unused cfg s :=
  (kept_inv (J := fun _ => True) trivial (fun _ _ _ _ _ => trivial) hr hk hk).1

end Node
end Lwcan
