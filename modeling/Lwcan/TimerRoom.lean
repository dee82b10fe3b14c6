import Mathlib.Data.List.Nodup
import Mathlib.Data.List.Perm.Subperm
import Lwcan.TimerMoves
import Lwcan.Wakeup

/-!
# How many timeouts a node needs

`lwcan_timeout` does nothing when every chunk of its pool is in use, and a flow that does not get
its timeout is stuck. How many chunks are enough? A flow has one entry at most, and none when it
arms one, so two chunks for each connection will do, and one for each timeout that the application
has pending at a time.

* `Timeouts.Tidy.slotFree_of_lt` — fewer entries than chunks leave a chunk free;
* `Roomy` — every entry is the application's or that of a flow in use, and the application keeps its
  bound;
* `Roomy.slotFree` — so a flow that has no entry finds a chunk;
* `sized_pool_suffices` — no timeout of the library is ever refused, and no flow gets stuck.
-/

namespace Lwcan

namespace Timeouts

/-- **Fewer entries than chunks** leave a chunk free. -/
theorem Tidy.slotFree_of_lt {t : Timeouts Handler Ptr} (ht : t.Tidy)
    (hlt : t.nextTimeout.length < t.room) : t.slotFree := by
  by_contra hfull
  have hall : ∀ b ∈ t.timeoutMemPool.service, b = true := by
    intro b hb
    have hnone : t.timeoutMemPool.service.any (! ·) = false := Bool.not_eq_true _ ▸ hfull
    simpa using List.any_eq_false.mp hnone b hb
  -- each chunk is that of an entry, and no two chunks have one address
  have hnd : ((List.range t.room).map (· * t.timeoutMemPool.chunk)).Nodup := by
    refine List.Nodup.map (fun i j hij => ?_) List.nodup_range
    exact Nat.eq_of_mul_eq_mul_right ht.slots.pos hij
  have hsub : (List.range t.room).map (· * t.timeoutMemPool.chunk) ⊆
      t.nextTimeout.map Timeout.mem := by
    intro a ha
    obtain ⟨i, hi, rfl⟩ := List.mem_map.mp ha
    have hi' : i < t.timeoutMemPool.service.length := List.mem_range.mp hi
    obtain ⟨e, he, hmem⟩ := ht.marks i
      (by rw [List.getElem?_eq_getElem hi', hall _ (List.getElem_mem hi')])
    exact List.mem_map.mpr ⟨e, he, hmem⟩
  have hle := (List.subperm_of_subset hnd hsub).length_le
  rw [List.length_map, List.length_map, List.length_range] at hle
  exact absurd hlt (not_lt.mpr hle)

/-- The entries of a flow are those of its two handlers. -/
theorem length_entries (t : Timeouts Handler Ptr) (k : FlowId) :
    (t.entries k).length =
      t.pending (outputHandler k.2) (.pcb k.1) + t.pending (errorHandler k.2) (.pcb k.1) := by
  rw [pending_eq_count (Or.inl rfl), pending_eq_count (Or.inr rfl),
    List.length_eq_countP_add_countP (fun x => decide (x.2 = outputHandler k.2))]
  congr 1
  -- an entry of the flow that does not belong to the one handler belongs to the other
  apply List.countP_congr
  intro x hx
  unfold entries at hx
  obtain ⟨e, he, rfl⟩ := List.mem_map.mp hx
  have hk := (armsFor_iff.mp (List.mem_filter.mp he).2).2
  constructor
  · intro hne
    simpa using hk.resolve_left (by simpa using hne)
  · intro heq
    have heq' : e.handler = errorHandler k.2 := by simpa using heq
    simpa [heq'] using (outputHandler_ne_errorHandler k.2 k.2).symm

end Timeouts

namespace Node

variable {cfg : Config} {s s' : Node} {k : FlowId} {p n : Nat} {e : Event} {es : List Event}

/-- How many timeouts of the application are pending -/
def userTimers (s : Node) : Nat := s.timeouts.nextTimeout.countP (·.handler.isUser)

/-- **The application has at most `n` timeouts pending.** -/
def UserTimers (n : Nat) (s : Node) : Event → Prop
  | .call (.lwcanTimeout _ _ _) => s.userTimers < n
  | _ => True

/-- **The interfaces stay registered**: that of a pcb is there when a frame of the pcb is due. -/
def InterfacesUp (s : Node) : Event → Prop
  | .timer _ _ => ∀ p ∈ s.dueOutput, s.canif p ≠ none
  | _ => True

instance (n : Nat) (s : Node) : (e : Event) → Decidable (s.UserTimers n e)
  | .call (.lwcanTimeout _ _ _) => inferInstanceAs (Decidable (_ < _))
  | .call .isotpNew | .call (.isotpBind _ _) | .call (.isotpRemove _)
  | .call (.isotpSetCallbacks _ _ _ _ _) | .call (.isotpSetCallbackArg _ _) | .call
      (.isotpSend _ _ _)
  | .call (.isotpReceived _ _) | .call (.canifAdd _ _ _) | .call (.canifRemove _)
  | .call (.lwcanUntimeout _ _) | .input _ _ _ | .timer _ _ | .sent _ _ | .resume | .tick _ =>
    inferInstanceAs (Decidable True)

instance (s : Node) : (e : Event) → Decidable (s.InterfacesUp e)
  | .timer _ _ => inferInstanceAs (Decidable (∀ p ∈ s.dueOutput, s.canif p ≠ none))
  | .call _ | .input _ _ _ | .sent _ _ | .resume | .tick _ => inferInstanceAs (Decidable True)

/-! ### The pcbs in use -/

/-- The list of pcbs has no pcb twice, and no more than there are chunks. -/
structure PcbsOk (cfg : Config) (s : Node) : Prop where
  nodup : s.isotpPcbList.Nodup
  chunks : s.isotpMemPool.service.length = cfg.isotpMaxPcbNum

/-- There are no more pcbs than chunks for them. -/
theorem PcbsOk.length_le (h : PcbsOk cfg s) (hu : Unused cfg s) :
    s.isotpPcbList.length ≤ cfg.isotpMaxPcbNum := by
  have hsub : s.isotpPcbList ⊆ (List.range cfg.isotpMaxPcbNum).map (· * cfg.isotpPcbSize) := by
    intro p hp
    obtain ⟨i, rfl, hi⟩ := hu.marked p hp
    refine List.mem_map.mpr ⟨i, List.mem_range.mpr ?_, rfl⟩
    rw [← h.chunks]
    exact (List.getElem?_eq_some_iff.mp hi).1
  have hle := (List.subperm_of_subset h.nodup hsub).length_le
  rwa [List.length_map, List.length_range] at hle

theorem PcbsOk.step (h : PcbsOk cfg s) (hu : Unused cfg s) (hk : KeepsPcbs s e)
    (hst : Node.step cfg s e = some s') : PcbsOk cfg s' := by
  have hsame : ∀ t : Node, t.isotpPcbList = s.isotpPcbList → t.isotpMemPool = s.isotpMemPool →
      PcbsOk cfg t := by
    intro t hl hp
    exact ⟨hl ▸ h.nodup, hp ▸ h.chunks⟩
  by_cases hc : ∃ c, e = .call c
  · obtain ⟨c, rfl⟩ := hc
    obtain ⟨-, rfl⟩ := step_eq_some.mp hst
    cases c with
    | isotpNew =>
      show PcbsOk cfg (s.isotpNew cfg).2
      -- the chunk that is handed out is no pcb of the list
      have hfresh := fun p hp => hu.isotpNew_notMem (p := p) hp
      unfold isotpNew at hfresh ⊢
      split
      · exact h
      · next hnum =>
        split
        · exact h
        · next p pool hm =>
          obtain ⟨i, -, -, rfl⟩ := Pool.malloc_some hm
          refine ⟨List.nodup_cons.mpr ⟨hfresh p (by simp [hnum, hm]), h.nodup⟩, ?_⟩
          exact (List.length_set ..).trans h.chunks
    | isotpBind pcb addr =>
      show PcbsOk cfg (s.isotpBind pcb addr).2
      unfold isotpBind
      split
      · split
        · exact h
        · split
          · exact h
          · exact hsame _ rfl rfl
      · exact h
    | isotpRemove => exact hk.elim
    | isotpSetCallbacks | isotpSetCallbackArg | canifAdd | canifRemove | lwcanTimeout
    | lwcanUntimeout => exact hsame _ rfl rfl
    | isotpSend pcb data g =>
      have hss : SameSetup s (s.isotpSend cfg pcb data g).2 :=
        (Prims.refl.isotpSend pcb data g).sameSetup
      exact hsame _ hss.list hss.pool
    | isotpReceived pcb buffer =>
      have hss : SameSetup s (s.isotpReceived pcb buffer).2 :=
        (Prims.refl.isotpReceived pcb buffer).sameSetup
      exact hsame _ hss.list hss.pool
  · have hss := SameSetup.step hst fun c hc' => hc ⟨c, hc'⟩
    exact hsame _ hss.list hss.pool

/-! ### The entries of the timer list -/

/-- **The timer list within its bounds** -/
structure Roomy (cfg : Config) (n : Nat) (s : Node) : Prop extends Settled cfg s where
  pcbs : PcbsOk cfg s
  tidy : s.timeouts.Tidy
  room : s.timeouts.room = cfg.timeoutsNum
  owner : ∀ x ∈ s.timeouts.nextTimeout, x.handler.isUser ∨ ∃ k, x.ofFlow k
  users : s.userTimers ≤ n

namespace Roomy

theorem initial (cfg : Config) (n : Nat) : Roomy cfg n (lwcanInit cfg) where
  toSettled := Settled.initial cfg
  pcbs := ⟨List.nodup_nil, List.length_replicate⟩
  tidy := Timeouts.Tidy.initial cfg
  room := List.length_replicate
  owner := nofun
  users := Nat.zero_le n

theorem step (h : Roomy cfg n s) (ho : Orderly s e) (hu : UserTimers n s e)
    (hst : Node.step cfg s e = some s') : Roomy cfg n s' where
  toSettled := h.toSettled.step ho hst
  pcbs := h.pcbs.step h.unused ho.1 hst
  tidy := timeouts_step (fun _ _ _ a ht => ht.lwcanTimeout a) (fun _ a ht => ht.lwcanUntimeout a)
    (fun ht he => ht.expire he) h.tidy hst
  room := timeouts_step (I := fun t => t.room = cfg.timeoutsNum)
    (fun _ _ _ a ht => (Timeouts.room_lwcanTimeout a).trans ht)
    (fun _ a ht => (Timeouts.room_lwcanUntimeout a).trans ht)
    (fun ht he => (Timeouts.room_expire he).trans ht) h.room hst
  owner x hx := by
    rcases mem_timeouts_step hst hx with hold | huser | ⟨k, m, ha, harg, -⟩
    · exact h.owner x hold
    · exact Or.inl huser
    · exact Or.inr ⟨k, armsFor_iff.mpr ⟨harg, ha.imp id And.left⟩⟩
  users := by
    -- only the application's own call arms an entry of the application
    by_cases hn : ∃ m q a, e = .call (.lwcanTimeout m q a)
    · obtain ⟨m, q, a, rfl⟩ := hn
      obtain ⟨-, rfl⟩ := step_eq_some.mp hst
      change s.userTimers < n at hu
      show (s.timeouts.lwcanTimeout s.now m (.user q) a).nextTimeout.countP _ ≤ n
      rcases Timeouts.lwcanTimeout_cases s.timeouts s.now m (.user q) a with
        ⟨-, he⟩ | ⟨mem, pool, -, -, he⟩
      · rw [he]
        exact h.users
      · rw [he, (Timeouts.insert_perm _ _).countP_eq, List.countP_cons_of_pos rfl]
        exact hu
    · exact (timerStep hst fun m q a he => hn ⟨m, q, a, he⟩).users_le.trans h.users

/-- A flow has one entry at most. -/
theorem entries_le (h : Roomy cfg n s) (k : FlowId) : (s.timeouts.entries k).length ≤ 1 := by
  rw [Timeouts.length_entries]
  have hp := (h.pending k).pending
  change Pending (s.flow k).state (s.timeouts.pending (outputHandler k.2) (.pcb k.1))
    (s.timeouts.pending (errorHandler k.2) (.pcb k.1)) (s.confirms.count k) at hp
  cases hst : (s.flow k).state <;> rw [hst] at hp <;> simp only [Pending] at hp <;> omega

/-- A flow that has an entry is one of a pcb in use. -/
theorem mem_of_ofFlow (h : Roomy cfg n s) {x : Timeout Handler Ptr}
    (hx : x ∈ s.timeouts.nextTimeout) (hk : x.ofFlow k) : k.1 ∈ s.isotpPcbList := by
  apply h.mem_of_ne_idle
  intro hidle
  obtain ⟨htx, herr, -⟩ := (h.pending k).of_idle hidle
  have hnil := Timeouts.entries_eq_nil.mpr ⟨htx, herr⟩
  unfold Timeouts.entries at hnil
  rw [List.map_eq_nil_iff, List.filter_eq_nil_iff] at hnil
  exact hnil x hx hk

/-- The flows of the pcbs in use -/
def flows (s : Node) : List FlowId :=
  s.isotpPcbList.flatMap fun p => [(p, .output), (p, .input)]

theorem length_flows (s : Node) : (flows s).length = 2 * s.isotpPcbList.length := by
  unfold flows
  induction s.isotpPcbList with
  | nil => rfl
  | cons p ps ih =>
    rw [List.flatMap_cons, List.length_append, ih, List.length_cons, List.length_cons,
      List.length_cons, List.length_nil]
    ring

theorem mem_flows (hk : k.1 ∈ s.isotpPcbList) : k ∈ flows s := by
  obtain ⟨p, d⟩ := k
  refine List.mem_flatMap.mpr ⟨p, hk, ?_⟩
  cases d <;> simp

/-- The flows that have an entry, one for each entry -/
def busy (s : Node) : List FlowId := s.timeouts.nextTimeout.filterMap Timeout.flow

theorem count_busy_le (s : Node) (k : FlowId) : (busy s).count k ≤
    (s.timeouts.entries k).length := by
  unfold busy Timeouts.entries
  rw [List.length_map, ← List.countP_eq_length_filter, List.count, List.countP_filterMap]
  refine List.countP_mono_left fun x _ hx => ?_
  cases hi : x.flow with
  | none => simp [hi] at hx
  | some i =>
    obtain rfl : i = k := by simpa [hi] using hx
    exact Timeout.ofFlow_of_flow hi

/-- No flow has two entries. -/
theorem nodup_busy (h : Roomy cfg n s) : (busy s).Nodup :=
  List.nodup_iff_count_le_one.mpr fun k => (count_busy_le s k).trans (h.entries_le k)

/-- Only flows of pcbs in use have entries. -/
theorem busy_subset (h : Roomy cfg n s) : busy s ⊆ flows s := by
  intro k hk
  obtain ⟨x, hx, hxk⟩ := List.mem_filterMap.mp hk
  exact mem_flows (h.mem_of_ofFlow hx (Timeout.ofFlow_of_flow hxk))

/-- An entry that is not the application's is that of a flow. -/
theorem length_le_busy (h : Roomy cfg n s) :
    s.timeouts.nextTimeout.length ≤ s.userTimers + (busy s).length := by
  rw [List.length_eq_countP_add_countP (fun x : Timeout Handler Ptr => x.handler.isUser)]
  refine Nat.add_le_add_left ?_ _
  unfold busy
  rw [List.length_filterMap_eq_countP]
  refine List.countP_mono_left fun x hx hnu => ?_
  obtain ⟨k, hk⟩ := (h.owner x hx).resolve_left (by simpa using hnu)
  rw [Timeout.flow_of_ofFlow hk]
  rfl

/-- **A flow without an entry** finds a chunk. -/
theorem slotFree (h : Roomy cfg n s) (hroom : n + 2 * cfg.isotpMaxPcbNum ≤ cfg.timeoutsNum)
    (hk : k.1 ∈ s.isotpPcbList) (hnil : s.timeouts.entries k = []) : s.timeouts.slotFree := by
  apply h.tidy.slotFree_of_lt
  -- the flows that have an entry are others
  have hother : busy s ⊆ (flows s).erase k := by
    intro j hj
    have hne : j ≠ k := by
      rintro rfl
      have hzero := count_busy_le s j
      rw [hnil, List.length_nil] at hzero
      exact absurd (List.count_pos_iff.mpr hj) (not_lt.mpr hzero)
    exact (List.mem_erase_of_ne hne).mpr (h.busy_subset hj)
  have hbusy := (List.subperm_of_subset h.nodup_busy hother).length_le
  rw [List.length_erase_of_mem (mem_flows hk), length_flows] at hbusy
  have hpos : 0 < s.isotpPcbList.length := List.length_pos_of_mem hk
  calc s.timeouts.nextTimeout.length ≤ s.userTimers + (busy s).length := h.length_le_busy
    _ ≤ n + (2 * s.isotpPcbList.length - 1) := Nat.add_le_add h.users hbusy
    _ < n + 2 * s.isotpPcbList.length := by omega
    _ ≤ n + 2 * cfg.isotpMaxPcbNum :=
      Nat.add_le_add_left (Nat.mul_le_mul_left 2 (h.pcbs.length_le h.unused)) n
    _ ≤ s.timeouts.room := h.room ▸ hroom

/-- There are no more entries than the application and the connections may have. -/
theorem length_le (h : Roomy cfg n s) : s.timeouts.nextTimeout.length ≤ n + 2 *
    cfg.isotpMaxPcbNum := by
  calc s.timeouts.nextTimeout.length ≤ s.userTimers + (busy s).length := h.length_le_busy
    _ ≤ n + 2 * s.isotpPcbList.length := Nat.add_le_add h.users ?_
    _ ≤ n + 2 * cfg.isotpMaxPcbNum :=
      Nat.add_le_add_left (Nat.mul_le_mul_left 2 (h.pcbs.length_le h.unused)) n
  rw [← length_flows]
  exact (List.subperm_of_subset h.nodup_busy h.busy_subset).length_le

/-- An idle flow has no entry. -/
theorem entries_of_idle (h : Roomy cfg n s) (hst : (s.flow k).state = .idle) :
    s.timeouts.entries k = [] := by
  obtain ⟨htx, herr, -⟩ := (h.pending k).of_idle hst
  exact Timeouts.entries_eq_nil.mpr ⟨htx, herr⟩

/-- A flow whose frame a driver has has no entry. -/
theorem entries_of_confirms (h : Roomy cfg n s) (hk : k ∈ s.confirms) :
    s.timeouts.entries k = [] := by
  obtain ⟨-, htx, herr, -⟩ := (h.pending k).of_confirms_pos (List.count_pos_iff.mpr hk)
  exact Timeouts.entries_eq_nil.mpr ⟨htx, herr⟩

/-- **A chunk is free** whenever a flow arms an entry that replaces none. -/
theorem wakeSafe (h : Roomy cfg n s) (hroom : n + 2 * cfg.isotpMaxPcbNum ≤ cfg.timeoutsNum)
    (he : s.Enabled e) (hc : ConfirmsAccepted s e) (hi : InterfacesUp s e) : WakeSafe cfg s e := by
  -- a flow that arms an entry is idle or has a frame on the bus, and has no entry of its own then
  cases e with
  | call c =>
    cases c with
    | isotpSend pcb data g =>
      cases pcb with
      | none => trivial
      | some p =>
        cases data with
        | none => trivial
        | some d =>
          intro _ hst _
          exact h.slotFree hroom (k := (p, .output)) (he.1 p rfl) (h.entries_of_idle hst)
    | _ => trivial
  | input canif frame g =>
    intro p hp harm
    have hst : (s.flow (p, .input)).state = .idle := by
      unfold armsFc at harm
      simp only [Bool.and_eq_true, decide_eq_true_eq] at harm
      exact harm.1.2
    exact h.slotFree hroom (k := (p, .input)) (List.mem_of_find?_eq_some hp) (h.entries_of_idle hst)
  | timer frame ret => exact hi
  | sent k err =>
    cases err with
    | ok =>
      intro hnext
      have hst : (s.flow k).state ≠ .idle := by
        intro hidle
        rw [armsNext_of_idle hidle] at hnext
        cases hnext
      exact h.slotFree hroom (h.mem_of_ne_idle hst) (h.entries_of_confirms hc)
    | _ => trivial
  | resume =>
    intro _
    obtain ⟨f, hf⟩ := Option.isSome_iff_exists.mp he
    have hst := (h.pending f.flow).idle_of_suspended hf rfl
    exact h.slotFree hroom (h.unused.suspended f hf) (h.entries_of_idle hst)
  | tick ms => trivial

end Roomy

/-! ### Every run -/

/-- A flow that is not idle has one wake-up pending, if no wake-up gets lost. -/
theorem wakeups_of_wakeSafe (hr : Run cfg es s) (ho : RunAlong cfg Orderly es)
    (hw : RunAlong cfg (WakeSafe cfg) es) (hst : (s.flow k).state ≠ .idle) : s.wakeups k = 1 := by
  have hk : RunAlong cfg KeepsPcbs es := ho.mono fun _ _ h => h.1
  have hc : RunAlong cfg ConfirmsAccepted es := ho.mono fun _ _ h => h.2.1
  have hso : RunAlong cfg SendsOutside es := ho.mono fun _ _ h => h.2.2
  obtain ⟨p, d⟩ := k
  -- for either direction by the invariant that a flow under way has one wakeup
  cases d with
  | output =>
    have h := output_inv_confirmed p Awake.initial
      (fun hs hn hc _ hw ha h hst => Awake.output_step hs hn hc hw ha h hst) hr hk hc hso hw
    exact wakeups_eq_one h.1 h.2 hst
  | input =>
    have h := input_inv_confirmed p Awake.initial
      (fun hs _ hn hc hw ha h hst => Awake.input_step hs hn hc hw ha h hst) hr hk hc hw
    exact wakeups_eq_one h.1 h.2 hst

/-- **Two chunks for each connection are enough.** With `LWCAN_TIMEOUTS_NUM` at least `2 *
ISOTP_MAX_PCB_NUM` and `n`, an application that never has more than `n` timeouts of its own pending
leaves a chunk to the library whenever it needs one; so no flow gets stuck, as long as the
interfaces stay registered. -/
theorem sized_pool_suffices (hroom : n + 2 * cfg.isotpMaxPcbNum ≤ cfg.timeoutsNum)
    (hr : Run cfg es s) (ho : RunAlong cfg Orderly es) (hu : RunAlong cfg (UserTimers n) es)
    (hi : RunAlong cfg InterfacesUp es) :
    RunAlong cfg (WakeSafe cfg) es ∧ s.timeouts.nextTimeout.length ≤ n + 2 * cfg.isotpMaxPcbNum ∧
      ∀ k, (s.flow k).state ≠ .idle → s.wakeups k = 1 := by
  have hstep : ∀ s e t, Roomy cfg n s → (Orderly s e ∧ UserTimers n s e) → step cfg s e = some t →
      Roomy cfg n t := fun s e t h hC ht => h.step hC.1 hC.2 ht
  have hroomy := Runs.along_inv hstep (Roomy.initial cfg n) (ho.and hu)
  -- the invariant finds a chunk wherever one is needed
  have hsafe : RunAlong cfg (WakeSafe cfg) es := by
    refine (hroomy.and ((Runs.along_enabled hr).and (ho.and hi))).mono ?_
    rintro s e ⟨h, ⟨t, ht⟩, ho, hi⟩
    exact h.wakeSafe hroom (step_eq_some.mp ht).1 ho.2.1 hi
  have hend := Runs.run_inv hstep (Roomy.initial cfg n) (ho.and hu) hr
  exact ⟨hsafe, hend.length_le, fun k hst => wakeups_of_wakeSafe hr ho hsafe hst⟩

/-- Two connections and ten chunks: six timeouts are left to the application. -/
theorem sized_pool_suffices_default : ∃ s, Run {} (connected ++
    [.call (.lwcanTimeout 20 0 .null),
      .call (.isotpSend (some 0) (some [0x3E]) ⟨some 1, some 2, fun _ => 0⟩)]) s ∧
      s.wakeups (0, .output) = 1 := by
  obtain ⟨s, hr, hst⟩ := exists_run {} (connected ++
    [.call (.lwcanTimeout 20 0 .null),
      .call (.isotpSend (some 0) (some [0x3E]) ⟨some 1, some 2, fun _ => 0⟩)])
    (fun s => (s.flow (0, .output)).state ≠ .idle) (by decide)
  exact ⟨s, hr, (sized_pool_suffices (n := 6) (by decide) hr (by decide) (by decide)
    (by decide)).2.2 _ hst⟩

end Node
end Lwcan
