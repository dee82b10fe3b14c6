import Lwcan.PoolRuns
import Lwcan.TimerOrder
import Lwcan.View

/-!
# The timers of one flow

All flows arm their timeouts in one list, whose entries lie in the chunks of one pool. An entry
belongs to the flow whose handler and pcb it names. Arming and cancelling change the entries of the
flow they are called for, and of no other; the order in which a flow's own entries stand does not
depend on the others as long as it has no more than one.

* `Timeouts.entries` — the pending entries of a flow, and what the operations make of them;
* `Timeouts.Tidy` — every chunk in use is that of a pending entry, so an empty list leaves every
  chunk free.
-/

namespace Lwcan

/-- An entry with this handler and argument belongs to the flow. -/
def armsFor (k : FlowId) (h : Handler) (a : Ptr) : Bool :=
  a = .pcb k.1 && (h = outputHandler k.2 || h = errorHandler k.2)

theorem armsFor_iff {k : FlowId} {h : Handler} {a : Ptr} :
    armsFor k h a ↔ a = .pcb k.1 ∧ (h = outputHandler k.2 ∨ h = errorHandler k.2) := by
  simp [armsFor]

/-- An entry belongs to one flow at most. -/
theorem armsFor_inj {k j : FlowId} {h : Handler} {a : Ptr} (hk : armsFor k h a)
    (hj : armsFor j h a) : k = j := by
  obtain ⟨hka, hkh⟩ := armsFor_iff.mp hk
  obtain ⟨hja, hjh⟩ := armsFor_iff.mp hj
  refine Prod.ext (Ptr.pcb.inj (hka.symm.trans hja)) ?_
  rcases hkh with hkh | hkh
  · rcases hjh with hjh | hjh
    · exact outputHandler_inj (hkh.symm.trans hjh)
    · exact absurd (hkh.symm.trans hjh) (outputHandler_ne_errorHandler _ _)
  · rcases hjh with hjh | hjh
    · exact absurd (hjh.symm.trans hkh) (outputHandler_ne_errorHandler _ _)
    · exact errorHandler_inj (hkh.symm.trans hjh)

theorem armsFor_output (k : FlowId) : armsFor k (outputHandler k.2) (.pcb k.1) :=
  armsFor_iff.mpr ⟨rfl, Or.inl rfl⟩

theorem armsFor_error (k : FlowId) : armsFor k (errorHandler k.2) (.pcb k.1) :=
  armsFor_iff.mpr ⟨rfl, Or.inr rfl⟩

/-- What another flow arms does not belong to this one. -/
theorem armsFor_other {k j : FlowId} {h : Handler} {a : Ptr} (hj : armsFor j h a) (hne : k ≠ j) :
    armsFor k h a = false := by
  by_contra hk
  exact hne (armsFor_inj (by simpa using hk) hj)

/-- The entry belongs to the flow. -/
def Timeout.ofFlow (k : FlowId) (e : Timeout Handler Ptr) : Bool := armsFor k e.handler e.arg

namespace Timeouts

/-! ### The entries of a flow -/

/-- The pending entries of a flow: when they are due, and their handlers. -/
def entries (t : Timeouts Handler Ptr) (k : FlowId) : List (Nat × Handler) :=
  (t.nextTimeout.filter (Timeout.ofFlow k)).map fun e => (e.time, e.handler)

variable {t t' : Timeouts Handler Ptr} {k j : FlowId} {now n : Nat} {h : Handler}
  {e : Timeout Handler Ptr}

/-- The flow has armed nothing that is pending. -/
theorem entries_eq_nil : t.entries k = [] ↔
    t.pending (outputHandler k.2) (.pcb k.1) = 0 ∧ t.pending (errorHandler k.2) (.pcb k.1) = 0 := by
  -- an entry of the flow is one of its two handlers, with its pcb
  unfold entries pending
  rw [List.map_eq_nil_iff, List.filter_eq_nil_iff, List.countP_eq_zero, List.countP_eq_zero]
  constructor
  · intro hall
    constructor
    · intro e he hm
      simp only [Timeout.matches, Bool.and_eq_true, decide_eq_true_eq] at hm
      exact hall e he (armsFor_iff.mpr ⟨hm.2, Or.inl hm.1⟩)
    · intro e he hm
      simp only [Timeout.matches, Bool.and_eq_true, decide_eq_true_eq] at hm
      exact hall e he (armsFor_iff.mpr ⟨hm.2, Or.inr hm.1⟩)
  · rintro ⟨hout, herr⟩ e he hk
    obtain ⟨ha, hh | hh⟩ := armsFor_iff.mp hk
    · exact hout e he (by simp [Timeout.matches, ha, hh])
    · exact herr e he (by simp [Timeout.matches, ha, hh])

/-- The entries of a handler are counted among those of the flow. -/
theorem pending_eq_count (hh : h = outputHandler k.2 ∨ h = errorHandler k.2) :
    t.pending h (.pcb k.1) = (t.entries k).countP (·.2 = h) := by
  unfold pending entries
  rw [List.countP_map, List.countP_filter]
  apply List.countP_congr
  intro e _
  simp only [Timeout.matches, Bool.and_eq_true, decide_eq_true_eq, Function.comp_apply]
  constructor
  · rintro ⟨rfl, ha⟩
    exact ⟨rfl, armsFor_iff.mpr ⟨ha, hh⟩⟩
  · rintro ⟨rfl, hk⟩
    exact ⟨rfl, (armsFor_iff.mp hk).1⟩

/-- **Arming** for another flow -/
theorem entries_lwcanTimeout_other {a : Ptr} (hk : armsFor k h a = false) :
    (t.lwcanTimeout now n h a).entries k = t.entries k := by
  rcases lwcanTimeout_cases t now n h a with ⟨-, he⟩ | ⟨mem, pool, -, -, he⟩
  · rw [he]
  · rw [he]
    unfold entries
    have hnew : ¬Timeout.ofFlow k ⟨u32 ((now : Int) + n), h, a, mem, t.armed⟩ := by
      simpa [Timeout.ofFlow] using hk
    rw [insert_eq, List.filter_append, List.filter_cons_of_neg hnew, ← List.filter_append,
      List.takeWhile_append_dropWhile]

/-- **Arming** the one entry of a flow -/
theorem entries_lwcanTimeout_self {a : Ptr} (hs : t.slotFree) (he : t.entries k = [])
    (hk : armsFor k h a) :
    (t.lwcanTimeout now n h a).entries k = [(u32 ((now : Int) + n), h)] := by
  rcases lwcanTimeout_cases t now n h a with ⟨hs', -⟩ | ⟨mem, pool, -, -, heq⟩
  · rw [hs] at hs'
    cases hs'
  · rw [heq]
    have hmine : Timeout.ofFlow k ⟨u32 ((now : Int) + n), h, a, mem, t.armed⟩ := hk
    have hperm := ((insert_perm ⟨u32 ((now : Int) + n), h, a, mem, t.armed⟩ t.nextTimeout).filter
      (Timeout.ofFlow k)).map fun e => (e.time, e.handler)
    unfold entries at he ⊢
    rw [List.filter_cons_of_pos hmine, List.map_cons, he] at hperm
    exact hperm.eq_singleton

/-- **Cancelling** for another flow -/
theorem entries_lwcanUntimeout_other {a : Ptr} (hk : armsFor k h a = false) :
    (t.lwcanUntimeout h a).entries k = t.entries k := by
  unfold entries
  rw [nextTimeout_lwcanUntimeout]
  congr 1
  induction t.nextTimeout with
  | nil => rfl
  | cons e ts ih =>
    by_cases hm : Timeout.matches h a e
    · -- the entry that is cancelled is not the flow's
      have hne : ¬Timeout.ofFlow k e := by
        simp only [Timeout.matches, Bool.and_eq_true, decide_eq_true_eq] at hm
        rw [Timeout.ofFlow, hm.1, hm.2, hk]
        simp
      rw [List.eraseP_cons_of_pos hm, List.filter_cons_of_neg hne]
    · rw [List.eraseP_cons_of_neg (by simpa using hm), List.filter_cons, List.filter_cons, ih]

/-- **Cancelling** for the flow itself -/
theorem entries_lwcanUntimeout_self {a : Ptr} (hk : armsFor k h a) :
    (t.lwcanUntimeout h a).entries k = (t.entries k).eraseP (·.2 = h) := by
  obtain ⟨rfl, hh⟩ := armsFor_iff.mp hk
  unfold entries
  rw [nextTimeout_lwcanUntimeout]
  induction t.nextTimeout with
  | nil => rfl
  | cons e ts ih =>
    -- the entry that is cancelled is the first that matches, in both lists
    by_cases hm : Timeout.matches h (.pcb k.1) e
    · have hmine : Timeout.ofFlow k e := by
        simp only [Timeout.matches, Bool.and_eq_true, decide_eq_true_eq] at hm
        rw [Timeout.ofFlow, hm.1, hm.2]
        exact hk
      have heh : e.handler = h := by
        simp only [Timeout.matches, Bool.and_eq_true, decide_eq_true_eq] at hm
        exact hm.1
      rw [List.eraseP_cons_of_pos hm, List.filter_cons_of_pos hmine, List.map_cons,
        List.eraseP_cons_of_pos (by simpa using heh)]
    · rw [List.eraseP_cons_of_neg (by simpa using hm)]
      by_cases hmine : Timeout.ofFlow k e
      · have heh : e.handler ≠ h := by
          rintro rfl
          exact hm (by simp [Timeout.matches, (armsFor_iff.mp hmine).1])
        rw [List.filter_cons_of_pos hmine, List.filter_cons_of_pos hmine, List.map_cons,
          List.map_cons, List.eraseP_cons_of_neg (by simpa using heh), ih]
      · rw [List.filter_cons_of_neg hmine, List.filter_cons_of_neg hmine, ih]

/-- **Running** an entry takes it from the flow it belongs to. -/
theorem entries_expire (he : t.expire now = some (e, t')) :
    t.entries k = if e.ofFlow k then (e.time, e.handler) :: t'.entries k else t'.entries k := by
  unfold expire at he
  split at he
  · cases he
  · next e₀ rest hl =>
    split at he
    · cases he
    · cases he
      unfold entries
      rw [hl, List.filter_cons]
      split
      · rfl
      · rfl

/-- **A list of the flow's entries alone** has the same entry due. -/
theorem expire_alone {u : Timeouts Handler Ptr} (hent : u.entries k = t.entries k)
    (hal : ∀ x ∈ u.nextTimeout, Timeout.ofFlow k x) (he : t.expire now = some (e, t'))
    (hk : e.ofFlow k) :
    ∃ e' u', u.expire now = some (e', u') ∧ e'.handler = e.handler ∧ e'.arg = e.arg ∧
      u'.entries k = t'.entries k ∧ u'.nextTimeout ⊆ u.nextTimeout := by
  rw [entries_expire (k := k) he, if_pos hk] at hent
  have hdue : ¬timeLessThan now e.time := by
    unfold expire at he
    split at he
    · cases he
    · split at he
      · cases he
      · next hd =>
        cases he
        exact hd
  unfold expire
  cases hu : u.nextTimeout with
  | nil =>
    unfold entries at hent
    rw [hu] at hent
    cases hent
  | cons x xs =>
    -- every entry is of the flow, so the first one is
    have hx := hal x (by rw [hu]; exact List.mem_cons_self)
    unfold entries at hent
    rw [hu, List.filter_cons_of_pos hx, List.map_cons] at hent
    obtain ⟨hhead, htail⟩ := List.cons.inj hent
    obtain ⟨htime, hhandler⟩ := Prod.mk.inj hhead
    dsimp only
    rw [htime, if_neg hdue]
    exact ⟨x, _, rfl, hhandler, (armsFor_iff.mp hx).1.trans (armsFor_iff.mp hk).1.symm, htail,
      List.subset_cons_self x xs⟩

/-! ### Chunks -/

/-- The entries lie in chunks of the pool, and every chunk in use is that of a pending entry. -/
structure Tidy (t : Timeouts Handler Ptr) : Prop where
  slots : t.SlotsOk
  marks : ∀ i, t.timeoutMemPool.service[i]? = some true →
    ∃ e ∈ t.nextTimeout, e.mem = i * t.timeoutMemPool.chunk

/-- How many chunks the pool has -/
def room (t : Timeouts Handler Ptr) : Nat := t.timeoutMemPool.service.length

theorem room_lwcanTimeout (a : Ptr) : (t.lwcanTimeout now n h a).room = t.room := by
  rcases lwcanTimeout_cases t now n h a with ⟨-, he⟩ | ⟨mem, pool, -, hm, he⟩
  · rw [he]
  · rw [he]
    obtain ⟨i, -, -, rfl⟩ := Pool.malloc_some hm
    exact List.length_set ..

theorem room_lwcanUntimeout (a : Ptr) : (t.lwcanUntimeout h a).room = t.room := by
  unfold lwcanUntimeout
  split
  · rfl
  · exact Pool.length_free ..

theorem room_expire (he : t.expire now = some (e, t')) : t'.room = t.room := by
  unfold expire at he
  split at he
  · cases he
  · split at he
    · cases he
    · cases he
      exact Pool.length_free ..

namespace Tidy

theorem initial (cfg : Config) : Tidy (lwcanTimeoutsInit cfg) := by
  refine ⟨SlotsOk.initial cfg, ?_⟩
  intro i hi
  simp [lwcanTimeoutsInit, Pool.init, List.getElem?_replicate] at hi

theorem lwcanTimeout (ht : t.Tidy) (a : Ptr) : (t.lwcanTimeout now n h a).Tidy := by
  refine ⟨ht.slots.lwcanTimeout now n h a, ?_⟩
  rcases lwcanTimeout_cases t now n h a with ⟨-, he⟩ | ⟨mem, pool, -, hm, he⟩
  · rw [he]
    exact ht.marks
  · rw [he]
    obtain ⟨i, -, rfl, rfl⟩ := Pool.malloc_some hm
    intro j hj
    by_cases hij : i = j
    · subst hij
      exact ⟨_, (insert_perm _ _).mem_iff.mpr List.mem_cons_self, rfl⟩
    · obtain ⟨e, hmem, hej⟩ := ht.marks j (by rwa [List.getElem?_set_ne hij] at hj)
      exact ⟨e, (insert_perm _ _).mem_iff.mpr (List.mem_cons_of_mem _ hmem), hej⟩

/-- An entry is unlinked and its chunk freed. -/
theorem remove (ht : t.Tidy) {ts : List (Timeout Handler Ptr)} (he : e ∈ t.nextTimeout)
    (hs : ts.Sublist t.nextTimeout) (hr : ∀ x ∈ t.nextTimeout, x ∈ ts ∨ x = e) :
    Tidy { t with nextTimeout := ts, timeoutMemPool := t.timeoutMemPool.free e.mem } := by
  refine ⟨ht.slots.remove hs e.mem, ?_⟩
  obtain ⟨i, hi, hmem⟩ := ht.slots.mem e he
  have hlt : i * t.timeoutMemPool.chunk < 256 := by
    refine lt_of_le_of_lt ?_ ht.slots.fits
    rw [Nat.mul_comm]
    exact Nat.mul_le_mul_left _ (by omega)
  -- only the mark of the entry's own chunk is cleared
  have hfree := Pool.free_of_lt ht.slots.pos hi hlt
  intro j hj
  rw [hmem] at hj ⊢
  rw [hfree] at hj
  have hij : i ≠ j := by
    rintro rfl
    simp [hi] at hj
  rw [List.getElem?_set_ne hij] at hj
  obtain ⟨x, hx, hxj⟩ := ht.marks j hj
  rcases hr x hx with hx | rfl
  · exact ⟨x, hx, by simpa using hxj⟩
  · exact absurd (Nat.eq_of_mul_eq_mul_right ht.slots.pos (hmem.symm.trans hxj)) hij

theorem lwcanUntimeout (ht : t.Tidy) (a : Ptr) : (t.lwcanUntimeout h a).Tidy := by
  unfold Timeouts.lwcanUntimeout
  split
  · exact ht
  · next e hf =>
    refine ht.remove (List.mem_of_find?_eq_some hf) List.eraseP_sublist ?_
    -- the list is split at the entry that goes
    obtain ⟨hp, l₁, l₂, hl, hbefore⟩ := List.find?_eq_some_iff_append.mp hf
    intro x hx
    rw [hl] at hx ⊢
    rw [List.eraseP_append_right _ fun b hb => by simpa using hbefore b hb,
      List.eraseP_cons_of_pos hp, List.mem_append]
    rcases List.mem_append.mp hx with hx | hx
    · exact Or.inl (Or.inl hx)
    rcases List.mem_cons.mp hx with rfl | hx
    · exact Or.inr rfl
    · exact Or.inl (Or.inr hx)

theorem expire (ht : t.Tidy) (he : t.expire now = some (e, t')) : t'.Tidy := by
  unfold Timeouts.expire at he
  split at he
  · cases he
  · next e₀ rest hl =>
    split at he
    · cases he
    · cases he
      refine ht.remove (by rw [hl]; exact List.mem_cons_self)
        (by rw [hl]; exact List.sublist_cons_self _ _) ?_
      intro x hx
      rw [hl] at hx
      exact (List.mem_cons.mp hx).symm

/-- **An empty list** leaves every chunk free. -/
theorem slotFree (ht : t.Tidy) (he : t.nextTimeout = []) (hr : 0 < t.room) : t.slotFree := by
  unfold Timeouts.slotFree Pool.hasFree
  apply List.any_eq_true.mpr
  refine ⟨_, List.getElem_mem hr, ?_⟩
  cases hb : t.timeoutMemPool.service[0] with
  | false => rfl
  | true =>
    obtain ⟨e, hmem, -⟩ := ht.marks 0 (by rw [List.getElem?_eq_getElem hr, hb])
    rw [he] at hmem
    cases hmem

end Tidy

/-- A free chunk is a chunk. -/
theorem room_pos (hs : t.slotFree) : 0 < t.room := by
  unfold slotFree Pool.hasFree at hs
  obtain ⟨b, hb, -⟩ := List.any_eq_true.mp hs
  exact List.length_pos_of_mem hb

end Timeouts
end Lwcan
