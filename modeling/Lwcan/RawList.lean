import Mathlib.Data.List.Perm.Subperm
import Lwcan.PoolRuns
import Lwcan.Raw

/-!
# The list of raw pcbs

Under every sequence of operations and received frames `canraw_pcb_list` should hold exactly the
live raw pcbs, each once, and `canraw_pcb_num` their number.

The operations keep that. `canraw_input` keeps it, too, unless it moves a pcb to the front whose
place in the list the receive callback has changed: it then writes the `next` fields of the pcb and
of the one it found in front of it, whether or not they are still in the list.

* `ListOk` — the invariant: the list, its links, and the chunks of its pcbs;
* `ListOk.apply` — what an operation does to the list;
* `moveToFront_exact_iff` — moving a pcb to the front is right exactly when the saved predecessor is
  still in front of it;
* `pcb_list_exact` — what holds in every run in which that is so.
-/

namespace Lwcan
namespace Raw

/-- **The list holds exactly the live pcbs**: it ends, every live pcb is in it once and no other is,
and `canraw_pcb_num` is its length. -/
def Exact (r : Raw) : Prop :=
  ∃ l, r.canrawPcbList = l.head? ∧ Linked r.next l ∧ l.Perm r.live ∧ r.canrawPcbNum = l.length

/-- The list of pcbs is `l`, and the chunks of the pcbs in it are marked. -/
structure ListOk (r : Raw) (l : List Nat) : Prop where
  head : r.canrawPcbList = l.head?
  linked : Linked r.next l
  perm : l.Perm r.live
  num : r.canrawPcbNum = l.length
  small : l.length < 256
  chunk : 0 < r.canrawMemPool.chunk
  marked : ∀ p ∈ l, ∃ i, p = i * r.canrawMemPool.chunk ∧
    r.canrawMemPool.service[i]? = some true

/-- The counters of the pool and of the list can take the operation: `canraw_pcb_num` does not leave
the range of a `uint8_t`, and the chunk that is freed is not taken for that of another live pcb. -/
def Fits (r : Raw) : Op → Prop
  | .new => r.live.length < 255 ∨ r.canrawMaxPcbNum ≤ 255
  | .remove (some pcb) => pcb ∈ r.live → pcb % 256 = pcb ∨ pcb % 256 ∉ r.live
  | _ => True

/-- The live pcb `prev` is in front of the live pcb `pcb`. -/
def InFront (r : Raw) (prev pcb : Nat) : Prop :=
  prev ∈ r.live ∧ pcb ∈ r.live ∧ r.next prev = some pcb

/-- What the receive callback of a pcb does when it is called, and what it returns. -/
def called (r : Raw) (receive : Receive) (pcb : Nat) : List Op × Nat :=
  receive (r.mem pcb).receive (r.mem pcb).callbackArg pcb

/-- **The list is not disturbed**: the operations fit, and a receive callback that eats a frame
leaves the pcb that was in front of its own in front of it. -/
def Undisturbed (r : Raw) : Event → Prop
  | .op o => Fits r o
  | .input ifIndex receive =>
    match r.bound ifIndex with
    | some (some (prev, pcb)) =>
      (r.mem pcb).receive ≠ .null →
        Runs.Along apply Fits r (r.called receive pcb).1 ∧
        ((r.called receive pcb).2 ≠ 0 →
          ∀ q ∈ prev, ∀ v ∈ Runs.run apply r (r.called receive pcb).1, v.InFront q pcb)
    | _ => True

instance decidableFits (r : Raw) : (o : Op) → Decidable (Fits r o)
  | .new => inferInstanceAs (Decidable (r.live.length < 255 ∨ r.canrawMaxPcbNum ≤ 255))
  | .bind .. => inferInstanceAs (Decidable True)
  | .setReceiveCallback .. => inferInstanceAs (Decidable True)
  | .setCallbackArg .. => inferInstanceAs (Decidable True)
  | .remove none => inferInstanceAs (Decidable True)
  | .remove (some pcb) =>
    inferInstanceAs (Decidable (pcb ∈ r.live → pcb % 256 = pcb ∨ pcb % 256 ∉ r.live))

instance (r : Raw) (q p : Nat) : Decidable (r.InFront q p) :=
  inferInstanceAs (Decidable (_ ∧ _ ∧ _))

instance (r : Raw) : (e : Event) → Decidable (Undisturbed r e)
  | .op o => decidableFits r o
  | .input ifIndex receive => by
    unfold Undisturbed
    simp only
    split <;> infer_instance

variable {r v : Raw} {l : List Nat} {p q : Nat}

@[simp] theorem setNext_next (r : Raw) (p : Nat) (n : Option Nat) :
    (r.setNext p n).next = Function.update r.next p n := by
  funext q
  unfold setNext next
  by_cases hq : q = p
  · subst hq
    simp only [Function.update_self]
  · simp only [Function.update_of_ne hq]

@[simp] theorem release_next (r : Raw) (p : Nat) : (r.release p).next = r.next := rfl

theorem ListOk.exact (h : ListOk r l) : Exact r := ⟨l, h.head, h.linked, h.perm, h.num⟩

theorem ListOk.initial {chunk : Nat} (num : Nat) (hc : 0 < chunk) :
    ListOk (canrawInit chunk num) [] :=
  ⟨rfl, linked_nil, List.Perm.refl _, rfl, by decide, hc, fun _ h => absurd h List.not_mem_nil⟩

/-- There are no more pcbs in the list than chunks. -/
theorem ListOk.length_le (h : ListOk r l) : l.length ≤ r.canrawMaxPcbNum := by
  have hsub : l ⊆ (List.range r.canrawMaxPcbNum).map (· * r.canrawMemPool.chunk) := by
    intro p hp
    obtain ⟨i, rfl, hi⟩ := h.marked p hp
    exact List.mem_map_of_mem (List.mem_range.mpr (List.getElem?_eq_some_iff.mp hi).1)
  calc l.length ≤ ((List.range r.canrawMaxPcbNum).map (· * r.canrawMemPool.chunk)).length :=
        (h.linked.nodup.subperm hsub).length_le
    _ = r.canrawMaxPcbNum := by rw [List.length_map, List.length_range]

/-- Following the links from `canraw_pcb_list` visits `l`, which is no longer than the pool. -/
structure Follows (r : Raw) (l : List Nat) : Prop where
  head : r.canrawPcbList = l.head?
  linked : Linked r.next l
  short : l.length ≤ r.canrawMaxPcbNum

theorem ListOk.follows (h : ListOk r l) : Follows r l := ⟨h.head, h.linked, h.length_le⟩

/-- A write that leaves the links alone. -/
theorem ListOk.write (h : ListOk r l) {c : CanrawPcb} (hc : c.next = (r.mem p).next) :
    ListOk { r with mem := Function.update r.mem p c } l := by
  have hnext : ({ r with mem := Function.update r.mem p c } : Raw).next = r.next := by
    funext q
    unfold next
    by_cases hq : q = p
    · subst hq
      simp only [Function.update_self, hc]
    · simp only [Function.update_of_ne hq]
  refine ⟨h.head, ?_, h.perm, h.num, h.small, h.chunk, h.marked⟩
  rw [hnext]
  exact h.linked

/-! ### The loop of `canraw_remove` -/

/-- The first pcb is unlinked at once. -/
theorem Follows.unlink_head (h : Follows r (p :: l)) :
    r.unlink p = some ({ r with canrawPcbList := r.next p }.release p) := by
  have hp : r.canrawPcbList = some p := h.head
  unfold unlink
  rw [if_pos hp]

/-- A pcb behind the first one is not the first. -/
theorem Follows.ne_head {l₁ l₂ : List Nat} (h : Follows r (l₁ ++ q :: p :: l₂)) :
    r.canrawPcbList ≠ some p := by
  intro hp
  have hnd := h.linked.nodup
  rw [h.head] at hp
  cases l₁ with
  | nil =>
    obtain rfl : q = p := Option.some.inj hp
    exact (List.nodup_cons.mp hnd).1 List.mem_cons_self
  | cons x l₁ =>
    obtain rfl : x = p := Option.some.inj hp
    exact (List.nodup_cons.mp hnd).1
      (List.mem_append_right _ (List.mem_cons_of_mem _ List.mem_cons_self))

/-- The loop finds the pcb in front of the one to be removed. -/
theorem Follows.unlink_behind {l₁ l₂ : List Nat} (h : Follows r (l₁ ++ q :: p :: l₂)) :
    r.unlink p = some ((r.setNext q (r.next p)).release p) := by
  have hq : r.next q = some p := h.linked.next_eq
  have hwalk : walk r.next (fun x => decide (r.next x = some p)) r.fuel none r.canrawPcbList =
      some (some (l₁.getLast?.or none, q)) := by
    rw [h.head]
    refine walk_eq_some _ h.linked ?_ (decide_eq_true hq) ?_
    · intro x hx
      refine decide_eq_false ?_
      intro hxp
      have hxq : x = q := h.linked.next_inj (List.mem_append_left _ hx)
        (List.mem_append_right _ List.mem_cons_self) hxp hq
      exact (List.nodup_append.mp h.linked.nodup).2.2 x hx q List.mem_cons_self hxq
    · have hlen := h.short
      unfold fuel
      simp only [List.length_append, List.length_cons] at hlen
      omega
  unfold unlink
  rw [if_neg h.ne_head, hwalk]

/-- The loop finds nothing in front of a pcb that is not in the list. -/
theorem Follows.unlink_absent (h : Follows r l) (hp : p ∉ l) : r.unlink p = some r := by
  have hhead : r.canrawPcbList ≠ some p := by
    rw [h.head]
    exact fun he => hp (List.mem_of_head? he)
  have hwalk : walk r.next (fun x => decide (r.next x = some p)) r.fuel none r.canrawPcbList =
      some none := by
    rw [h.head]
    refine walk_eq_none h.linked ?_ (Nat.lt_succ_of_le h.short)
    intro x hx
    refine decide_eq_false ?_
    intro hxp
    obtain ⟨l₁, l₂, rfl⟩ := List.append_of_mem hx
    rw [h.linked.next_eq] at hxp
    exact hp (List.mem_append_right _ (List.mem_cons_of_mem _ (List.mem_of_head? hxp)))
  unfold unlink
  rw [if_neg hhead, hwalk]

/-! ### The operations -/

/-- **A new pcb** is put in front. -/
theorem ListOk.new (h : ListOk r l) (hf : Fits r .new) :
    r.canrawNew.2 = r ∨ ∃ p, ListOk r.canrawNew.2 (p :: l) := by
  unfold canrawNew
  split
  · exact Or.inl rfl
  · next hnum =>
    cases hm : r.canrawPcbMalloc with
    | none => exact Or.inl rfl
    | some x =>
      obtain ⟨p, pool⟩ := x
      obtain ⟨i, hfree, rfl, rfl⟩ := Pool.malloc_some hm
      refine Or.inr ⟨i * r.canrawMemPool.chunk, ?_⟩
      -- a chunk that is not marked is none of the list
      have hnew : i * r.canrawMemPool.chunk ∉ l := by
        intro hmem
        obtain ⟨j, hj, hmark⟩ := h.marked _ hmem
        rw [← Nat.eq_of_mul_eq_mul_right h.chunk hj, hfree] at hmark
        cases hmark
      -- the list stays short enough for the eight-bit count
      have hlt : l.length < 255 := by
        rcases hf with hf | hf
        · exact h.perm.length_eq ▸ hf
        · rw [← h.num]
          omega
      -- linking the chunk writes its own link only
      have hnext : ({ r with
            canrawMemPool := { r.canrawMemPool with service := r.canrawMemPool.service.set i true }
            mem := Function.update r.mem (i * r.canrawMemPool.chunk)
              ⟨r.canrawPcbList, 0, .null, .null⟩
            canrawPcbList := some (i * r.canrawMemPool.chunk)
            canrawPcbNum := u8 ((r.canrawPcbNum : Int) + 1)
            live := i * r.canrawMemPool.chunk :: r.live } : Raw).next =
          Function.update r.next (i * r.canrawMemPool.chunk) l.head? := by
        funext q
        unfold next
        by_cases hq : q = i * r.canrawMemPool.chunk
        · subst hq
          simp only [Function.update_self]
          exact h.head
        · simp only [Function.update_of_ne hq]
      refine ⟨rfl, ?_, h.perm.cons _, ?_, Nat.succ_lt_succ hlt, h.chunk, ?_⟩
      · rw [hnext]
        exact h.linked.push hnew
      · show u8 ((r.canrawPcbNum : Int) + 1) = l.length + 1
        rw [h.num, ← Int.natCast_succ, u8_natCast (by omega)]
      -- the chunks of the list stay marked
      · intro p hp
        rcases List.mem_cons.mp hp with rfl | hp
        · exact ⟨i, rfl, List.getElem?_set_self (List.getElem?_eq_some_iff.mp hfree).1⟩
        · obtain ⟨j, rfl, hmark⟩ := h.marked p hp
          refine ⟨j, rfl, ?_⟩
          show (r.canrawMemPool.service.set i true)[j]? = some true
          rw [List.getElem?_set_ne, hmark]
          rintro rfl
          rw [hfree] at hmark
          cases hmark

/-- **Freeing** the chunk of a pcb leaves the marks of the other live pcbs. -/
theorem ListOk.marked_free (h : ListOk r l) (hf : p % 256 = p ∨ p % 256 ∉ l) (hq : q ∈ l)
    (hpq : q ≠ p) : ∃ i, q = i * r.canrawMemPool.chunk ∧
      (r.canrawMemPool.free p).service[i]? = some true := by
  obtain ⟨j, hj, hmark⟩ := h.marked q hq
  refine ⟨j, hj, ?_⟩
  unfold Pool.free
  split
  · exact hmark
  · simp only
    split
    · exact hmark
    · next haddr =>
      -- the chunk at the truncated address is not that of `q`
      have hdvd : p % 256 / r.canrawMemPool.chunk * r.canrawMemPool.chunk = p % 256 :=
        Nat.div_mul_cancel (Nat.dvd_of_mod_eq_zero (not_not.mp haddr))
      rw [List.getElem?_set_ne, hmark]
      rintro rfl
      rw [hdvd] at hj
      rcases hf with hf | hf
      · exact hpq (hj.trans hf)
      · exact hf (hj ▸ hq)

/-- The pcb `p` is unlinked and its chunk freed. -/
theorem ListOk.release (h : ListOk r l) (hp : p ∈ l) (hf : p % 256 = p ∨ p % 256 ∉ l)
    (hhead : v.canrawPcbList = (l.erase p).head?) (hlinked : Linked v.next (l.erase p))
    (hpool : v.canrawMemPool = r.canrawMemPool) (hnum : v.canrawPcbNum = r.canrawPcbNum)
    (hlive : v.live = r.live.erase p) :
    ListOk (v.release p) (l.erase p) := by
  have hpos : 0 < l.length := List.length_pos_of_mem hp
  have hle : (l.erase p).length < 256 := List.length_erase_le.trans_lt h.small
  refine ⟨hhead, hlinked, ?_, ?_, hle, ?_, ?_⟩
  · show (l.erase p).Perm v.live
    rw [hlive]
    exact h.perm.erase p
  · show u8 ((v.canrawPcbNum : Int) - 1) = (l.erase p).length
    rw [hnum, List.length_erase_of_mem hp, h.num]
    exact u8_sub (b := 1) hpos h.small
  · show 0 < (v.canrawMemPool.free p).chunk
    rw [hpool, Pool.free_chunk]
    exact h.chunk
  · intro q hq
    obtain ⟨hqp, hql⟩ := (h.linked.nodup.mem_erase_iff).mp hq
    show ∃ i, q = i * (v.canrawMemPool.free p).chunk ∧
      (v.canrawMemPool.free p).service[i]? = some true
    rw [hpool, Pool.free_chunk]
    exact h.marked_free hf hql hqp

/-- **Removing** a pcb takes it out of the list, if it is in it. -/
theorem ListOk.remove (h : ListOk r l) (hf : Fits r (.remove (some p))) :
    ∃ v, r.canrawRemove (some p) = some v ∧ ListOk v (l.erase p) := by
  have hfit : p ∈ l → p % 256 = p ∨ p % 256 ∉ l := by
    intro hp
    rw [h.perm.mem_iff]
    exact hf (h.perm.mem_iff.mp hp)
  have hfol : Follows { r with live := r.live.erase p } l := ⟨h.head, h.linked, h.length_le⟩
  unfold canrawRemove
  by_cases hp : p ∈ l
  · obtain ⟨l₁, l₂, hl⟩ := List.append_of_mem hp
    have hnd : (l₁ ++ p :: l₂).Nodup := hl ▸ h.linked.nodup
    have hp₁ : p ∉ l₁ := fun hm => (List.nodup_append.mp hnd).2.2 p hm p List.mem_cons_self rfl
    have herase : l.erase p = l₁ ++ l₂ := by
      rw [hl, List.erase_append_right _ hp₁, List.erase_cons_head]
    rcases List.eq_nil_or_concat l₁ with rfl | ⟨l₀, q, rfl⟩
    · -- the first one
      rw [List.nil_append] at hl
      have hlist : Linked r.next (p :: l₂) := hl ▸ h.linked
      rw [hl] at hfol
      refine ⟨_, hfol.unlink_head, h.release hp (hfit hp) ?_ ?_ rfl rfl rfl⟩
      · rw [herase]
        exact hlist.1
      · rw [herase]
        exact hlist.2
    · -- one behind another
      rw [List.concat_eq_append] at hl herase
      have hl' : l = l₀ ++ q :: p :: l₂ := by rw [hl, List.append_assoc, List.singleton_append]
      have herase' : l.erase p = l₀ ++ q :: l₂ := by
        rw [herase, List.append_assoc, List.singleton_append]
      have hlist : Linked r.next (l₀ ++ q :: p :: l₂) := hl' ▸ h.linked
      rw [hl'] at hfol
      refine ⟨_, hfol.unlink_behind, h.release hp (hfit hp) ?_ ?_ rfl rfl rfl⟩
      · show r.canrawPcbList = _
        rw [h.head, herase', hl']
        cases l₀ <;> rfl
      · rw [setNext_next, herase']
        exact hlist.unlink
  · -- not in the list
    refine ⟨_, hfol.unlink_absent hp, ?_⟩
    rw [List.erase_of_not_mem hp]
    refine ⟨h.head, h.linked, ?_, h.num, h.small, h.chunk, h.marked⟩
    show l.Perm (r.live.erase p)
    rw [List.erase_of_not_mem (h.perm.mem_iff.not.mp hp)]
    exact h.perm

/-- What an operation can make of the list. -/
def Becomes (l : List Nat) : Op → List Nat → Prop
  | .new, l' => l' = l ∨ ∃ p, l' = p :: l
  | .remove (some p), l' => l' = l.erase p
  | _, l' => l' = l

/-- **Every operation** keeps the invariant. -/
theorem ListOk.apply (h : ListOk r l) {o : Op} (hf : Fits r o) :
    ∃ v l', r.apply o = some v ∧ ListOk v l' ∧ Becomes l o l' := by
  -- Only `new` and `remove` change a link; the others write a control block's own fields.
  cases o with
  | new =>
    rcases h.new hf with he | ⟨p, hp⟩
    · exact ⟨_, l, rfl, he.symm ▸ h, Or.inl rfl⟩
    · exact ⟨_, p :: l, rfl, hp, Or.inr ⟨p, rfl⟩⟩
  | bind pcb addr =>
    refine ⟨_, l, rfl, ?_, rfl⟩
    cases pcb with
    | none => exact h
    | some p =>
      cases addr with
      | none => exact h
      | some i =>
        unfold canrawBind
        simp only
        split
        · exact h
        · exact h.write rfl
  | setReceiveCallback pcb receive =>
    refine ⟨_, l, rfl, ?_, rfl⟩
    cases pcb with
    | none => exact h
    | some p => exact h.write rfl
  | setCallbackArg pcb arg =>
    refine ⟨_, l, rfl, ?_, rfl⟩
    cases pcb with
    | none => exact h
    | some p => exact h.write rfl
  | remove pcb =>
    cases pcb with
    | none => exact ⟨r, l, rfl, h, rfl⟩
    | some p =>
      obtain ⟨v, hv, hok⟩ := h.remove hf
      exact ⟨v, l.erase p, hv, hok, rfl⟩

/-- What a callback does keeps the invariant, and so does what the user does in a row. -/
theorem ListOk.run (h : ListOk r l) {ops : List Op} (hf : Runs.Along Raw.apply Fits r ops) :
    ∃ v, Runs.run Raw.apply r ops = some v ∧ ∃ l', ListOk v l' := by
  refine Runs.run_total (I := fun r => ∃ l, ListOk r l) ?_ ⟨l, h⟩ hf
  rintro s o ⟨l, hl⟩ ho
  obtain ⟨v, l', hv, hok, -⟩ := hl.apply ho
  exact ⟨v, hv, l', hok⟩

/-- **A callback that removes neither** leaves a pcb in front of another. -/
theorem ListOk.inFront_run {l₁ l₂ : List Nat} (h : ListOk r (l₁ ++ q :: p :: l₂)) {ops : List Op}
    (hf : Runs.Along Raw.apply Fits r ops) (hv : Runs.run Raw.apply r ops = some v)
    (hops : ∀ o ∈ ops, o ≠ .remove (some q) ∧ o ≠ .remove (some p)) : v.InFront q p := by
  induction ops generalizing r l₁ l₂ with
  | nil =>
    obtain rfl : r = v := Option.some.inj hv
    refine ⟨?_, ?_, h.linked.next_eq⟩
    · exact h.perm.mem_iff.mp (List.mem_append_right _ List.mem_cons_self)
    · exact h.perm.mem_iff.mp
        (List.mem_append_right _ (List.mem_cons_of_mem _ List.mem_cons_self))
  | cons o ops ih =>
    obtain ⟨u, hu, hv⟩ := Runs.run_cons.mp hv
    obtain ⟨u', l', hu', hok, hl'⟩ := h.apply hf.1
    obtain rfl : u' = u := Option.some.inj (hu'.symm.trans hu)
    obtain ⟨hq, hp⟩ := hops o List.mem_cons_self
    -- the two stay side by side
    obtain ⟨l₃, l₄, rfl⟩ : ∃ l₃ l₄, l' = l₃ ++ q :: p :: l₄ := by
      cases o with
      | new =>
        rcases hl' with rfl | ⟨x, rfl⟩
        · exact ⟨l₁, l₂, rfl⟩
        · exact ⟨x :: l₁, l₂, rfl⟩
      | bind pcb addr => exact ⟨l₁, l₂, hl'⟩
      | setReceiveCallback pcb receive => exact ⟨l₁, l₂, hl'⟩
      | setCallbackArg pcb arg => exact ⟨l₁, l₂, hl'⟩
      | remove pcb =>
        cases pcb with
        | none => exact ⟨l₁, l₂, hl'⟩
        | some x =>
          have hxq : q ≠ x := fun he => hq (by rw [he])
          have hxp : p ≠ x := fun he => hp (by rw [he])
          have he : l' = (l₁ ++ q :: p :: l₂).erase x := hl'
          by_cases hx : x ∈ l₁
          · exact ⟨l₁.erase x, l₂, he.trans (List.erase_append_left _ hx)⟩
          · refine ⟨l₁, l₂.erase x, he.trans ?_⟩
            rw [List.erase_append_right _ hx, List.erase_cons_tail (by simpa using hxq),
              List.erase_cons_tail (by simpa using hxp)]
    exact ih hok (hf.2 u' hu) hv fun o ho => hops o (List.mem_cons_of_mem _ ho)

/-! ### Received frames -/

/-- **The loop of `canraw_input`** finds the first pcb bound to the interface, with its
predecessor. -/
theorem Follows.bound (h : Follows r l) (ifIndex : Nat) :
    (∀ p ∈ l, (r.mem p).ifIndex ≠ ifIndex) ∧ r.bound ifIndex = some none ∨
      ∃ l₁ p l₂, l = l₁ ++ p :: l₂ ∧ (∀ q ∈ l₁, (r.mem q).ifIndex ≠ ifIndex) ∧
        (r.mem p).ifIndex = ifIndex ∧ r.bound ifIndex = some (some (l₁.getLast?, p)) := by
  unfold Raw.bound
  rw [h.head]
  cases hf : l.find? (fun p => decide ((r.mem p).ifIndex = ifIndex)) with
  | none =>
    have hno : ∀ p ∈ l, (r.mem p).ifIndex ≠ ifIndex := by
      intro p hp
      simpa using List.find?_eq_none.mp hf p hp
    refine Or.inl ⟨hno, walk_eq_none h.linked ?_ (Nat.lt_succ_of_le h.short)⟩
    exact fun p hp => decide_eq_false (hno p hp)
  | some p =>
    obtain ⟨hp, l₁, l₂, rfl, hl₁⟩ := List.find?_eq_some_iff_append.mp hf
    have hno : ∀ q ∈ l₁, (r.mem q).ifIndex ≠ ifIndex := by simpa using hl₁
    refine Or.inr ⟨l₁, p, l₂, rfl, hno, of_decide_eq_true hp, ?_⟩
    have hlen := h.short
    simp only [List.length_append, List.length_cons] at hlen
    rw [walk_eq_some _ h.linked (fun q hq => decide_eq_false (hno q hq)) hp (by unfold fuel; omega),
      Option.or_none]

/-- The first pcb stays where it is. -/
@[simp] theorem moveToFront_none (r : Raw) (p : Nat) : r.moveToFront none p = r := rfl

/-- A pcb taken from behind another one and put in front -/
theorem toFront_perm (l₁ l₂ : List Nat) (q p : Nat) :
    (p :: (l₁ ++ q :: l₂)).Perm (l₁ ++ q :: p :: l₂) := by
  have hmid : (l₁ ++ [q] ++ p :: l₂).Perm (p :: (l₁ ++ [q] ++ l₂)) := List.perm_middle
  simpa using hmid.symm

/-- **Moving to the front** a pcb with its predecessor. -/
theorem Follows.moveToFront {l₁ l₂ : List Nat} (h : Follows r (l₁ ++ q :: p :: l₂)) :
    Follows (r.moveToFront (some q) p) (p :: (l₁ ++ q :: l₂)) := by
  have hhead : r.canrawPcbList = (l₁ ++ q :: l₂).head? := by
    rw [h.head]
    cases l₁ <;> rfl
  refine ⟨rfl, ?_, ?_⟩
  · show Linked (((r.setNext q (r.next p)).setNext p r.canrawPcbList).next) _
    rw [setNext_next, setNext_next, hhead]
    exact h.linked.toFront
  · rw [(toFront_perm l₁ l₂ q p).length_eq]
    exact h.short

theorem ListOk.moveToFront {l₁ l₂ : List Nat} (h : ListOk r (l₁ ++ q :: p :: l₂)) :
    ListOk (r.moveToFront (some q) p) (p :: (l₁ ++ q :: l₂)) := by
  have hperm := toFront_perm l₁ l₂ q p
  have hf := h.follows.moveToFront
  refine ⟨hf.head, hf.linked, hperm.trans h.perm, ?_, ?_, h.chunk, ?_⟩
  · rw [hperm.length_eq]
    exact h.num
  · rw [hperm.length_eq]
    exact h.small
  · intro x hx
    exact h.marked x (hperm.mem_iff.mp hx)

/-- **When moving to the front is right**: exactly when the saved predecessor is still in front. -/
theorem moveToFront_exact_iff (h : ListOk r l) (hqp : q ≠ p) :
    Exact (r.moveToFront (some q) p) ↔ r.InFront q p := by
  constructor
  · rintro ⟨l', hhead, hlinked, hperm, -⟩
    obtain ⟨m, rfl⟩ : ∃ m, l' = p :: m := List.head?_eq_some_iff.mp hhead.symm
    have hnext : (r.moveToFront (some q) p).next =
        Function.update (Function.update r.next q (r.next p)) p r.canrawPcbList := by
      show ((r.setNext q (r.next p)).setNext p r.canrawPcbList).next = _
      rw [setNext_next, setNext_next]
    rw [hnext] at hlinked
    have hlive : (p :: m).Perm l := hperm.trans h.perm.symm
    obtain ⟨l₁, l₂, rfl⟩ := List.append_of_mem (hlive.mem_iff.mp List.mem_cons_self)
    rcases List.eq_nil_or_concat l₁ with rfl | ⟨l₀, x, rfl⟩
    · -- the first one would name itself
      refine absurd ?_ (hlinked.next_ne_head List.mem_cons_self)
      rw [Function.update_self, h.head]
      rfl
    · rw [List.concat_eq_append, List.append_assoc, List.singleton_append] at h hlive
      have hx : x ∈ l₀ ++ x :: p :: l₂ := List.mem_append_right _ List.mem_cons_self
      have hxp : x ≠ p := by
        rintro rfl
        exact (List.nodup_cons.mp (List.nodup_append.mp h.linked.nodup).2.1).1 List.mem_cons_self
      have hnx : r.next x = some p := h.linked.next_eq
      by_cases hxq : x = q
      · subst hxq
        exact ⟨h.perm.mem_iff.mp hx, hperm.mem_iff.mp List.mem_cons_self, hnx⟩
      · -- another predecessor would still name it
        refine absurd ?_ (hlinked.next_ne_head (hlive.mem_iff.mpr hx))
        rw [Function.update_of_ne hxp, Function.update_of_ne hxq]
        exact hnx
  · rintro ⟨hq, -, hnext⟩
    obtain ⟨l₁, l₂, rfl⟩ := List.append_of_mem (h.perm.mem_iff.mpr hq)
    rw [h.linked.next_eq] at hnext
    obtain ⟨l₃, rfl⟩ := List.head?_eq_some_iff.mp hnext
    exact h.moveToFront.exact

/-- What `canraw_input` does with a pcb that has a callback. -/
theorem canrawInput_of_bound {ifIndex : Nat} {receive : Receive} {prev : Option Nat}
    (hb : r.bound ifIndex = some (some (prev, p))) (hr : (r.mem p).receive ≠ .null)
    (hv : Runs.run Raw.apply r (r.called receive p).1 = some v) :
    r.canrawInput ifIndex receive =
      if (r.called receive p).2 = 0 then some (.none, v) else some
        (.eaten, v.moveToFront prev p) := by
  unfold canrawInput
  rw [hb]
  simp only [if_neg hr]
  unfold called at hv ⊢
  rw [hv]

/-- **A received frame** keeps the invariant, if its callback does not disturb the list. -/
theorem ListOk.input (h : ListOk r l) {ifIndex : Nat} {receive : Receive}
    (hC : Undisturbed r (.input ifIndex receive)) :
    ∃ v, r.step (.input ifIndex receive) = some v ∧ ∃ l', ListOk v l' := by
  have hstep : ∀ {x}, r.canrawInput ifIndex receive = some x →
      r.step (.input ifIndex receive) = some x.2 := by
    intro x hx
    show (r.canrawInput ifIndex receive).map Prod.snd = _
    rw [hx]
    rfl
  rcases h.follows.bound ifIndex with ⟨-, hb⟩ | ⟨l₁, p, l₂, -, -, -, hb⟩
  · -- no pcb is bound to the interface
    refine ⟨r, hstep (x := (.none, r)) ?_, l, h⟩
    unfold canrawInput
    rw [hb]
  · by_cases hr : (r.mem p).receive = .null
    · refine ⟨r, hstep (x := (.none, r)) ?_, l, h⟩
      unfold canrawInput
      rw [hb]
      simp only [if_pos hr]
    · unfold Undisturbed at hC
      simp only [hb] at hC
      obtain ⟨hfits, hfront⟩ := hC hr
      obtain ⟨v, hv, l', hok⟩ := h.run hfits
      have hin := canrawInput_of_bound hb hr hv
      by_cases heat : (r.called receive p).2 = 0
      · rw [if_pos heat] at hin
        exact ⟨v, hstep hin, l', hok⟩
      · rw [if_neg heat] at hin
        refine ⟨_, hstep hin, ?_⟩
        cases hprev : l₁.getLast? with
        | none => exact ⟨l', hok⟩
        | some q =>
          -- the pcb that ate the frame goes to the front, from behind its old predecessor
          obtain ⟨hq, -, hnext⟩ := hfront heat q hprev v hv
          obtain ⟨l₃, l₄, rfl⟩ := List.append_of_mem (hok.perm.mem_iff.mpr hq)
          rw [hok.linked.next_eq] at hnext
          obtain ⟨l₅, rfl⟩ := List.head?_eq_some_iff.mp hnext
          exact ⟨_, hok.moveToFront⟩

/-- **The list holds exactly the live raw pcbs** in every run that does not disturb it, and no such
run hangs. -/
theorem pcb_list_exact {chunk : Nat} (num : Nat) (hc : 0 < chunk) (es : List Event)
    (hC : Runs.Along step Undisturbed (canrawInit chunk num) es) :
    ∃ t, Runs.run step (canrawInit chunk num) es = some t ∧ Exact t := by
  have hstep : ∀ r e, (∃ l, ListOk r l) → Undisturbed r e →
      ∃ v, step r e = some v ∧ ∃ l, ListOk v l := by
    rintro r e ⟨l, hl⟩ he
    cases e with
    | op o =>
      obtain ⟨v, l', hv, hok, -⟩ := hl.apply he
      exact ⟨v, hv, l', hok⟩
    | input ifIndex receive => exact hl.input he
  obtain ⟨t, ht, l, hl⟩ := Runs.run_total hstep ⟨[], ListOk.initial num hc⟩ hC
  exact ⟨t, ht, hl.exact⟩

/-- Two pcbs; the one behind the other is bound to interface 1 and has a callback. -/
def listening : List Event :=
  [.op .new, .op .new, .op (.bind (some 0) (some 1)), .op (.setReceiveCallback (some 0) (.user 1))]

/-- A frame that the callback of the last pcb eats: the pcb moves to the front. -/
theorem pcb_list_exact_eaten :
    ∃ t, Runs.run step (canrawInit 24 2) (listening ++ [.input 1 fun _ _ _ => ([], 1)]) = some t ∧
      Exact t :=
  pcb_list_exact 2 (by decide) _ (by decide)

/-- A callback that removes its own pcb and eats the frame: the removed pcb is put in front. -/
theorem removed_pcb_relinked :
    ∃ t, Runs.run step (canrawInit 24 2)
        (listening ++ [.input 1 fun _ _ pcb => ([.remove (some pcb)], 1)]) = some t ∧ ¬Exact t := by
  obtain ⟨t, ht, hlist, h₀, h₁, hnum⟩ := Runs.exists_run step (canrawInit 24 2)
    (listening ++ [.input 1 fun _ _ pcb => ([.remove (some pcb)], 1)])
    (fun t => t.canrawPcbList = some 0 ∧ t.next 0 = some 24 ∧ t.next 24 = none ∧ t.canrawPcbNum = 1)
    (by decide)
  refine ⟨t, ht, ?_⟩
  rintro ⟨l, hhead, hlinked, -, hlen⟩
  have htwo : Linked t.next [0, 24] := ⟨h₀, h₁, linked_nil⟩
  have hl : l = [0, 24] := hlinked.eq_of_head htwo (hhead.symm.trans hlist)
  rw [hl, hnum] at hlen
  cases hlen

end Raw
end Lwcan
