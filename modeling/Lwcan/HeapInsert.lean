import Lwcan.HeapBlocks

/-!
# Putting a block back

`prvInsertBlockIntoFreeList` finds the place of a block among the free ones, links it there and
merges it with the free blocks on either side. What the source does in one pass with four outcomes
is, on the list of blocks, one or two of the edits of `Laid`.

* `Laid.search` — the loop ends at the last cell in front of the block;
* `linkBlock_apart`, `linkBlock_front`, `linkBlock_behind`, `linkBlock_both` — the four outcomes;
* `Place.merge` — each of them leaves the memory laid out, and no free blocks side by side;
* `Laid.prvInsert` — the two together.
-/

namespace Lwcan
namespace MemoryHeap

variable {c : MemConfig} {h : MemoryHeap} {bs xs ys : List Tile} {b f g n : Tile} {a p it : Nat}
  {P : List Nat}

/-- The links are followed to their end before the fuel is. -/
theorem Laid.length_lt (hl : Laid c h bs) : (frees bs).length + 2 < fuel c := by
  have hlen := hl.tiles.length_le hl.pos
  have hfrees : (frees bs).length ≤ bs.length := by
    rw [frees, List.length_map]
    exact List.length_filter_le _ _
  have hend := c.end_struct_le
  have hle := c.memoryHeap_le_aligned
  unfold fuel
  omega

/-- What the last cell in front of a place names lies behind the place. -/
theorem Laid.behind_le {m : Nat} (hy : Tiles m ys c.endAddress)
    (ha : (frees ys ++ [c.endAddress]).head? = some a) : m ≤ a := by
  have hmem : a ∈ frees ys ++ [c.endAddress] := List.mem_of_head? ha
  rcases List.mem_append.mp hmem with hmem | hmem
  · obtain ⟨t, ht, -, rfl⟩ := mem_frees.mp hmem
    exact (hy.mem ht).1
  · rw [List.mem_singleton.mp hmem]
    exact hy.le

/-- **The loop** ends at the last cell in front of the block. -/
theorem Laid.search (hl : Laid c h (xs ++ n :: ys)) (hn : n.used)
    (hP : c.xStart :: frees xs = P ++ [it]) :
    h.prvInsertBlockIntoFreeList c n.addr = some (h.linkBlock it n.addr) := by
  have hlink := hl.linked_at hP
  rw [frees_cons_used hn] at hlink
  obtain ⟨hx, hy⟩ := tiles_middle.mp hl.tiles
  -- the loop passes the cells that point below the block
  have hpass : ∀ b ∈ P, (!h.nextBelow n.addr b) = false := by
    intro b hb
    obtain ⟨a, ha, hnext⟩ := hlink.next_mem hb
    rw [← hP, List.tail_cons] at ha
    obtain ⟨t, ht, -, rfl⟩ := mem_frees.mp ha
    have hlt := (hx.mem ht).2
    have hpos := hl.pos t (List.mem_append_left _ ht)
    simp only [nextBelow, hnext, Option.getD_some, Bool.not_eq_false', decide_eq_true_eq]
    omega
  -- and stops at the first that points behind it
  have hstop : (!h.nextBelow n.addr it) = true := by
    have hnext : h.next it = (frees ys ++ [c.endAddress]).head? := hlink.next_eq
    obtain ⟨a, ha⟩ : ∃ a, (frees ys ++ [c.endAddress]).head? = some a := by
      cases frees ys <;> exact ⟨_, rfl⟩
    have hle := behind_le hy ha
    simp only [nextBelow, hnext, ha, Option.getD_some, Bool.not_eq_true', decide_eq_false_iff_not]
    omega
  -- the list is shorter than the fuel
  have hfuel : P.length < fuel c := by
    have hlen := hl.length_lt
    have hPlen := congrArg List.length hP
    rw [List.length_cons, List.length_append, List.length_singleton] at hPlen
    rw [frees_append, List.length_append] at hlen
    omega
  have hhead : (P ++ it :: (frees ys ++ [c.endAddress])).head? = some c.xStart := by
    rw [← List.singleton_append, ← List.append_assoc, ← hP]
    rfl
  have hwalk := walk_eq_some none hlink hpass hstop hfuel
  rw [hhead] at hwalk
  unfold prvInsertBlockIntoFreeList
  rw [hwalk]

/-- Only the headers of the two blocks are written. -/
theorem linkBlock_frame (h : MemoryHeap) (it p : Nat) :
    (∀ q, q ≠ it → q ≠ p → (h.linkBlock it p).link q = h.link q) ∧
      (h.linkBlock it p).xFreeBytesRemaining = h.xFreeBytesRemaining ∧
      (h.linkBlock it p).live = h.live := by
  unfold linkBlock
  dsimp only
  split <;> split <;> (try split) <;> (try split) <;> (try split) <;>
    simp +contextual [link_setNext, link_setSize]

theorem linkBlock_apart {behind : Nat} (hnext : h.next it = some behind)
    (hfront : it + h.size it ≠ p) (hbehind : p + h.size p ≠ behind ∨ some behind = h.pxEnd)
    (hne : it ≠ p) : h.linkBlock it p = (h.setNext p (some behind)).setNext it (some p) := by
  simp only [linkBlock, hfront, decide_false, Bool.false_eq_true, if_false, hnext, if_pos hne]
  rcases hbehind with hb | hb
  · rw [if_neg hb]
  · simp [← hb]

theorem linkBlock_behind {behind : Nat} (hnext : h.next it = some behind)
    (hfront : it + h.size it ≠ p) (hbehind : p + h.size p = behind) (hend : some behind ≠ h.pxEnd)
    (hne : it ≠ p) : h.linkBlock it p =
      ((h.setSize p (h.size p + h.size behind)).setNext p (h.next behind)).setNext it (some p) := by
  simp only [linkBlock, hfront, decide_false, Bool.false_eq_true, if_false, hnext, if_pos hne,
    if_pos hbehind, if_pos hend]

theorem linkBlock_front {behind : Nat} (hnext : h.next it = some behind)
    (hfront : it + h.size it = p) (hbehind : p + h.size p ≠ behind ∨ some behind = h.pxEnd) :
    h.linkBlock it p = h.setSize it (h.size it + h.size p) := by
  have hself : (h.setSize it (h.size it + h.size p)).setNext it (some behind) =
      h.setSize it (h.size it + h.size p) := by
    rw [← hnext, ← next_setSize, setNext_next]
  simp only [linkBlock, hfront, decide_true, if_true, next_setSize, hnext, size_setSize_self,
    pxEnd_setSize, ne_eq, not_true_eq_false, if_false]
  rcases hbehind with hb | hb
  · rw [if_neg (by omega), hself]
  · simp [← hb, hself]

theorem linkBlock_both {behind : Nat} (hnext : h.next it = some behind)
    (hfront : it + h.size it = p) (hbehind : p + h.size p = behind) (hend : some behind ≠ h.pxEnd) :
    h.linkBlock it p =
      let h' := h.setSize it (h.size it + h.size p)
      (h'.setSize it (h'.size it + h'.size behind)).setNext it (h'.next behind) := by
  have hsum : it + (h.size it + h.size p) = behind := by omega
  simp only [linkBlock, hfront, decide_true, if_true, next_setSize, hnext, size_setSize_self,
    pxEnd_setSize, ne_eq, not_true_eq_false, if_false, if_pos hsum, if_pos hend]

namespace Laid

/-- A free block in front is the last cell in front. -/
theorem last_addr {zs : List Tile} (hP : c.xStart :: frees (zs ++ [f]) = P ++ [it])
    (hf : f.used = false) : f.addr = it := by
  rw [frees_append, frees_cons_free hf, frees_nil, ← List.cons_append] at hP
  exact List.singleton_inj.mp (List.append_inj_right' hP rfl)

/-- The block in front is free exactly when the last cell in front ends where the block begins. -/
theorem front_iff (hl : Laid c h (xs ++ n :: ys)) (hP : c.xStart :: frees xs = P ++ [it]) :
    it + h.size it = n.addr ↔ ∃ zs f, xs = zs ++ [f] ∧ f.used = false := by
  obtain ⟨hx, -⟩ := tiles_middle.mp hl.tiles
  have hit : it ∈ c.xStart :: frees xs := by
    rw [hP]
    simp
  constructor
  · intro hadj
    rcases List.mem_cons.mp hit with rfl | hit
    · rw [hl.startSize] at hadj
      exact absurd hadj.symm (hl.ne_start (by simp))
    · obtain ⟨f, hmem, hf, rfl⟩ := mem_frees.mp hit
      rw [hl.header f (List.mem_append_left _ hmem) hf] at hadj
      obtain ⟨zs, rfl⟩ := hx.eq_concat (fun b hb => hl.pos b (List.mem_append_left _ hb)) hmem hadj
      exact ⟨zs, f, rfl, hf⟩
  · rintro ⟨zs, f, rfl, hf⟩
    rw [← last_addr hP hf, hl.header f (by simp) hf]
    exact hx.last_end

/-- The block behind is free exactly when it begins where the block ends, and is not the end
marker. -/
theorem behind_iff (hl : Laid c h (xs ++ n :: ys))
    (ha : (frees ys ++ [c.endAddress]).head? = some a) :
    n.addr + n.size = a ∧ a ≠ c.endAddress ↔ ∃ g zs, ys = g :: zs ∧ g.used = false := by
  obtain ⟨-, hy⟩ := tiles_middle.mp hl.tiles
  constructor
  · rintro ⟨rfl, hne⟩
    cases ys with
    | nil => exact absurd (Option.some.inj ha).symm hne
    | cons g zs =>
      cases hg : g.used with
      | false => exact ⟨g, zs, rfl, hg⟩
      | true =>
        rw [frees_cons_used hg] at ha
        have hle := behind_le hy.2 ha
        have hpos := hl.pos g (by simp)
        omega
  · rintro ⟨g, zs, rfl, hg⟩
    rw [frees_cons_free hg] at ha
    obtain rfl := Option.some.inj ha
    exact ⟨hy.1.symm, hl.ne_end (by simp)⟩

end Laid

/-- A list of blocks ends in a used one, or in nothing, unless it ends in a free one. -/
theorem used_of_not_free_last (h : ¬∃ zs f, xs = zs ++ [f] ∧ f.used = false) :
    ∀ b ∈ xs.getLast?, b.used := by
  intro b hb
  by_contra hused
  obtain ⟨zs, rfl⟩ := List.getLast?_eq_some_iff.mp hb
  exact h ⟨zs, b, rfl, by simpa using hused⟩

theorem used_of_not_free_head (h : ¬∃ g zs, ys = g :: zs ∧ g.used = false) :
    ∀ b ∈ ys.head?, b.used := by
  intro b hb
  by_contra hused
  obtain ⟨zs, rfl⟩ := List.head?_eq_some_iff.mp hb
  exact h ⟨b, zs, rfl, by simpa using hused⟩

/-- The block `n` is to be put among the free blocks, between `xs` and `ys`, behind the cell
`it`. -/
structure Place (c : MemConfig) (h : MemoryHeap) (xs : List Tile) (n : Tile) (ys : List Tile)
    (P : List Nat) (it : Nat) : Prop where
  laid : Laid c h (xs ++ n :: ys)
  used : n.used
  size : h.size n.addr = n.size
  left : Merged xs
  right : Merged ys
  last : c.xStart :: frees xs = P ++ [it]

/-- The block is among the free blocks. -/
structure Merge (c : MemConfig) (xs : List Tile) (n : Tile) (ys : List Tile) (h' : MemoryHeap)
    (bs : List Tile) : Prop where
  laid : Laid c h' bs
  merged : Merged bs
  useds : useds bs = useds xs ++ useds ys
  bytes : freeBytes bs = freeBytes xs + (n.size + freeBytes ys)

namespace Place

/-- What the last cell in front names. -/
theorem next_eq (hp : Place c h xs n ys P it) : h.next it = (frees ys ++ [c.endAddress]).head? := by
  have hlink := hp.laid.linked_at hp.last
  rw [frees_cons_used hp.used] at hlink
  exact hlink.next_eq

theorem next_free (hp : Place c h xs n (g :: ys) P it) (hg : g.used = false) :
    h.next it = some g.addr := by
  rw [hp.next_eq, frees_cons_free hg]
  rfl

theorem ne (hp : Place c h xs n ys P it) : it ≠ n.addr :=
  (hp.laid.last_ne hp.last List.mem_cons_self).1

/-- The block in front takes it. -/
theorem extended (hp : Place c h (xs ++ [f]) n ys P it) (hf : f.used = false) :
    Laid c (h.setSize it (h.size it + h.size n.addr))
      (xs ++ ⟨f.addr, f.size + n.size, false⟩ :: ys) := by
  obtain rfl := Laid.last_addr hp.last hf
  have hl := hp.laid
  rw [hl.header f (by simp) hf, hp.size]
  rw [← List.append_cons] at hl
  exact hl.extend hf hp.used

/-- **No free neighbour**: the block stays apart. -/
theorem apart (hp : Place c h xs n ys P it) (hF : ¬∃ zs f, xs = zs ++ [f] ∧ f.used = false)
    (hB : ¬∃ g zs, ys = g :: zs ∧ g.used = false) :
    ∃ bs, Merge c xs n ys (h.linkBlock it n.addr) bs := by
  obtain ⟨a, ha⟩ : ∃ a, (frees ys ++ [c.endAddress]).head? = some a := by
    cases frees ys <;> exact ⟨_, rfl⟩
  have hlaid := hp.laid.insert hp.used hp.size hp.last
  rw [ha] at hlaid
  have hfront : it + h.size it ≠ n.addr := fun hadj => hF ((hp.laid.front_iff hp.last).mp hadj)
  have hbehind : n.addr + h.size n.addr ≠ a ∨ some a = h.pxEnd := by
    rw [hp.size, hp.laid.pxEnd, Option.some.injEq]
    by_contra hcon
    push Not at hcon
    exact hB ((hp.laid.behind_iff ha).mp hcon)
  rw [linkBlock_apart (hp.next_eq.trans ha) hfront hbehind hp.ne]
  refine ⟨_, hlaid, ?_, ?_, ?_⟩
  · exact hp.left.insert hp.right (used_of_not_free_last hF) (used_of_not_free_head hB)
  · rw [useds_append, useds_cons_free rfl]
  · rw [freeBytes_append, freeBytes_cons_free rfl]

/-- **A free block in front**: it takes the block. -/
theorem front (hp : Place c h (xs ++ [f]) n ys P it) (hf : f.used = false)
    (hB : ¬∃ g zs, ys = g :: zs ∧ g.used = false) :
    ∃ bs, Merge c (xs ++ [f]) n ys (h.linkBlock it n.addr) bs := by
  obtain ⟨a, ha⟩ : ∃ a, (frees ys ++ [c.endAddress]).head? = some a := by
    cases frees ys <;> exact ⟨_, rfl⟩
  have hadj := (hp.laid.front_iff hp.last).mpr ⟨xs, f, rfl, hf⟩
  have hbehind : n.addr + h.size n.addr ≠ a ∨ some a = h.pxEnd := by
    rw [hp.size, hp.laid.pxEnd, Option.some.injEq]
    by_contra hcon
    push Not at hcon
    exact hB ((hp.laid.behind_iff ha).mp hcon)
  rw [linkBlock_front (hp.next_eq.trans ha) hadj hbehind]
  refine ⟨_, hp.extended hf, ?_, ?_, ?_⟩
  · exact hp.left.left.insert hp.right (hp.left.used_before hf) (used_of_not_free_head hB)
  · simp [useds_cons_free, hf]
  · simp [freeBytes_cons_free, hf, Nat.add_assoc]

/-- **A free block behind**: the block takes it. -/
theorem behind (hp : Place c h xs n (g :: ys) P it) (hg : g.used = false)
    (hF : ¬∃ zs f, xs = zs ++ [f] ∧ f.used = false) :
    ∃ bs, Merge c xs n (g :: ys) (h.linkBlock it n.addr) bs := by
  have hnext := hp.next_free hg
  have hsize : h.size g.addr = g.size := hp.laid.header g (by simp) hg
  have hfront : it + h.size it ≠ n.addr := fun hadj => hF ((hp.laid.front_iff hp.last).mp hadj)
  obtain ⟨hadj, hend⟩ :=
    (hp.laid.behind_iff (hp.next_eq.symm.trans hnext)).mpr ⟨g, ys, rfl, hg⟩
  rw [linkBlock_behind hnext hfront (by rw [hp.size, hadj])
    (by simpa [hp.laid.pxEnd] using hend) hp.ne]
  -- the same as when the block is put in front of the other, which it then takes
  have hlaid := hp.laid.insert hp.used hp.size hp.last
  rw [← hp.next_eq, hnext] at hlaid
  have hboth := hlaid.absorb rfl hg
  have hnextg : ((h.setNext n.addr (some g.addr)).setNext it (some n.addr)).next g.addr =
      h.next g.addr := by
    have hgit : g.addr ≠ it := (hp.laid.last_ne hp.last (by simp)).1.symm
    have hgn : g.addr ≠ n.addr := hp.laid.addr_ne (by simp)
    rw [next, link_setNext _ _ hgit, link_setNext _ _ hgn, next]
  dsimp only at hboth
  rw [hnextg, setSize_setNext_comm, setNext_comm _ _ hp.ne, setNext_setNext] at hboth
  rw [setSize_setNext_comm, setSize_setNext_comm, hp.size, hsize]
  refine ⟨_, hboth, ?_, ?_, ?_⟩
  · apply hp.left.insert hp.right.tail (used_of_not_free_last hF)
    exact Merged.head_used hp.right hg
  · simp [useds_cons_free, hg]
  · simp [freeBytes_cons_free, hg, Nat.add_assoc]

/-- **Free blocks on both sides**: the block plugs a gap. -/
theorem both (hp : Place c h (xs ++ [f]) n (g :: ys) P it) (hf : f.used = false)
    (hg : g.used = false) :
    ∃ bs, Merge c (xs ++ [f]) n (g :: ys) (h.linkBlock it n.addr) bs := by
  have hnext := hp.next_free hg
  have hfront := (hp.laid.front_iff hp.last).mpr ⟨xs, f, rfl, hf⟩
  obtain ⟨hadj, hend⟩ :=
    (hp.laid.behind_iff (hp.next_eq.symm.trans hnext)).mpr ⟨g, ys, rfl, hg⟩
  rw [linkBlock_both hnext hfront (by rw [hp.size, hadj]) (by simpa [hp.laid.pxEnd] using hend)]
  obtain rfl := Laid.last_addr hp.last hf
  have hlaid := hp.extended hf
  have hboth := hlaid.absorb rfl hg
  have hfsize := hlaid.header ⟨f.addr, f.size + n.size, false⟩ (by simp) rfl
  dsimp only at hboth hfsize ⊢
  rw [hfsize, hlaid.header g (by simp) hg]
  refine ⟨_, hboth, ?_, ?_, ?_⟩
  · apply hp.left.left.insert hp.right.tail (hp.left.used_before hf)
    exact Merged.head_used hp.right hg
  · simp [useds_cons_free, hf, hg]
  · simp [freeBytes_cons_free, hf, hg, Nat.add_assoc]

/-- **Merging** -/
theorem merge (hp : Place c h xs n ys P it) : ∃ bs, Merge c xs n ys (h.linkBlock it n.addr) bs := by
  by_cases hF : ∃ zs f, xs = zs ++ [f] ∧ f.used = false
  · by_cases hB : ∃ g zs, ys = g :: zs ∧ g.used = false
    · obtain ⟨zs, f, rfl, hf⟩ := hF
      obtain ⟨g, ws, rfl, hg⟩ := hB
      exact hp.both hf hg
    · obtain ⟨zs, f, rfl, hf⟩ := hF
      exact hp.front hf hB
  · by_cases hB : ∃ g zs, ys = g :: zs ∧ g.used = false
    · obtain ⟨g, ws, rfl, hg⟩ := hB
      exact hp.behind hg hF
    · exact hp.apart hF hB

end Place

/-- **`prvInsertBlockIntoFreeList`** on a block between `xs` and `ys` -/
theorem Laid.prvInsert (hl : Laid c h (xs ++ n :: ys)) (hn : n.used) (hs : h.size n.addr = n.size)
    (hx : Merged xs) (hy : Merged ys) :
    ∃ h' bs, h.prvInsertBlockIntoFreeList c n.addr = some h' ∧ Merge c xs n ys h' bs ∧
      (∀ b ∈ useds xs ++ useds ys, h'.link b.addr = h.link b.addr) ∧
      h'.xFreeBytesRemaining = h.xFreeBytesRemaining ∧ h'.live = h.live := by
  obtain ⟨P, it, hP⟩ : ∃ P it, c.xStart :: frees xs = P ++ [it] :=
    ⟨_, _, (List.dropLast_append_getLast (List.cons_ne_nil _ _)).symm⟩
  obtain ⟨bs, hmerge⟩ := Place.merge ⟨hl, hn, hs, hx, hy, hP⟩
  obtain ⟨hlink, hfree, hlive⟩ := h.linkBlock_frame it n.addr
  refine ⟨_, bs, hl.search hn hP, hmerge, ?_, hfree, hlive⟩
  intro b hb
  -- a used block is neither `n` nor the last cell in front of it
  rw [← useds_append] at hb
  obtain ⟨hb, hu⟩ := mem_useds.mp hb
  refine hlink _ (hl.used_ne ?_ hu ?_) (hl.addr_ne hb)
  · exact (List.Sublist.append_left (List.sublist_cons_self n ys) xs).mem hb
  · have hit : it ∈ c.xStart :: frees xs := by
      rw [hP]
      simp
    rw [frees_append, ← List.cons_append]
    exact List.mem_append_left _ hit

end MemoryHeap
end Lwcan
