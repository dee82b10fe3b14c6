import Lwcan.HeapIntegrity

/-!
# What is stored stays

`lwcan_malloc` and `lwcan_free` write headers: of the block they take or give back, of the one that
is split off, and of the free one in front. None of them lies in memory that is in use, so what the
application has stored in a block is there until it writes to the block itself, whatever is
allocated and freed meanwhile.

* `Spares` — whatever changes, changes outside of a block;
* `Intact.free_spares`, `Intact.malloc_spares` — the two functions spare every live block;
* `contents_kept` — what a run leaves of a block.
-/

namespace Lwcan
namespace MemoryHeap

variable {c : MemConfig} {h h' h'' : MemoryHeap} {bs xs ys : List Tile} {b : Tile} {x : Nat × Nat}
  {a p w size : Nat} {es : List Event}

/-- **The block is spared**: each `BlockLink_t` that is another lies outside of it. -/
def Spares (c : MemConfig) (h h' : MemoryHeap) (x : Nat × Nat) : Prop :=
  ∀ a, h'.link a = h.link a ∨ a + c.blockLinkSize ≤ x.1 ∨ x.1 + x.2 ≤ a

theorem Spares.refl (c : MemConfig) (h : MemoryHeap) (x : Nat × Nat) : Spares c h h x :=
  fun _ => Or.inl rfl

theorem Spares.trans (h₁ : Spares c h h' x) (h₂ : Spares c h' h'' x) : Spares c h h'' x := by
  intro a
  rcases h₁ a with heq | hout
  · rcases h₂ a with heq' | hout
    · exact Or.inl (heq'.trans heq)
    · exact Or.inr hout
  · exact Or.inr hout

/-- What lies in the block says what it said. -/
theorem Spares.link_eq (hs : Spares c h h' x) (hlo : x.1 < a + c.blockLinkSize)
    (hhi : a < x.1 + x.2) : h'.link a = h.link a := by
  rcases hs a with heq | hout | hout
  · exact heq
  · omega
  · omega

/-! ### The headers -/

/-- A header at the beginning of a block, or in a free one, lies outside of what is in use. -/
theorem Intact.header_outside (hi : Intact c h bs) (hx : x ∈ h.live) (hb : b ∈ bs)
    (hlo : b.addr ≤ w) (hhi : w + c.xHeapStructSize ≤ b.addr + b.size) (hw : b.used → w = b.addr) :
    w + c.blockLinkSize ≤ x.1 ∨ x.1 + x.2 ≤ w := by
  have hle := c.blockLinkSize_le
  obtain ⟨d, hd, hxd, hsize⟩ := hi.enough x hx
  obtain ⟨hd, hu⟩ := mem_useds.mp hd
  by_cases hbd : b = d
  · subst hbd
    rw [hw hu]
    exact Or.inl (by omega)
  · rcases hi.laid.tiles.apart hb hd hbd with hap | hap
    · exact Or.inl (by omega)
    · exact Or.inr (by omega)

/-- The cells of the free list lie outside of what is in use. -/
theorem Intact.cell_outside (hi : Intact c h bs) (hx : x ∈ h.live) (hw : w ∈ c.xStart :: frees bs) :
    w + c.blockLinkSize ≤ x.1 ∨ x.1 + x.2 ≤ w := by
  rcases List.mem_cons.mp hw with rfl | hw
  · obtain ⟨d, hd, hxd, hsize⟩ := hi.enough x hx
    have hin := hi.laid.inside (mem_useds.mp hd).1
    have hle := c.blockLinkSize_le
    rcases c.xStart_outside with ho | ho
    · exact Or.inl (by omega)
    · exact Or.inr (by omega)
  · obtain ⟨b, hb, -, rfl⟩ := mem_frees.mp hw
    exact hi.header_outside hx hb (le_refl _) (Nat.add_le_add_left (hi.laid.big b hb).2 _) fun _ =>
      rfl

/-- A cell that overlaps one block in use lies outside of every other. -/
theorem Intact.overlap_outside {y : Nat × Nat} (hi : Intact c h bs) (hx : x ∈ h.live)
    (hy : y ∈ h.live) (hne : x.1 ≠ y.1) (hlo : y.1 < w + c.blockLinkSize) (hhi : w < y.1 + y.2) :
    w + c.blockLinkSize ≤ x.1 ∨ x.1 + x.2 ≤ w := by
  have hle := c.blockLinkSize_le
  obtain ⟨d, hd, hxd, hxs⟩ := hi.enough x hx
  obtain ⟨f, hf, hyf, hys⟩ := hi.enough y hy
  have hdf : d ≠ f := by
    rintro rfl
    exact hne (hxd.trans hyf.symm)
  -- a header lies between the two
  rcases hi.laid.tiles.apart (mem_useds.mp hd).1 (mem_useds.mp hf).1 hdf with hap | hap
  · exact Or.inr (by omega)
  · exact Or.inl (by omega)

/-- Two blocks in use do not overlap. -/
theorem Sound.live_apart (hh : Sound c h) {y : Nat × Nat} (hx : x ∈ h.live) (hy : y ∈ h.live)
    (hne : x.1 ≠ y.1) : x.1 + x.2 ≤ y.1 ∨ y.1 + y.2 ≤ x.1 := by
  rcases hh with ⟨-, hlive⟩ | ⟨bs, hi⟩
  · rw [hlive] at hx
    cases hx
  · obtain ⟨d, hd, hxd, hxs⟩ := hi.enough x hx
    obtain ⟨f, hf, hyf, hys⟩ := hi.enough y hy
    have hdf : d ≠ f := by
      rintro rfl
      exact hne (hxd.trans hyf.symm)
    rcases hi.laid.tiles.apart (mem_useds.mp hd).1 (mem_useds.mp hf).1 hdf with hap | hap
    · exact Or.inl (by omega)
    · exact Or.inr (by omega)

/-- Writing to blocks in use spares the others. -/
theorem Sound.overwrite_spares (hh : Sound c h) {link : Nat → BlockLink} (hx : x ∈ h.live)
    (hl : ∀ a, link a = h.link a ∨
      ∃ y ∈ h.live, y.1 ≠ x.1 ∧ y.1 < a + c.blockLinkSize ∧ a < y.1 + y.2) :
    Spares c h { h with link } x := by
  rcases hh with ⟨-, hlive⟩ | ⟨bs, hi⟩
  · rw [hlive] at hx
    cases hx
  · intro a
    rcases hl a with heq | ⟨y, hy, hne, hlo, hhi⟩
    · exact Or.inl heq
    · exact Or.inr (hi.overlap_outside hx hy hne.symm hlo hhi)

/-! ### The two functions -/

theorem prvInsert_live (hi : h.prvInsertBlockIntoFreeList c p = some h') : h'.live = h.live := by
  unfold prvInsertBlockIntoFreeList at hi
  split at hi
  · rw [← Option.some.inj hi]
    exact (h.linkBlock_frame _ p).2.2
  · cases hi

/-- The code of `lwcan_free` leaves the notes alone. -/
theorem lwcanFree_live {q : Option Nat} (hf : h.lwcanFree c q = some h') : h'.live = h.live := by
  cases q with
  | none => rw [← Option.some.inj hf]
  | some p =>
    unfold lwcanFree at hf
    dsimp only at hf
    split at hf
    · split at hf
      · have hlive := prvInsert_live hf
        exact hlive
      · rw [← Option.some.inj hf]
    · rw [← Option.some.inj hf]

theorem free_live (hf : h.free c (some p) = some h') : h'.live = h.live.filter (·.1 ≠ p) := by
  obtain ⟨h₁, hf₁, rfl⟩ := Option.map_eq_some_iff.mp hf
  exact congrArg (List.filter _) (lwcanFree_live hf₁)

/-- **Freeing** a block spares every block, also that one. -/
theorem Intact.free_spares (hi : Intact c h bs) (hp : p ∈ h.live.map Prod.fst)
    (hf : h.free c (some p) = some h') (hx : x ∈ h.live) : Spares c h h' x := by
  obtain ⟨b, hb, rfl⟩ := hi.mem_live hp
  obtain ⟨h₁, hf₁, rfl⟩ := Option.map_eq_some_iff.mp hf
  rw [hi.lwcanFree_eq hb] at hf₁
  obtain ⟨hmem, hused⟩ := mem_useds.mp hb
  obtain ⟨xs, ys, rfl⟩ := List.append_of_mem hmem
  have hlaid : Laid c { h.setSize b.addr b.size with
      xFreeBytesRemaining := freeBytes (xs ++ b :: ys) + b.size } (xs ++ b :: ys) :=
    hi.laid.write_used hmem hused (fun q hq => link_setSize h _ hq) rfl rfl
  obtain ⟨P, it, hP⟩ : ∃ P it, c.xStart :: frees xs = P ++ [it] :=
    ⟨_, _, (List.dropLast_append_getLast (List.cons_ne_nil _ _)).symm⟩
  rw [hlaid.search hused hP] at hf₁
  have hit : it ∈ c.xStart :: frees (xs ++ b :: ys) := by
    rw [frees_append, ← List.cons_append, hP]
    simp
  -- two headers are written: that of the block, and that of the free one in front
  intro a
  by_cases hai : a = it
  · subst hai
    exact Or.inr (hi.cell_outside hx hit)
  by_cases hab : a = b.addr
  · subst hab
    exact Or.inr
      (hi.header_outside hx hmem (le_refl _) (Nat.add_le_add_left (hi.laid.big b hmem).2 _)
      fun _ => rfl)
  · refine Or.inl ?_
    show h₁.link a = h.link a
    rw [← Option.some.inj hf₁]
    exact ((linkBlock_frame _ it b.addr).1 a hai hab).trans (link_setSize h _ hab)

theorem Intact.take_spares {it : Nat} {P : List Nat} (hi : Intact c h (xs ++ b :: ys))
    (hb : b.used = false) (hP : c.xStart :: frees xs = P ++ [it]) (hw : c.needed size ≤ b.size)
    (ht : h.take c it b.addr (c.needed size) = some h') (hx : x ∈ h.live) : Spares c h h' x := by
  have hmem : b ∈ xs ++ b :: ys := by simp
  have hlaid := hi.laid.unlink hb hP
  have hsize : h.size b.addr = b.size := hi.laid.header b hmem hb
  have hneeded := c.le_needed size
  have hrest : c.usize ((h.size b.addr : Int) - c.needed size) = b.size - c.needed size := by
    have hlt := hi.laid.size_lt hmem
    have hbit := c.two_allocatedBit
    rw [hsize]
    exact c.usize_sub hw (by omega)
  have hallocate : ∀ (g : MemoryHeap) (q : Nat), q ≠ b.addr →
      (g.allocate c b.addr).link q = g.link q :=
    fun g q hq => (link_setNext _ _ hq).trans (link_setSize _ _ hq)
  -- the headers that are written: of the free block in front, and of the block
  intro a
  by_cases hai : a = it
  · subst hai
    refine Or.inr (hi.cell_outside hx ?_)
    rw [frees_append, ← List.cons_append, hP]
    simp
  by_cases hab : a = b.addr
  · subst hab
    exact Or.inr
      (hi.header_outside hx hmem (le_refl _) (Nat.add_le_add_left (hi.laid.big b hmem).2 _)
      fun _ => rfl)
  unfold MemoryHeap.take at ht
  dsimp only at ht
  rw [size_setNext, hrest] at ht
  by_cases hsplit : c.minimumBlockSize < b.size - c.needed size
  · rw [if_pos hsplit] at ht
    rw [MemConfig.minimumBlockSize, Nat.shiftLeft_eq] at hsplit
    have hparts := hlaid.split_headers rfl (c.needed_dvd size) (by omega)
      (show c.needed size + c.xHeapStructSize ≤ b.size by omega)
    rw [List.append_cons] at hparts
    have hP' : c.xStart :: frees (xs ++ [⟨b.addr, c.needed size, true⟩]) = P ++ [it] := by
      rw [frees_append, frees_cons_used rfl, frees_nil, List.append_nil, hP]
    have hsearch := hparts.search rfl hP'
    dsimp only at hsearch
    rw [hsearch] at ht
    -- and of the part that is split off
    by_cases han : a = b.addr + c.needed size
    · subst han
      refine Or.inr (hi.header_outside hx hmem (Nat.le_add_right _ _) (by omega) fun hu => ?_)
      rw [hb] at hu
      cases hu
    · refine Or.inl ?_
      rw [← Option.some.inj ht]
      calc (((_ : MemoryHeap).linkBlock it (b.addr + c.needed size)).allocate c b.addr).link a
          = ((_ : MemoryHeap).linkBlock it (b.addr + c.needed size)).link a := hallocate _ a hab
        _ = (((h.setNext it (h.next b.addr)).setSize _ _).setSize b.addr _).link a :=
          (linkBlock_frame _ it _).1 a hai han
        _ = ((h.setNext it (h.next b.addr)).setSize _ _).link a := link_setSize _ _ hab
        _ = (h.setNext it (h.next b.addr)).link a := link_setSize _ _ han
        _ = h.link a := link_setNext _ _ hai
  · rw [if_neg hsplit] at ht
    refine Or.inl ?_
    rw [← Option.some.inj ht, hallocate _ a hab]
    exact link_setNext _ _ hai

/-- **Allocating** spares every block. -/
theorem Intact.malloc_spares {q : Option Nat} (hi : Intact c h bs) (hsize : size < 2 ^ c.sizeBits)
    (hm : h.mallocInit c size = some (q, h')) (hx : x ∈ h.live) : Spares c h h' x := by
  unfold MemoryHeap.mallocInit at hm
  rw [hi.laid.bit] at hm
  -- the size has the bit of allocated blocks: refused
  by_cases hbit : c.allocatedBit ≤ size
  · rw [if_pos ((c.and_allocatedBit hsize).mpr hbit)] at hm
    cases hm
    exact Spares.refl c h x
  rw [if_neg (fun hand => hbit ((c.and_allocatedBit hsize).mp hand))] at hm
  dsimp only at hm
  rcases Nat.eq_zero_or_pos size with rfl | hpos
  · rw [if_pos (Or.inl c.wantedSize_zero)] at hm
    cases hm
    exact Spares.refl c h x
  rw [c.wantedSize_eq hpos (by omega)] at hm
  -- the size wraps, or is more than is free: refused
  split at hm
  · cases hm
    exact Spares.refl c h x
  -- only a block that is large enough is written to
  rcases first_fit bs (c.needed size) with hsmall | ⟨xs, b, ys, rfl, hb, hfit, hbefore⟩
  · obtain ⟨previous, hfound⟩ := hi.laid.firstFit_end hsmall
    rw [hfound] at hm
    dsimp only at hm
    rw [if_pos hi.laid.pxEnd.symm] at hm
    cases hm
    exact Spares.refl c h x
  · obtain ⟨P, it, hP⟩ : ∃ P it, c.xStart :: frees xs = P ++ [it] :=
      ⟨_, _, (List.dropLast_append_getLast (List.cons_ne_nil _ _)).symm⟩
    have hne : some b.addr ≠ h.pxEnd := by
      rw [hi.laid.pxEnd]
      simpa using hi.laid.ne_end (by simp : b ∈ xs ++ b :: ys)
    rw [hi.laid.firstFit_block hb hP hfit hbefore] at hm
    dsimp only at hm
    rw [if_neg hne] at hm
    obtain ⟨h₁, htake, heq⟩ := Option.map_eq_some_iff.mp hm
    cases heq
    exact hi.take_spares hb hP hfit htake hx

/-- **Allocating**, the first time or later -/
theorem Sound.malloc_spares {q : Option Nat} (hh : Sound c h) (hsize : size < 2 ^ c.sizeBits)
    (hm : h.malloc c size = some (q, h')) (hx : x ∈ h.live) : Spares c h h' x := by
  rcases hh with ⟨-, hlive⟩ | ⟨bs, hi⟩
  · rw [hlive] at hx
    cases hx
  · obtain ⟨⟨q, h₁⟩, hm₁, heq⟩ := Option.map_eq_some_iff.mp hm
    cases heq
    unfold lwcanMalloc at hm₁
    rw [if_neg (by rw [hi.laid.pxEnd]; simp)] at hm₁
    -- what is noted changes no link
    have hspares : Spares c h h₁ x := hi.malloc_spares hsize hm₁ hx
    exact hspares

theorem Sound.free_spares (hh : Sound c h) (hp : p ∈ h.live.map Prod.fst)
    (hf : h.free c (some p) = some h') (hx : x ∈ h.live) : Spares c h h' x := by
  rcases hh with ⟨-, hlive⟩ | ⟨bs, hi⟩
  · rw [hlive] at hx
    cases hx
  · exact hi.free_spares hp hf hx

/-! ### Runs -/

/-- The event is not about the block: it is not the one that is freed, and what is written lies
outside. -/
def Leaves (c : MemConfig) (x : Nat × Nat) : Event → Prop
  | .malloc _ => True
  | .free p => p ≠ some x.1
  | .write a _ => a + c.blockLinkSize ≤ x.1 ∨ x.1 + x.2 ≤ a

instance (c : MemConfig) (x : Nat × Nat) : (e : Event) → Decidable (Leaves c x e)
  | .malloc _ => isTrue True.intro
  | .free p => inferInstanceAs (Decidable (p ≠ some x.1))
  | .write a _ => inferInstanceAs (Decidable (a + c.blockLinkSize ≤ x.1 ∨ x.1 + x.2 ≤ a))

/-- **One event** that is not about a live block leaves it live and as it is. -/
theorem Sound.step_spares {e : Event} (hh : Sound c h) (ha : Allowed c h e) (hl : Leaves c x e)
    (hx : x ∈ h.live) (hst : MemoryHeap.step c h e = some h') : x ∈ h'.live ∧ Spares c h h' x := by
  cases e with
  | malloc size =>
    obtain ⟨⟨q, h₁⟩, hm, rfl⟩ := Option.map_eq_some_iff.mp hst
    obtain ⟨q', h₂, bs, hm', hanswer⟩ := hh.malloc ha
    obtain ⟨rfl, rfl⟩ := Prod.mk.inj (Option.some.inj (hm.symm.trans hm'))
    refine ⟨?_, hh.malloc_spares ha hm hx⟩
    rw [hanswer.live]
    exact List.mem_append_right _ hx
  | free p =>
    cases p with
    | none =>
      obtain rfl := Option.some.inj hst
      exact ⟨hx, Spares.refl c h x⟩
    | some p =>
      -- the block that is given back is another one
      refine ⟨?_, hh.free_spares ha hst hx⟩
      rw [free_live hst, List.mem_filter]
      refine ⟨hx, decide_eq_true fun heq => hl ?_⟩
      rw [heq]
  | write w l =>
    obtain rfl := Option.some.inj hst
    refine ⟨hx, fun a => ?_⟩
    by_cases haw : a = w
    · subst haw
      exact Or.inr hl
    · exact Or.inl (Function.update_of_ne haw ..)

/-- **What is stored stays.** From any state of the heap, whatever the application allocates, frees
and writes then, as long as it does not free the block or write to it: no loop runs on, the block
stays live, and every `BlockLink_t` that changes lies outside of it. -/
theorem contents_kept {fs : List Event} (hes : Runs.Along (MemoryHeap.step c) (Allowed c) {} es)
    (hr : Runs.run (MemoryHeap.step c) {} es = some h) (hx : x ∈ h.live)
    (hfs : Runs.Along (MemoryHeap.step c) (fun h e => Allowed c h e ∧ Leaves c x e) h fs) :
    ∃ h', Runs.run (MemoryHeap.step c) h fs = some h' ∧ x ∈ h'.live ∧ Spares c h h' x := by
  obtain ⟨h', hrun, -, hlive, hspares⟩ := Runs.run_total
    (I := fun t => Sound c t ∧ x ∈ t.live ∧ Spares c h t x) (fun t e ⟨hs, hmem, hsp⟩ ⟨ha, hl⟩ => by
      obtain ⟨t', hst, hs'⟩ := hs.step ha
      obtain ⟨hmem', hsp'⟩ := hs.step_spares ha hl hmem hst
      exact ⟨t', hst, hs', hmem', hsp.trans hsp'⟩) ⟨Sound.run hes hr, hx, Spares.refl c h x⟩ hfs
  exact ⟨h', hrun, hlive, hspares⟩

/-- The second of three blocks, while the first is freed, split and merged again -/
theorem contents_kept_second : ∃ h h', Runs.run (MemoryHeap.step smallHeap) {}
      [.malloc 20, .malloc 9, .malloc 30, .write 4145 { xBlockSize := 7 }] = some h ∧
    Runs.run (MemoryHeap.step smallHeap) h
      [.free (some 4112), .malloc 1, .write 4112 {}, .malloc 200, .free (some 4112)] = some h' ∧
    (4144, 9) ∈ h'.live ∧ Spares smallHeap h h' (4144, 9) := by
  obtain ⟨h, hr, hx⟩ := Runs.exists_run (MemoryHeap.step smallHeap) {}
    [.malloc 20, .malloc 9, .malloc 30, .write 4145 { xBlockSize := 7 }]
    (fun h => (4144, 9) ∈ h.live ∧ Runs.Along (MemoryHeap.step smallHeap)
      (fun h e => Allowed smallHeap h e ∧ Leaves smallHeap (4144, 9) e) h
      [.free (some 4112), .malloc 1, .write 4112 {}, .malloc 200, .free (some 4112)]) (by decide)
  obtain ⟨h', hr', hlive, hspares⟩ := contents_kept (by decide) hr hx.1 hx.2
  exact ⟨h, h', hr, hr', hlive, hspares⟩

end MemoryHeap
end Lwcan
