import Mathlib.Data.Nat.Bitwise
import Lwcan.Lib.Tiling
import Lwcan.MemoryHeap

/-!
# The blocks of the heap

The blocks of `memory_heap` tile it from its aligned start to the end marker, and the free ones are
linked in the order of their addresses.

* `MemConfig` — where the arena begins and ends, and what the arithmetic in `size_t` comes to;
* `Laid` — the memory holds a list of blocks: the headers of the free ones, and the links;
* `Laid.insert`, `Laid.unlink`, `Laid.extend`, `Laid.absorb`, `Laid.split` — the edits the allocator
  is made of.
-/

namespace Lwcan

/-! ### The arena -/

namespace MemConfig

variable (c : MemConfig)

/-- The bit of an allocated block -/
def allocatedBit : Nat := 2 ^ (c.sizeBits - 1)

theorem two_allocatedBit : 2 * c.allocatedBit = 2 ^ c.sizeBits := by
  rw [allocatedBit, ← pow_succ', Nat.sub_add_cancel c.sizeBits_pos]

theorem usize_natCast {n : Nat} (h : n < 2 ^ c.sizeBits) : c.usize n = n := by
  rw [usize, ← Int.natCast_emod, Int.toNat_natCast, Nat.mod_eq_of_lt h]

theorem usize_sub {m n : Nat} (hmn : n ≤ m) (hm : m < 2 ^ c.sizeBits) :
    c.usize ((m : Int) - n) = m - n := by
  rw [← Int.natCast_sub hmn]
  exact c.usize_natCast (by omega)

theorem struct_dvd : 8 ∣ c.xHeapStructSize := Dvd.intro_left _ rfl

theorem blockLinkSize_le : c.blockLinkSize ≤ c.xHeapStructSize := by
  unfold xHeapStructSize
  omega

theorem struct_pos : 0 < c.xHeapStructSize := c.blockLinkSize_pos.trans_le c.blockLinkSize_le

theorem alignedHeap_eq : c.alignedHeap = (c.memoryHeap + 7) / 8 * 8 := by
  unfold alignedHeap
  split <;> omega

theorem aligned_dvd : 8 ∣ c.alignedHeap := by
  rw [c.alignedHeap_eq]
  exact Dvd.intro_left _ rfl

theorem memoryHeap_le_aligned : c.memoryHeap ≤ c.alignedHeap := by
  rw [c.alignedHeap_eq]
  omega

/-- There is room for a header and the end marker. -/
theorem aligned_room :
    c.alignedHeap + 2 * c.xHeapStructSize ≤ c.memoryHeap + c.lwcanMemSize := by
  rw [c.alignedHeap_eq]
  exact c.room

theorem lwcanMemSize_lt : c.lwcanMemSize < c.allocatedBit := c.object_size

theorem totalHeapSize_eq :
    c.totalHeapSize = c.lwcanMemSize - (c.alignedHeap - c.memoryHeap) := by
  have hroom := c.aligned_room
  have hle := c.memoryHeap_le_aligned
  have hobj := c.lwcanMemSize_lt
  have hbit := c.two_allocatedBit
  unfold totalHeapSize
  split
  · exact c.usize_sub (by omega) (by omega)
  · next h =>
    have halign : c.alignedHeap = c.memoryHeap := if_neg h
    omega

theorem endAddress_eq :
    c.endAddress = (c.memoryHeap + c.lwcanMemSize - c.xHeapStructSize) / 8 * 8 := by
  have hroom := c.aligned_room
  have hle := c.memoryHeap_le_aligned
  have hfits := c.memoryHeap_fits
  have hS := c.struct_pos
  have hsum : c.alignedHeap + c.totalHeapSize = c.memoryHeap + c.lwcanMemSize := by
    rw [c.totalHeapSize_eq]
    omega
  have hz : ((c.memoryHeap + c.lwcanMemSize : Nat) : Int) - c.xHeapStructSize
      = ((c.memoryHeap + c.lwcanMemSize - c.xHeapStructSize : Nat) : Int) := by omega
  rw [endAddress, hsum, hz, c.usize_natCast (by omega)]

theorem end_dvd : 8 ∣ c.endAddress := by
  rw [c.endAddress_eq]
  exact Dvd.intro_left _ rfl

/-- The first block has room for its header. -/
theorem aligned_struct_le_end : c.alignedHeap + c.xHeapStructSize ≤ c.endAddress := by
  have hroom := c.aligned_room
  obtain ⟨i, hi⟩ := c.struct_dvd
  obtain ⟨j, hj⟩ := c.aligned_dvd
  rw [c.endAddress_eq]
  omega

theorem aligned_lt_end : c.alignedHeap < c.endAddress := by
  have := c.aligned_struct_le_end
  have := c.struct_pos
  omega

/-- The end marker lies in the arena. -/
theorem end_struct_le : c.endAddress + c.xHeapStructSize ≤ c.memoryHeap + c.lwcanMemSize := by
  have hroom := c.aligned_room
  rw [c.endAddress_eq]
  omega

theorem end_lt : c.endAddress < 2 ^ c.sizeBits := by
  have := c.end_struct_le
  have := c.struct_pos
  have := c.memoryHeap_fits
  omega

/-- No block is as large as the bit of an allocated block. -/
theorem arena_lt : c.endAddress - c.alignedHeap < c.allocatedBit := by
  have := c.end_struct_le
  have := c.memoryHeap_le_aligned
  have := c.lwcanMemSize_lt
  omega

/-- `xStart` lies outside the arena. -/
theorem xStart_outside : c.xStart < c.alignedHeap ∨ c.endAddress < c.xStart := by
  have := c.end_struct_le
  have := c.memoryHeap_le_aligned
  have := c.struct_pos
  rcases c.xStart_apart with h | h
  · exact Or.inl (by omega)
  · exact Or.inr (by omega)

/-- The size of a block for so many bytes: the header included, rounded up to 8. -/
def needed (size : Nat) : Nat := (size + c.xHeapStructSize + 7) / 8 * 8

theorem needed_dvd (size : Nat) : 8 ∣ c.needed size := Dvd.intro_left _ rfl

theorem le_needed (size : Nat) : size + c.xHeapStructSize ≤ c.needed size := by
  unfold needed
  omega

/-- **The wanted size** is the needed one. -/
theorem wantedSize_eq {size : Nat} (hpos : 0 < size) (hsize : size < c.allocatedBit) :
    c.wantedSize size = c.needed size := by
  have hS : 8 ≤ c.xHeapStructSize := Nat.le_of_dvd c.struct_pos c.struct_dvd
  -- two headers fit below the bit, so no sum overflows
  have hsum : size + c.xHeapStructSize + 8 < 2 ^ c.sizeBits := by
    have hroom := c.aligned_room
    have hle := c.memoryHeap_le_aligned
    have hlt := c.lwcanMemSize_lt
    have hbit := c.two_allocatedBit
    omega
  have hadd : ∀ k, k ≤ 8 → c.usize ((size + c.xHeapStructSize : Nat) + (k : Nat) : Int)
      = size + c.xHeapStructSize + k := by
    intro k hk
    rw [← Int.natCast_add]
    exact c.usize_natCast (by omega)
  have h0 : c.usize ((size : Int) + c.xHeapStructSize) = size + c.xHeapStructSize := by
    rw [← Int.natCast_add]
    exact c.usize_natCast (by omega)
  unfold wantedSize needed
  rw [h0, if_pos ⟨hpos, by omega⟩]
  dsimp only
  split
  · next hmod =>
    rw [hadd _ (by omega), if_pos (by omega)]
    omega
  · omega

theorem wantedSize_zero : c.wantedSize 0 = 0 := if_neg (by simp)

/-- **The bit of an allocated block** in a size -/
theorem and_allocatedBit {n : Nat} (hn : n < 2 ^ c.sizeBits) :
    n &&& c.allocatedBit ≠ 0 ↔ c.allocatedBit ≤ n := by
  have hbit := c.two_allocatedBit
  have hpos : 0 < c.allocatedBit := Nat.two_pow_pos _
  have htest : n.testBit (c.sizeBits - 1) = decide (c.allocatedBit ≤ n) := by
    rw [Nat.testBit_eq_decide_div_mod_eq]
    apply decide_eq_decide.mpr
    show n / c.allocatedBit % 2 = 1 ↔ _
    rcases Nat.lt_or_ge n c.allocatedBit with hlt | hge
    · rw [Nat.div_eq_of_lt hlt]
      omega
    · have hdiv : n / c.allocatedBit = 1 := Nat.div_eq_of_lt_le (by omega) (by omega)
      rw [hdiv]
      omega
  have hand : n &&& c.allocatedBit = (decide (c.allocatedBit ≤ n)).toNat * c.allocatedBit := by
    rw [← htest]
    exact Nat.and_two_pow _ _
  rw [hand]
  by_cases h : c.allocatedBit ≤ n
  · simp [h, hpos.ne']
  · simp [h]

theorem or_allocatedBit {n : Nat} (hn : n < c.allocatedBit) :
    n ||| c.allocatedBit = n + c.allocatedBit := by
  have h := Nat.two_pow_add_eq_or_of_lt hn 1
  rw [Nat.mul_one] at h
  rw [Nat.or_comm, Nat.add_comm]
  exact h.symm

theorem clear_allocatedBit {n : Nat} (hn : n < c.allocatedBit) :
    (n + c.allocatedBit) &&& (2 ^ c.sizeBits - 1 - c.allocatedBit) = n := by
  have hmask : 2 ^ c.sizeBits - 1 - c.allocatedBit = 2 ^ (c.sizeBits - 1) - 1 := by
    have hbit := c.two_allocatedBit
    show _ = c.allocatedBit - 1
    omega
  rw [hmask, Nat.and_two_pow_sub_one_eq_mod]
  show (n + c.allocatedBit) % c.allocatedBit = n
  rw [Nat.add_mod_right, Nat.mod_eq_of_lt hn]

end MemConfig

namespace MemoryHeap

/-! ### Writes to a header -/

section Writes

variable (h : MemoryHeap) (p q n : Nat) (l : Option Nat)

@[simp] theorem next_setNext_self : (h.setNext p l).next p = l := by simp [setNext, next]

@[simp] theorem size_setSize_self : (h.setSize p n).size p = n := by simp [setSize, size]

@[simp] theorem next_setSize : (h.setSize p n).next q = h.next q := by
  by_cases hq : q = p
  · subst hq
    simp [setSize, next]
  · simp [setSize, next, Function.update_of_ne hq]

@[simp] theorem size_setNext : (h.setNext p l).size q = h.size q := by
  by_cases hq : q = p
  · subst hq
    simp [setNext, size]
  · simp [setNext, size, Function.update_of_ne hq]

variable {p q} in
theorem link_setNext (hq : q ≠ p) : (h.setNext p l).link q = h.link q :=
  Function.update_of_ne hq ..

variable {p q} in
theorem link_setSize (hq : q ≠ p) : (h.setSize p n).link q = h.link q :=
  Function.update_of_ne hq ..

theorem next_eq_update : (h.setNext p l).next = Function.update h.next p l := by
  ext1 q
  by_cases hq : q = p
  · subst hq
    rw [next_setNext_self, Function.update_self]
  · rw [Function.update_of_ne hq, next, link_setNext h l hq, next]

variable {p q} in
theorem size_setSize (hq : q ≠ p) : (h.setSize p n).size q = h.size q := by
  rw [size, link_setSize h n hq, size]

variable {p q} in
theorem setNext_comm (hpq : p ≠ q) (m : Option Nat) :
    (h.setNext p l).setNext q m = (h.setNext q m).setNext p l := by
  unfold setNext
  dsimp only
  rw [Function.update_of_ne hpq, Function.update_of_ne hpq.symm, Function.update_comm hpq]

theorem setNext_setNext (m : Option Nat) : (h.setNext p l).setNext p m = h.setNext p m := by
  simp [setNext]

theorem setSize_setNext_comm :
    (h.setSize p n).setNext q l = (h.setNext q l).setSize p n := by
  by_cases hpq : q = p
  · subst hpq
    simp [setNext, setSize]
  · unfold setNext setSize
    dsimp only
    rw [Function.update_of_ne hpq, Function.update_of_ne (Ne.symm hpq), Function.update_comm hpq]

theorem setNext_next : h.setNext p (h.next p) = h := by
  simp [setNext, next]

@[simp] theorem pxEnd_setNext : (h.setNext p l).pxEnd = h.pxEnd := rfl
@[simp] theorem pxEnd_setSize : (h.setSize p n).pxEnd = h.pxEnd := rfl
@[simp] theorem bit_setNext : (h.setNext p l).xBlockAllocatedBit = h.xBlockAllocatedBit := rfl
@[simp] theorem bit_setSize : (h.setSize p n).xBlockAllocatedBit = h.xBlockAllocatedBit := rfl
@[simp] theorem free_setNext : (h.setNext p l).xFreeBytesRemaining = h.xFreeBytesRemaining := rfl
@[simp] theorem free_setSize : (h.setSize p n).xFreeBytesRemaining = h.xFreeBytesRemaining := rfl
@[simp] theorem live_setNext : (h.setNext p l).live = h.live := rfl
@[simp] theorem live_setSize : (h.setSize p n).live = h.live := rfl

end Writes

/-! ### What the memory holds -/

/-- **The memory holds the blocks**: they tile the arena, each has room for its header and is a
multiple of 8, the header of a free block says its size, and the free blocks are linked from
`xStart` to the end marker in the order of their addresses. The header of a used block may say
anything. -/
structure Laid (c : MemConfig) (h : MemoryHeap) (bs : List Tile) : Prop where
  tiles : Tiles c.alignedHeap bs c.endAddress
  big : ∀ b ∈ bs, 8 ∣ b.size ∧ c.xHeapStructSize ≤ b.size
  header : ∀ b ∈ bs, b.used = false → h.size b.addr = b.size
  linked : Linked h.next (c.xStart :: (frees bs ++ [c.endAddress]))
  startSize : h.size c.xStart = 0
  endSize : h.size c.endAddress = 0
  pxEnd : h.pxEnd = some c.endAddress
  bit : h.xBlockAllocatedBit = c.allocatedBit

variable {c : MemConfig} {h h' : MemoryHeap} {bs xs ys : List Tile} {b f g n : Tile} {a p : Nat}

namespace Laid

theorem pos (hl : Laid c h bs) (b : Tile) (hb : b ∈ bs) : 0 < b.size :=
  c.struct_pos.trans_le (hl.big b hb).2

theorem inside (hl : Laid c h bs) (hb : b ∈ bs) :
    c.alignedHeap ≤ b.addr ∧ b.addr + b.size ≤ c.endAddress := hl.tiles.mem hb

theorem ne_end (hl : Laid c h bs) (hb : b ∈ bs) : b.addr ≠ c.endAddress := by
  have := (hl.inside hb).2
  have := hl.pos b hb
  omega

theorem ne_start (hl : Laid c h bs) (hb : b ∈ bs) : b.addr ≠ c.xStart := by
  have := hl.inside hb
  rcases c.xStart_outside with ho | ho
  · omega
  · omega

theorem start_ne_end : c.xStart ≠ c.endAddress := by
  have := c.aligned_lt_end
  rcases c.xStart_outside with ho | ho
  · omega
  · omega

/-- The block is smaller than the bit of an allocated block. -/
theorem size_lt (hl : Laid c h bs) (hb : b ∈ bs) : b.size < c.allocatedBit := by
  have := hl.inside hb
  have := c.arena_lt
  omega

theorem dvd (hl : Laid c h bs) (hb : b ∈ bs) : 8 ∣ b.addr :=
  hl.tiles.dvd_addr c.aligned_dvd (fun b hb => (hl.big b hb).1) hb

/-- The other blocks lie at other addresses. -/
theorem addr_ne (hl : Laid c h (xs ++ n :: ys)) (hb : b ∈ xs ++ ys) : b.addr ≠ n.addr := by
  obtain ⟨hx, hy⟩ := tiles_middle.mp hl.tiles
  have hn := hl.pos n (by simp)
  rcases List.mem_append.mp hb with hb | hb
  · have := (hx.mem hb).2
    have := hl.pos b (by simp [hb])
    omega
  · have := (hy.mem hb).1
    omega

/-- A cell of the list of free blocks is that of another block, if the block is used. -/
theorem notMem_frees (hl : Laid c h (xs ++ n :: ys)) (hn : n.used) :
    n.addr ∉ c.xStart :: (frees (xs ++ n :: ys) ++ [c.endAddress]) := by
  have hmem : n ∈ xs ++ n :: ys := by simp
  rw [frees_append, frees_cons_used hn, ← frees_append]
  simp only [List.mem_cons, List.mem_append, List.not_mem_nil, or_false, not_or]
  refine ⟨hl.ne_start hmem, ?_, hl.ne_end hmem⟩
  intro hf
  obtain ⟨b, hb, -, hbn⟩ := mem_frees.mp hf
  exact hl.addr_ne hb hbn

/-- A used block is no cell of the list of free blocks. -/
theorem used_ne (hl : Laid c h bs) (hb : b ∈ bs) (hu : b.used)
    (ha : a ∈ c.xStart :: frees bs) : b.addr ≠ a := by
  rintro rfl
  rcases List.mem_cons.mp ha with ha | ha
  · exact hl.ne_start hb ha
  · obtain ⟨x, hx, hf, hxb⟩ := mem_frees.mp ha
    obtain rfl := hl.tiles.eq_of_addr hl.pos hx hb hxb
    rw [hu] at hf
    cases hf

/-- **What is not a free block's header may be written.** -/
theorem congr (hl : Laid c h bs) (hb : ∀ b ∈ bs, b.used = false → h'.link b.addr = h.link b.addr)
    (hs : h'.link c.xStart = h.link c.xStart) (he : h'.link c.endAddress = h.link c.endAddress)
    (hp : h'.pxEnd = h.pxEnd) (hbit : h'.xBlockAllocatedBit = h.xBlockAllocatedBit) :
    Laid c h' bs where
  tiles := hl.tiles
  big := hl.big
  header b hmem hf := by
    rw [size, hb b hmem hf]
    exact hl.header b hmem hf
  linked := by
    apply hl.linked.congr
    -- the chain runs through `xStart`, the free blocks and `pxEnd`, all unchanged
    intro a ha
    have hlink : h'.link a = h.link a := by
      rcases List.mem_cons.mp ha with rfl | ha
      · exact hs
      rcases List.mem_append.mp ha with ha | ha
      · obtain ⟨b, hmem, hf, rfl⟩ := mem_frees.mp ha
        exact hb b hmem hf
      · obtain rfl := List.mem_singleton.mp ha
        exact he
    rw [next, hlink, next]
  startSize := by
    rw [size, hs]
    exact hl.startSize
  endSize := by
    rw [size, he]
    exact hl.endSize
  pxEnd := hp.trans hl.pxEnd
  bit := hbit.trans hl.bit

/-- The header of a used block may be written. -/
theorem write_used (hl : Laid c h bs) (hb : b ∈ bs) (hu : b.used)
    (hlink : ∀ q, q ≠ b.addr → h'.link q = h.link q) (hp : h'.pxEnd = h.pxEnd)
    (hbit : h'.xBlockAllocatedBit = h.xBlockAllocatedBit) : Laid c h' bs := by
  refine hl.congr (fun x hx hf => hlink _ ?_) (hlink _ (hl.ne_start hb).symm)
    (hlink _ (hl.ne_end hb).symm) hp hbit
  intro hxb
  obtain rfl := hl.tiles.eq_of_addr hl.pos hx hb hxb
  rw [hu] at hf
  cases hf

/-- The links around a place in the list of blocks: `it` is the last cell in front of it. -/
theorem linked_at {P : List Nat} {it : Nat} (hl : Laid c h (xs ++ ys))
    (hP : c.xStart :: frees xs = P ++ [it]) :
    Linked h.next (P ++ it :: (frees ys ++ [c.endAddress])) := by
  have heq : c.xStart :: (frees (xs ++ ys) ++ [c.endAddress]) =
      P ++ it :: (frees ys ++ [c.endAddress]) := by
    rw [frees_append, List.append_assoc, ← List.cons_append, hP, List.append_assoc]
    rfl
  rw [← heq]
  exact hl.linked

/-- The last cell in front of a place is no used block and not the end marker. -/
theorem last_ne {P : List Nat} {it : Nat} (hl : Laid c h (xs ++ ys))
    (hP : c.xStart :: frees xs = P ++ [it]) (hb : b ∈ ys) : it ≠ b.addr ∧ it ≠ c.endAddress := by
  have hit : it ∈ c.xStart :: frees xs := by
    rw [hP]
    simp
  rcases List.mem_cons.mp hit with rfl | hit
  · exact ⟨(hl.ne_start (List.mem_append_right _ hb)).symm, start_ne_end⟩
  · obtain ⟨x, hx, -, rfl⟩ := mem_frees.mp hit
    refine ⟨?_, hl.ne_end (List.mem_append_left _ hx)⟩
    obtain ⟨zs, ws, rfl⟩ := List.append_of_mem hb
    rw [← List.append_assoc] at hl
    exact hl.addr_ne (by simp [hx])

/-- **Insert** a block into the list of the free ones, behind the last one in front of it. -/
theorem insert {P : List Nat} {it : Nat} (hl : Laid c h (xs ++ n :: ys)) (hn : n.used)
    (hs : h.size n.addr = n.size) (hP : c.xStart :: frees xs = P ++ [it]) :
    Laid c ((h.setNext n.addr (frees ys ++ [c.endAddress]).head?).setNext it (some n.addr))
      (xs ++ { n with used := false } :: ys) where
  tiles := by
    obtain ⟨hx, hy⟩ := tiles_middle.mp hl.tiles
    exact tiles_middle.mpr ⟨hx, hy⟩
  big := forall_middle.mpr (forall_middle.mp hl.big)
  header := by
    simp only [size_setNext]
    exact forall_middle.mpr ⟨fun _ => hs, (forall_middle.mp hl.header).2⟩
  linked := by
    -- `it` is the last free block in front of `n`, or `xStart`
    have hlink := hl.linked_at hP
    have hmem := hl.notMem_frees hn
    rw [frees_append, List.append_assoc, ← List.cons_append, hP, List.append_assoc,
      List.singleton_append] at hmem
    rw [frees_cons_used hn] at hlink hmem
    rw [frees_append, frees_cons_free rfl, List.append_assoc, ← List.cons_append, hP,
      List.append_assoc, next_eq_update, next_eq_update]
    exact hlink.splice hmem
  startSize := by
    rw [size_setNext, size_setNext]
    exact hl.startSize
  endSize := by
    rw [size_setNext, size_setNext]
    exact hl.endSize
  pxEnd := hl.pxEnd
  bit := hl.bit

/-- **Unlink** a free block: the last one in front of it takes over what follows. -/
theorem unlink {P : List Nat} {it : Nat} (hl : Laid c h (xs ++ b :: ys)) (hb : b.used = false)
    (hP : c.xStart :: frees xs = P ++ [it]) :
    Laid c (h.setNext it (h.next b.addr)) (xs ++ { b with used := true } :: ys) where
  tiles := by
    obtain ⟨hx, hy⟩ := tiles_middle.mp hl.tiles
    exact tiles_middle.mpr ⟨hx, hy⟩
  big := forall_middle.mpr (forall_middle.mp hl.big)
  header := by
    simp only [size_setNext]
    exact forall_middle.mpr ⟨nofun, (forall_middle.mp hl.header).2⟩
  linked := by
    have hlink := hl.linked_at hP
    rw [frees_cons_free hb, List.cons_append] at hlink
    rw [next_eq_update, frees_append, frees_cons_used rfl, List.append_assoc, ← List.cons_append,
      hP, List.append_assoc]
    exact hlink.unlink
  startSize := (size_setNext ..).trans hl.startSize
  endSize := (size_setNext ..).trans hl.endSize
  pxEnd := hl.pxEnd
  bit := hl.bit

/-- **Extend**: a free block takes over the used block behind it. -/
theorem extend (hl : Laid c h (xs ++ f :: n :: ys)) (hf : f.used = false) (hn : n.used) :
    Laid c (h.setSize f.addr (f.size + n.size))
      (xs ++ ⟨f.addr, f.size + n.size, false⟩ :: ys) where
  tiles := by
    obtain ⟨hx, hn, hy⟩ := tiles_middle.mp hl.tiles
    refine tiles_middle.mpr ⟨hx, ?_⟩
    rw [← Nat.add_assoc]
    exact hy
  big := by
    obtain ⟨hbf, hrest⟩ := forall_middle.mp hl.big
    obtain ⟨hbn, hrest⟩ := forall_middle.mp hrest
    exact forall_middle.mpr
      ⟨⟨Nat.dvd_add hbf.1 hbn.1, hbf.2.trans (Nat.le_add_right _ _)⟩, hrest⟩
  header := by
    refine forall_middle.mpr ⟨fun _ => size_setSize_self .., ?_⟩
    intro b hb hbf
    have hb : b ∈ xs ++ n :: ys :=
      (List.Sublist.append_left (List.sublist_cons_self n ys) xs).mem hb
    rw [size_setSize h _ (hl.addr_ne hb)]
    exact (forall_middle.mp hl.header).2 b hb hbf
  linked := by
    -- the free block was in the chain already, and `n` was not
    have hlink := hl.linked
    have heq : (h.setSize f.addr (f.size + n.size)).next = h.next := funext fun q => next_setSize ..
    rw [frees_append, frees_cons_free hf, frees_cons_used hn] at hlink
    rw [heq, frees_append, frees_cons_free rfl]
    exact hlink
  startSize := (size_setSize h _ (hl.ne_start (by simp)).symm).trans hl.startSize
  endSize := (size_setSize h _ (hl.ne_end (by simp)).symm).trans hl.endSize
  pxEnd := hl.pxEnd
  bit := hl.bit

/-- **Absorb**: a free block takes over the free block behind it. -/
theorem absorb (hl : Laid c h (xs ++ f :: g :: ys)) (hf : f.used = false) (hg : g.used = false) :
    Laid c ((h.setSize f.addr (f.size + g.size)).setNext f.addr (h.next g.addr))
      (xs ++ ⟨f.addr, f.size + g.size, false⟩ :: ys) := by
  have hP : c.xStart :: frees (xs ++ [f]) = c.xStart :: frees xs ++ [f.addr] := by
    rw [frees_append, frees_cons_free hf, frees_nil]
    rfl
  rw [List.append_cons] at hl
  have hunlinked := hl.unlink hg hP
  rw [← List.append_cons] at hunlinked
  rw [setSize_setNext_comm]
  exact hunlinked.extend hf rfl

/-- **Split** a used block: no header changes. -/
theorem split {m : Nat} (hl : Laid c h (xs ++ b :: ys)) (hb : b.used) (hdvd : 8 ∣ m)
    (hm : c.xHeapStructSize ≤ m) (hrest : m + c.xHeapStructSize ≤ b.size) :
    Laid c h (xs ++ ⟨b.addr, m, true⟩ :: ⟨b.addr + m, b.size - m, true⟩ :: ys) where
  tiles := by
    obtain ⟨hx, hy⟩ := tiles_middle.mp hl.tiles
    refine tiles_middle.mpr ⟨hx, rfl, ?_⟩
    -- the two parts together are as long as the block was
    have hsum : b.addr + m + (b.size - m) = b.addr + b.size := by omega
    show Tiles (b.addr + m + (b.size - m)) ys _
    rw [hsum]
    exact hy
  big := by
    obtain ⟨hbig, hothers⟩ := forall_middle.mp hl.big
    refine forall_middle.mpr
      ⟨⟨hdvd, hm⟩, forall_middle.mpr ⟨⟨Nat.dvd_sub hbig.1 hdvd, ?_⟩, hothers⟩⟩
    show c.xHeapStructSize ≤ b.size - m
    omega
  header := forall_middle.mpr ⟨nofun,
    forall_middle.mpr ⟨nofun, (forall_middle.mp hl.header).2⟩⟩
  linked := by
    -- both parts still count as allocated, so the chain has neither
    have hlink := hl.linked
    rw [frees_append, frees_cons_used hb] at hlink
    rw [frees_append, frees_cons_used rfl, frees_cons_used rfl]
    exact hlink
  startSize := hl.startSize
  endSize := hl.endSize
  pxEnd := hl.pxEnd
  bit := hl.bit

end Laid

end MemoryHeap
end Lwcan
