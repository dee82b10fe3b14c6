import Mathlib.Data.List.Perm.Basic
import Lwcan.HeapInsert

/-!
# The integrity of the heap

Under every sequence of `lwcan_malloc` and of `lwcan_free` on live pointers, with the application
writing what it likes into its own memory, the heap stays in one piece.

* `Intact` — the memory holds a list of merged blocks, the used ones being those of the live
  pointers;
* `Intact.init`, `Intact.malloc`, `Intact.free`, `Intact.write` — what the operations make of it;
* `heap_integrity` — what holds in every run.
-/

namespace Lwcan
namespace MemoryHeap

/-- **The heap is in one piece.** The memory holds the blocks `bs`, no two free ones side by side,
the bytes of the free ones are counted, and the used blocks are those of the live pointers, each
with room for its header and what was asked for. -/
structure Intact (c : MemConfig) (h : MemoryHeap) (bs : List Tile) : Prop where
  laid : Laid c h bs
  merged : Merged bs
  bytes : h.xFreeBytesRemaining = freeBytes bs
  header : ∀ b ∈ useds bs, h.size b.addr = b.size + c.allocatedBit ∧ h.next b.addr = none
  keys : (h.live.map Prod.fst).Perm ((useds bs).map (·.addr + c.xHeapStructSize))
  enough : ∀ e ∈ h.live, ∃ b ∈ useds bs, e.1 = b.addr + c.xHeapStructSize ∧
    e.2 + c.xHeapStructSize ≤ b.size

variable {c : MemConfig} {h h' : MemoryHeap} {bs xs ys : List Tile} {b : Tile} {size p : Nat}

/-! ### The initial heap -/

theorem prvHeapInit_laid (c : MemConfig) (h : MemoryHeap) :
    Laid c (h.prvHeapInit c) [⟨c.alignedHeap, c.endAddress - c.alignedHeap, false⟩] := by
  -- The three headers it writes are at addresses apart.
  have hlt := c.aligned_lt_end
  have hae : c.alignedHeap ≠ c.endAddress := hlt.ne
  have hse : c.xStart ≠ c.endAddress := Laid.start_ne_end
  have hsa : c.xStart ≠ c.alignedHeap := by
    rcases c.xStart_outside with ho | ho
    · omega
    · omega
  have hsize : c.usize ((c.endAddress : Int) - c.alignedHeap) = c.endAddress - c.alignedHeap :=
    c.usize_sub hlt.le c.end_lt
  constructor
  case tiles =>
    refine ⟨rfl, ?_⟩
    show c.alignedHeap + (c.endAddress - c.alignedHeap) = c.endAddress
    omega
  case big =>
    intro b hb
    obtain rfl := List.mem_singleton.mp hb
    refine ⟨Nat.dvd_sub c.end_dvd c.aligned_dvd, ?_⟩
    have := c.aligned_struct_le_end
    show c.xHeapStructSize ≤ c.endAddress - c.alignedHeap
    omega
  case header =>
    intro b hb _
    obtain rfl := List.mem_singleton.mp hb
    rw [← hsize]
    simp [prvHeapInit, size, setNext, setSize]
  case linked =>
    show Linked _ [c.xStart, c.alignedHeap, c.endAddress]
    simp [linked_cons, prvHeapInit, next, setNext, setSize, Function.update_of_ne, hae, hse, hsa,
      hae.symm, hse.symm]
  case startSize =>
    simp [prvHeapInit, size, setNext, setSize, Function.update_of_ne, hse, hsa]
  case endSize =>
    simp [prvHeapInit, size, setNext, setSize, Function.update_of_ne, hae.symm]
  case pxEnd => rfl
  case bit => exact Nat.one_shiftLeft _

/-- **The first call** makes one block of the heap. -/
theorem Intact.init (c : MemConfig) (h : MemoryHeap) (hl : h.live = []) :
    Intact c (h.prvHeapInit c) [⟨c.alignedHeap, c.endAddress - c.alignedHeap, false⟩] where
  laid := prvHeapInit_laid c h
  merged := List.isChain_singleton _
  bytes := (prvHeapInit_laid c h).header _ (List.mem_singleton_self _) rfl
  header := nofun
  keys := by
    show List.Perm (h.live.map Prod.fst) _
    rw [hl]
    exact List.Perm.nil
  enough := by
    show ∀ e ∈ h.live, _
    rw [hl]
    nofun

/-! ### What follows for the live pointers -/

/-- Different used blocks belong to different pointers. -/
theorem Intact.nodup (hi : Intact c h bs) : (h.live.map Prod.fst).Nodup := by
  rw [hi.keys.nodup_iff]
  -- the used blocks lie in order of their addresses
  have hused : (useds bs).Pairwise fun b d => b.addr + b.size ≤ d.addr :=
    hi.laid.tiles.pairwise.sublist List.filter_sublist
  apply List.pairwise_map.mpr
  refine hused.imp_of_mem ?_
  intro b d hb _ hbd
  have := hi.laid.pos b (mem_useds.mp hb).1
  omega

theorem Intact.mem_live (hi : Intact c h bs) (hp : p ∈ h.live.map Prod.fst) :
    ∃ b ∈ useds bs, p = b.addr + c.xHeapStructSize := by
  obtain ⟨b, hb, rfl⟩ := List.mem_map.mp (hi.keys.mem_iff.mp hp)
  exact ⟨b, hb, rfl⟩

theorem Intact.aligned (hi : Intact c h bs) : ∀ e ∈ h.live, 8 ∣ e.1 := by
  intro e he
  obtain ⟨b, hb, heq, -⟩ := hi.enough e he
  rw [heq]
  exact Nat.dvd_add (hi.laid.dvd (mem_useds.mp hb).1) c.struct_dvd

/-- **Disjoint**: what was asked for at one pointer ends before the next header begins. -/
theorem Intact.disjoint (hi : Intact c h bs) :
    h.live.Pairwise fun e f => e.1 + e.2 ≤ f.1 ∨ f.1 + f.2 ≤ e.1 := by
  have hnd : h.live.Pairwise fun e f => e.1 ≠ f.1 := List.pairwise_map.mp hi.nodup
  refine hnd.imp_of_mem ?_
  intro e f he hf hne
  obtain ⟨b, hb, heb, hesz⟩ := hi.enough e he
  obtain ⟨d, hd, hfd, hfsz⟩ := hi.enough f hf
  have hb := (mem_useds.mp hb).1
  have hd := (mem_useds.mp hd).1
  -- the two blocks are different, so one lies in front of the other
  have hbd : b ≠ d := by
    rintro rfl
    exact hne (heb.trans hfd.symm)
  rcases hi.laid.tiles.apart hb hd hbd with hle | hle
  · exact Or.inl (by omega)
  · exact Or.inr (by omega)

/-! ### The application's writes -/

/-- What the application may do: it frees nothing or what it has, and writes into its own memory,
where it overlaps a `BlockLink_t`. -/
def Allowed (c : MemConfig) (h : MemoryHeap) : Event → Prop
  | .malloc size => size < 2 ^ c.sizeBits
  | .free none => True
  | .free (some p) => p ∈ h.live.map Prod.fst
  | .write a _ => ∃ e ∈ h.live, e.1 < a + c.blockLinkSize ∧ a < e.1 + e.2

/-- What the application may write to: cells that overlap the memory behind a live pointer. -/
def Writable (c : MemConfig) (h : MemoryHeap) (a : Nat) : Prop :=
  ∃ e ∈ h.live, e.1 < a + c.blockLinkSize ∧ a < e.1 + e.2

/-- **Writes to the application's own memory** leave the heap in one piece. -/
theorem Intact.overwrite (hi : Intact c h bs) {link : Nat → BlockLink}
    (hl : ∀ a, Writable c h a ∨ link a = h.link a) : Intact c { h with link } bs := by
  have hle := c.blockLinkSize_le
  -- a cell that is written lies behind the header of its block and before the next one
  have hkeep : ∀ a, (∀ d ∈ bs, ¬(d.addr + c.xHeapStructSize < a + c.blockLinkSize ∧
      a < d.addr + d.size)) → link a = h.link a := by
    intro a hout
    refine (hl a).resolve_left ?_
    rintro ⟨e, he, hlo, hhi⟩
    obtain ⟨d, hd, hed, hsz⟩ := hi.enough e he
    exact hout d (mem_useds.mp hd).1 ⟨by omega, by omega⟩
  -- the header of a block is no cell of another block's memory, nor of its own
  have hlink : ∀ b ∈ bs, link b.addr = h.link b.addr := by
    intro b hb
    apply hkeep
    rintro d hd ⟨hlo, hhi⟩
    by_cases hbd : b = d
    · subst hbd
      omega
    · have hpos := hi.laid.pos b hb
      rcases hi.laid.tiles.apart hb hd hbd with hap | hap
      · omega
      · omega
  -- the two markers lie outside of all blocks
  have hstart : link c.xStart = h.link c.xStart := by
    apply hkeep
    rintro d hd ⟨hlo, hhi⟩
    have hin := hi.laid.inside hd
    rcases c.xStart_outside with ho | ho
    · omega
    · omega
  have hend : link c.endAddress = h.link c.endAddress := by
    apply hkeep
    rintro d hd ⟨hlo, hhi⟩
    have hin := hi.laid.inside hd
    omega
  exact {
    laid := hi.laid.congr (fun b hb _ => hlink b hb) hstart hend rfl rfl
    merged := hi.merged
    bytes := hi.bytes
    header := fun b hb => by
      have hb' := hlink b (mem_useds.mp hb).1
      have hheader := hi.header b hb
      simp only [MemoryHeap.size, next] at hheader ⊢
      rw [hb']
      exact hheader
    keys := hi.keys
    enough := hi.enough }

theorem Intact.write (hi : Intact c h bs) {a : Nat} {l : BlockLink}
    (ha : Allowed c h (.write a l)) :
    Intact c { h with link := Function.update h.link a l } bs := by
  apply hi.overwrite
  intro x
  by_cases hx : x = a
  · subst hx
    exact Or.inl ha
  · exact Or.inr (Function.update_of_ne hx ..)

/-! ### Freeing -/

/-- The used blocks but that of a pointer -/
def usedsBut (c : MemConfig) (p : Option Nat) (bs : List Tile) : List Tile :=
  (useds bs).filter fun d => some (d.addr + c.xHeapStructSize) ≠ p

@[simp] theorem usedsBut_none (c : MemConfig) (bs : List Tile) : usedsBut c none bs = useds bs :=
  List.filter_eq_self.mpr fun _ _ => rfl

/-- The used blocks but one are those in front of it and those behind it. -/
theorem Laid.usedsBut_eq {us vs : List Tile} (hl : Laid c h bs) (hus : useds bs = us ++ b :: vs) :
    usedsBut c (some (b.addr + c.xHeapStructSize)) bs = us ++ vs := by
  -- the addresses grow along the arena, so no other block has that of `b`
  have hpair : (us ++ b :: vs).Pairwise fun d f => d.addr < f.addr := by
    rw [← hus]
    refine (hl.tiles.pairwise.sublist List.filter_sublist).imp_of_mem ?_
    intro d f hd _ hdf
    have := hl.pos d (mem_useds.mp hd).1
    omega
  obtain ⟨-, hb, hcross⟩ := List.pairwise_append.mp hpair
  have hkeep : ∀ zs : List Tile, (∀ d ∈ zs, d.addr ≠ b.addr) →
      zs.filter (fun d => some (d.addr + c.xHeapStructSize) ≠ some (b.addr + c.xHeapStructSize)) =
        zs := by
    intro zs hzs
    apply List.filter_eq_self.mpr
    intro d hd
    simpa using hzs d hd
  unfold usedsBut
  rw [hus, List.filter_append, List.filter_cons_of_neg (by simp),
    hkeep us fun d hd => (hcross d hd b List.mem_cons_self).ne,
    hkeep vs fun d hd => ((List.pairwise_cons.mp hb).1 d hd).ne']

theorem Laid.freeBytes_lt (hl : Laid c h bs) (hb : b ∈ bs) (hu : b.used) :
    freeBytes bs + b.size < 2 ^ c.sizeBits := by
  have hsum := hl.tiles.sum_size
  have hle := freeBytes_add_le_sum hb hu
  have hend := c.end_lt
  omega

/-- **What freeing computes**: the header of the block, read back, is that of a free one, and the
block goes into the list. -/
theorem Intact.lwcanFree_eq (hi : Intact c h bs) (hb : b ∈ useds bs) :
    h.lwcanFree c (some (b.addr + c.xHeapStructSize)) =
      prvInsertBlockIntoFreeList c { h.setSize b.addr b.size with
        xFreeBytesRemaining := freeBytes bs + b.size } b.addr := by
  obtain ⟨hsize, hnext⟩ := hi.header b hb
  obtain ⟨hmem, hused⟩ := mem_useds.mp hb
  have hbit := c.two_allocatedBit
  have hlt := hi.laid.size_lt hmem
  have hin := hi.laid.inside hmem
  have hend := c.end_struct_le
  have hfits := c.memoryHeap_fits
  have hS := c.struct_pos
  -- the header lies right in front of the pointer
  have hblock : c.usize (((b.addr + c.xHeapStructSize : Nat) : Int) - c.xHeapStructSize) =
      b.addr := by
    have hbig := (hi.laid.big b hmem).2
    rw [c.usize_sub (Nat.le_add_left _ _) (by omega), Nat.add_sub_cancel]
  -- the header says that the block is allocated, and how large it is
  have hset : h.size b.addr &&& h.xBlockAllocatedBit ≠ 0 := by
    rw [hi.laid.bit, hsize]
    apply (c.and_allocatedBit (by omega)).mpr
    omega
  have hclear : h.size b.addr &&& (2 ^ c.sizeBits - 1 - h.xBlockAllocatedBit) = b.size := by
    rw [hi.laid.bit, hsize]
    exact c.clear_allocatedBit hlt
  have hfree : c.usize ((h.xFreeBytesRemaining : Int) + b.size) = freeBytes bs + b.size := by
    rw [hi.bytes, ← Int.natCast_add]
    exact c.usize_natCast (hi.laid.freeBytes_lt hmem hused)
  have hself : (h.setSize b.addr b.size).size b.addr = b.size := size_setSize_self ..
  unfold lwcanFree
  dsimp only
  rw [hblock]
  refine (if_pos hset).trans ((if_pos hnext).trans ?_)
  change prvInsertBlockIntoFreeList c { (h.setSize b.addr (h.size b.addr &&& _)) with
    xFreeBytesRemaining := c.usize ((h.xFreeBytesRemaining : Int) +
      (h.setSize b.addr (h.size b.addr &&& _)).size b.addr) } _ = _
  rw [hclear, hself, hfree]

/-- **A block is no longer used**: the other used blocks, and the pointers to them, are as
before. -/
theorem Intact.freed {us vs bs' : List Tile} (hi : Intact c h bs) (hus : useds bs = us ++ b :: vs)
    (hlaid : Laid c h' bs') (hmerged : Merged bs') (hus' : useds bs' = us ++ vs)
    (hother : ∀ d ∈ us ++ vs, d.addr ≠ b.addr)
    (hlink : ∀ d ∈ us ++ vs, h'.link d.addr = h.link d.addr)
    (hbytes : h'.xFreeBytesRemaining = freeBytes bs')
    (hlive : h'.live = h.live.filter (·.1 ≠ b.addr + c.xHeapStructSize)) : Intact c h' bs' where
  laid := hlaid
  merged := hmerged
  bytes := hbytes
  header := by
    intro d hd
    rw [hus'] at hd
    have hd' : d ∈ useds bs := by
      rw [hus]
      exact (List.Sublist.append_left (List.sublist_cons_self _ _) _).mem hd
    have hheader := hi.header d hd'
    simp only [MemoryHeap.size, next] at hheader ⊢
    rw [hlink d hd]
    exact hheader
  keys := by
    -- the pointer of `b` is the only one that goes
    have hkeep : ∀ zs : List Tile, (∀ d ∈ zs, d.addr ≠ b.addr) →
        (zs.map (·.addr + c.xHeapStructSize)).filter (· ≠ b.addr + c.xHeapStructSize) =
          zs.map (·.addr + c.xHeapStructSize) := by
      intro zs hzs
      apply List.filter_eq_self.mpr
      intro k hk
      obtain ⟨d, hd, rfl⟩ := List.mem_map.mp hk
      simpa using hzs d hd
    have hperm := hi.keys.filter (· ≠ b.addr + c.xHeapStructSize)
    rw [List.filter_map, hus, List.map_append, List.map_cons,
      List.filter_append, List.filter_cons_of_neg (by simp),
      hkeep _ fun d hd => hother d (List.mem_append_left _ hd),
      hkeep _ fun d hd => hother d (List.mem_append_right _ hd)] at hperm
    rw [hlive, hus', List.map_append]
    exact hperm
  enough := by
    rw [hlive, hus']
    intro e he
    obtain ⟨he, hne⟩ := List.mem_filter.mp he
    obtain ⟨d, hd, hed, hsz⟩ := hi.enough e he
    refine ⟨d, ?_, hed, hsz⟩
    rw [hus] at hd
    -- the block behind a pointer that stays is not the one that goes
    rcases List.mem_append.mp hd with hd | hd
    · exact List.mem_append_left _ hd
    · rcases List.mem_cons.mp hd with rfl | hd
      · simp [hed] at hne
      · exact List.mem_append_right _ hd

/-- What is noted of the pointers is no matter of the memory. -/
theorem Laid.takeBack (hl : Laid c h bs) (p : Option Nat) : Laid c (h.takeBack p) bs :=
  hl.congr (fun _ _ _ => rfl) rfl rfl rfl rfl

/-- **Freeing** a live pointer -/
theorem Intact.free (hi : Intact c h bs) (hp : p ∈ h.live.map Prod.fst) :
    ∃ h' bs', h.free c (some p) = some h' ∧ Intact c h' bs' ∧
      useds bs' = usedsBut c (some p) bs := by
  obtain ⟨b, hb, rfl⟩ := hi.mem_live hp
  unfold MemoryHeap.free
  rw [hi.lwcanFree_eq hb]
  obtain ⟨hmem, hused⟩ := mem_useds.mp hb
  obtain ⟨xs, ys, rfl⟩ := List.append_of_mem hmem
  -- the block once its header is that of a free one
  have hlaid : Laid c { h.setSize b.addr b.size with
      xFreeBytesRemaining := freeBytes (xs ++ b :: ys) + b.size } (xs ++ b :: ys) :=
    hi.laid.write_used hmem hused (fun q hq => link_setSize h _ hq) rfl rfl
  -- the list takes it in, and it merges with free neighbours
  obtain ⟨h', bs', hins, hmerge, hlink, hfree, hlive⟩ := hlaid.prvInsert hused
    (size_setSize_self ..) hi.merged.left hi.merged.right.tail
  have hother : ∀ d ∈ useds xs ++ useds ys, d.addr ≠ b.addr := by
    intro d hd
    rw [← useds_append] at hd
    exact hi.laid.addr_ne (mem_useds.mp hd).1
  have hus : useds (xs ++ b :: ys) = useds xs ++ b :: useds ys := by
    rw [useds_append, useds_cons_used hused]
  refine ⟨h'.takeBack (some (b.addr + c.xHeapStructSize)), bs', congrArg (Option.map _) hins,
    hi.freed (b := b) hus (hmerge.laid.takeBack _) hmerge.merged hmerge.useds hother
      (fun d hd => ?_) ?_ ?_,
    hmerge.useds.trans (hi.laid.usedsBut_eq hus).symm⟩
  · exact (hlink d hd).trans (link_setSize h _ (hother d hd))
  · show h'.xFreeBytesRemaining = _
    rw [hfree, hmerge.bytes]
    show freeBytes (xs ++ b :: ys) + b.size = _
    rw [freeBytes_append, freeBytes_cons_used hused]
    omega
  · exact congrArg (List.filter _) hlive

/-! ### Allocating -/

/-- The loop passes a free block that is too small. -/
theorem Laid.passes (hl : Laid c h (xs ++ ys)) {w a : Nat}
    (hsmall : ∀ b ∈ xs, b.used = false → b.size < w) (ha : a ∈ frees xs) :
    (!(h.size a < w && (h.next a).isSome)) = false := by
  obtain ⟨b, hb, hf, rfl⟩ := mem_frees.mp ha
  have hsize : h.size b.addr < w := by
    rw [hl.header b (List.mem_append_left _ hb) hf]
    exact hsmall b hb hf
  have hnext : (h.next b.addr).isSome := by
    obtain ⟨us, vs, rfl⟩ := List.append_of_mem hb
    have hlink := hl.linked
    rw [List.append_assoc, List.cons_append, frees_append, frees_cons_free hf, List.append_assoc,
      ← List.cons_append] at hlink
    rw [hlink.next_eq]
    cases frees (vs ++ ys) <;> rfl
  simp [hsize, hnext]

/-- **No free block is large enough**: the loop reaches the end marker. -/
theorem Laid.firstFit_end (hl : Laid c h bs) {w : Nat}
    (hsmall : ∀ b ∈ bs, b.used = false → b.size < w) :
    ∃ previous, h.firstFit c w = some (some (some previous, c.endAddress)) := by
  have hlink := hl.linked.2
  -- the end marker has no successor, which ends the loop whatever its size
  have hstop : (!(h.size c.endAddress < w && (h.next c.endAddress).isSome)) = true := by
    have hnext : h.next c.endAddress = none := hlink.next_eq
    simp [hnext]
  have hpass : ∀ a ∈ frees bs, (!(h.size a < w && (h.next a).isSome)) = false := by
    intro a ha
    rw [← List.append_nil bs] at hl
    exact hl.passes hsmall ha
  -- the loop has fuel for every free block
  have hfuel : (frees bs).length < fuel c := by
    have := hl.length_lt
    omega
  have hwalk := walk_eq_some (some c.xStart) hlink hpass hstop hfuel
  rw [← hl.linked.1] at hwalk
  unfold firstFit
  rw [hwalk]
  cases (frees bs).getLast? with
  | none => exact ⟨_, rfl⟩
  | some previous => exact ⟨_, rfl⟩

/-- **The first free block that is large enough** is found, with the last cell in front of it. -/
theorem Laid.firstFit_block (hl : Laid c h (xs ++ b :: ys)) {w it : Nat} {P : List Nat}
    (hb : b.used = false) (hP : c.xStart :: frees xs = P ++ [it]) (hw : w ≤ b.size)
    (hsmall : ∀ d ∈ xs, d.used = false → d.size < w) :
    h.firstFit c w = some (some (some it, b.addr)) := by
  have hlink := hl.linked
  rw [frees_append, frees_cons_free hb, List.append_assoc, List.cons_append] at hlink
  have hstop : (!(h.size b.addr < w && (h.next b.addr).isSome)) = true := by
    have hsize : ¬h.size b.addr < w := by
      rw [hl.header b (by simp) hb]
      omega
    simp [hsize]
  have hfuel : (frees xs).length < fuel c := by
    have hlen := hl.length_lt
    rw [frees_append, List.length_append] at hlen
    omega
  have hwalk := walk_eq_some (some c.xStart) hlink.2
    (fun a ha => hl.passes hsmall ha) hstop hfuel
  -- the last cell passed is the one in front of the block
  have hlast : (frees xs).getLast?.or (some c.xStart) = some it := by
    have hgl := congrArg List.getLast? hP
    rw [List.getLast?_cons, List.getLast?_concat] at hgl
    rw [← hgl]
    cases (frees xs).getLast? <;> rfl
  rw [hlast, ← hlink.1] at hwalk
  exact hwalk

/-- What `lwcan_malloc(size)` answers: a live pointer with so many bytes, or null, which for a size
other than 0 means that no free block is large enough. -/
structure Answered (c : MemConfig) (h : MemoryHeap) (size : Nat) (p : Option Nat) (h' : MemoryHeap)
    (bs : List Tile) : Prop where
  intact : Intact c h' bs
  live : h'.live = p.toList.map (·, size) ++ h.live
  refused : p = none → size ≠ 0 → ∀ b ∈ bs, b.used = false → b.size < c.needed size

/-- A block goes to the application. -/
theorem Intact.allocated {us vs bs₁ : List Tile} {h₁ : MemoryHeap} (hi : Intact c h bs)
    (hus : useds bs = us ++ vs) (hlaid : Laid c h₁ bs₁) (hmerged : Merged bs₁)
    (hus₁ : useds bs₁ = us ++ b :: vs) (hsize : h₁.size b.addr = b.size)
    (hlink : ∀ d ∈ us ++ vs, h₁.link d.addr = h.link d.addr)
    (hbytes : h₁.xFreeBytesRemaining = freeBytes bs₁ + b.size) (hlive : h₁.live = h.live)
    (hroom : size + c.xHeapStructSize ≤ b.size) :
    Answered c h size (some (b.addr + c.xHeapStructSize))
      ((h₁.allocate c b.addr).handOut (some (b.addr + c.xHeapStructSize)) size) bs₁ := by
  have hb : b ∈ useds bs₁ := by
    rw [hus₁]
    simp
  obtain ⟨hmem, hused⟩ := mem_useds.mp hb
  have hother : ∀ q, q ≠ b.addr → (h₁.allocate c b.addr).link q = h₁.link q := by
    intro q hq
    exact (link_setNext _ _ hq).trans (link_setSize _ _ hq)
  have hbit := hlaid.size_lt hmem
  have hlaid' : Laid c (h₁.allocate c b.addr) bs₁ := hlaid.write_used hmem hused hother rfl rfl
  refine ⟨?_, ?_, nofun⟩
  · constructor
    case laid => exact hlaid'.congr (fun _ _ _ => rfl) rfl rfl rfl rfl
    case merged => exact hmerged
    case bytes =>
      show c.usize ((h₁.xFreeBytesRemaining : Int) - h₁.size b.addr) = freeBytes bs₁
      rw [hsize, hbytes, c.usize_sub (Nat.le_add_left _ _) (hlaid.freeBytes_lt hmem hused),
        Nat.add_sub_cancel]
    -- the header of the block is marked; the others are not touched
    case header =>
      intro d hd
      by_cases hdb : d = b
      · subst hdb
        refine ⟨?_, next_setNext_self ..⟩
        show ((_ : MemoryHeap).setNext d.addr none).size d.addr = _
        rw [size_setNext, size_setSize_self]
        show h₁.size d.addr ||| h₁.xBlockAllocatedBit = _
        rw [hsize, hlaid.bit, c.or_allocatedBit hbit]
      · have hne : d.addr ≠ b.addr := fun heq =>
          hdb (hlaid.tiles.eq_of_addr hlaid.pos (mem_useds.mp hd).1 hmem heq)
        have hd' : d ∈ us ++ vs := by
          rw [hus₁] at hd
          rcases List.mem_append.mp hd with hd | hd
          · exact List.mem_append_left _ hd
          rcases List.mem_cons.mp hd with heq | hd
          · exact absurd heq hdb
          · exact List.mem_append_right _ hd
        have heq : (h₁.allocate c b.addr).link d.addr = h.link d.addr :=
          (hother _ hne).trans (hlink d hd')
        have hheader := hi.header d (hus ▸ hd')
        simp only [MemoryHeap.size, next, handOut] at hheader ⊢
        rw [heq]
        exact hheader
    -- the new pointer is one more, and no other changes
    case keys =>
      show ((_, size) :: h₁.live |>.map Prod.fst).Perm _
      rw [hus₁, hlive, List.map_append, List.map_cons, List.map_cons]
      refine (List.Perm.cons _ ?_).trans List.perm_middle.symm
      rw [← List.map_append, ← hus]
      exact hi.keys
    case enough =>
      show ∀ e ∈ (_, size) :: h₁.live, _
      rw [hlive]
      refine List.forall_mem_cons.mpr ⟨⟨b, hb, rfl, hroom⟩, ?_⟩
      intro e he
      obtain ⟨d, hd, hed⟩ := hi.enough e he
      refine ⟨d, ?_, hed⟩
      rw [hus] at hd
      rw [hus₁]
      exact (List.Sublist.append_left (List.sublist_cons_self _ _) _).mem hd
  · show _ :: h₁.live = _
    rw [hlive]
    rfl

/-- **Split**, and write the headers of the two parts. -/
theorem Laid.split_headers {m : Nat} (hl : Laid c h (xs ++ b :: ys)) (hb : b.used) (hdvd : 8 ∣ m)
    (hm : c.xHeapStructSize ≤ m) (hrest : m + c.xHeapStructSize ≤ b.size) :
    Laid c ((h.setSize (b.addr + m) (b.size - m)).setSize b.addr m)
      (xs ++ ⟨b.addr, m, true⟩ :: ⟨b.addr + m, b.size - m, true⟩ :: ys) := by
  have hparts := hl.split hb hdvd hm hrest
  -- the header of the second part is written first
  have hsecond := hparts.write_used (b := ⟨b.addr + m, b.size - m, true⟩) (by simp) rfl
    (fun q hq => link_setSize h (b.size - m) hq) rfl rfl
  exact hsecond.write_used (b := ⟨b.addr, m, true⟩) (by simp) rfl
    (fun q hq => link_setSize _ m hq) rfl rfl

/-- Relinking the free block in front writes no header of a used block. -/
theorem Laid.link_behind {it : Nat} {P : List Nat} (hl : Laid c h (xs ++ ys))
    (hP : c.xStart :: frees xs = P ++ [it]) (next : Option Nat) {d : Tile}
    (hd : d ∈ useds (xs ++ ys)) : (h.setNext it next).link d.addr = h.link d.addr := by
  obtain ⟨hd, hu⟩ := mem_useds.mp hd
  have hit : it ∈ c.xStart :: frees xs := by
    rw [hP]
    simp
  apply link_setNext
  apply hl.used_ne hd hu
  rw [frees_append, ← List.cons_append]
  exact List.mem_append_left _ hit

/-- **Taking** the block that was found: all of it, or its first part. -/
theorem Intact.take {it : Nat} {P : List Nat} (hi : Intact c h (xs ++ b :: ys))
    (hb : b.used = false) (hP : c.xStart :: frees xs = P ++ [it]) (hw : c.needed size ≤ b.size) :
    ∃ h' bs', h.take c it b.addr (c.needed size) = some h' ∧
      Answered c h size (some (b.addr + c.xHeapStructSize))
        (h'.handOut (some (b.addr + c.xHeapStructSize)) size) bs' ∧
      useds (xs ++ b :: ys) = usedsBut c (some (b.addr + c.xHeapStructSize)) bs' := by
  have hmem : b ∈ xs ++ b :: ys := by simp
  -- once the cell in front is relinked, the block is in nobody's list
  have hlaid := hi.laid.unlink hb hP
  have hsize : h.size b.addr = b.size := hi.laid.header b hmem hb
  have hneeded := c.le_needed size
  have hS := c.struct_pos
  have hus : useds (xs ++ b :: ys) = useds xs ++ useds ys := by
    rw [useds_append, useds_cons_free hb]
  have hfree : freeBytes (xs ++ b :: ys) = freeBytes xs + (b.size + freeBytes ys) := by
    rw [freeBytes_append, freeBytes_cons_free hb]
  have hother : ∀ d ∈ useds xs ++ useds ys, d.addr ≠ b.addr := by
    intro d hd
    rw [← useds_append] at hd
    exact hi.laid.addr_ne (mem_useds.mp hd).1
  -- what is left of the block does not wrap
  have hrest : c.usize ((h.size b.addr : Int) - c.needed size) = b.size - c.needed size := by
    have hlt := hi.laid.size_lt hmem
    have hbit := c.two_allocatedBit
    rw [hsize]
    exact c.usize_sub hw (by omega)
  have hsame : ∀ d ∈ useds xs ++ useds ys, (h.setNext it (h.next b.addr)).link d.addr =
      h.link d.addr := fun d hd => hi.laid.link_behind hP _ (hus ▸ hd)
  unfold MemoryHeap.take
  dsimp only
  rw [size_setNext, hrest]
  by_cases hsplit : c.minimumBlockSize < b.size - c.needed size
  · -- what is left is large enough to be a block of its own, and goes back into the list
    rw [if_pos hsplit]
    rw [MemConfig.minimumBlockSize, Nat.shiftLeft_eq] at hsplit
    have hne : b.addr ≠ b.addr + c.needed size := by omega
    have hparts := hlaid.split_headers rfl (c.needed_dvd size) (by omega)
      (show c.needed size + c.xHeapStructSize ≤ b.size by omega)
    rw [List.append_cons] at hparts
    obtain ⟨h', bs', hins, hmerge, hlink, hfree', hlive'⟩ := hparts.prvInsert rfl
      ((size_setSize _ _ hne.symm).trans (size_setSize_self ..))
      (hi.merged.left.insert_used Merged.nil rfl) hi.merged.right.tail
    dsimp only at hins hlink hfree' hlive'
    rw [hins]
    have hus' : useds bs' = useds xs ++ ⟨b.addr, c.needed size, true⟩ :: useds ys := by
      rw [hmerge.useds, useds_append, useds_cons_used rfl, useds_nil, List.append_assoc]
      rfl
    refine
      ⟨_, bs', rfl, hi.allocated (b := ⟨b.addr, c.needed size, true⟩) hus hmerge.laid hmerge.merged
      hus' ?_ ?_ ?_ hlive' ?_, hus.trans (hmerge.laid.usedsBut_eq hus').symm⟩
    -- the header of the first part is as it was written
    · have hfirst := hlink ⟨b.addr, c.needed size, true⟩ (by simp [useds_cons_used])
      rw [MemoryHeap.size, hfirst]
      exact size_setSize_self ..
    · intro d hd
      -- no other used block shares an address with the cells that were written
      have hd' : d ∈ useds (xs ++ [⟨b.addr, c.needed size, true⟩]) ++ useds ys := by
        rw [useds_append, List.append_assoc]
        exact (List.Sublist.append_left (List.sublist_append_right _ _) _).mem hd
      have hnew : d.addr ≠ b.addr + c.needed size := by
        rw [← useds_append] at hd'
        exact hparts.addr_ne (mem_useds.mp hd').1
      exact (hlink d hd').trans ((link_setSize _ _ (hother d hd)).trans
        ((link_setSize _ _ hnew).trans (hsame d hd)))
    · rw [hfree', hmerge.bytes]
      show h.xFreeBytesRemaining = _
      rw [hi.bytes, hfree, freeBytes_append, freeBytes_cons_used rfl, freeBytes_nil]
      dsimp only
      omega
    · exact hneeded
  · -- what is left is too small: the application gets the whole block
    rw [if_neg hsplit]
    have hus' : useds (xs ++ { b with used := true } :: ys) =
        useds xs ++ { b with used := true } :: useds ys := by
      rw [useds_append, useds_cons_used rfl]
    refine
      ⟨_, _, rfl, hi.allocated (b := { b with used := true }) hus hlaid ?_ hus' ?_ hsame ?_ rfl ?_,
      hus.trans (hlaid.usedsBut_eq hus').symm⟩
    · exact hi.merged.left.insert_used hi.merged.right.tail rfl
    · rw [size_setNext]
      exact hsize
    · show h.xFreeBytesRemaining = _
      rw [hi.bytes, hfree, freeBytes_append, freeBytes_cons_used rfl]
      dsimp only
      omega
    · exact hneeded.trans hw

/-- A refusal leaves the heap as it is. -/
theorem Intact.refuse (hi : Intact c h bs)
    (hsmall : size ≠ 0 → ∀ b ∈ bs, b.used = false → b.size < c.needed size) :
    Answered c h size none h bs :=
  ⟨hi, rfl, fun _ => hsmall⟩

/-- **Allocating** from an initialised heap -/
theorem Intact.mallocInit (hi : Intact c h bs) (hsize : size < 2 ^ c.sizeBits) :
    ∃ p h' bs', h.mallocInit c size = some (p, h') ∧ Answered c h size p (h'.handOut p size) bs' ∧
      useds bs = usedsBut c p bs' := by
  have hneeded := c.le_needed size
  unfold MemoryHeap.mallocInit
  rw [hi.laid.bit]
  by_cases hbit : c.allocatedBit ≤ size
  · -- more than half of the address space
    rw [if_pos ((c.and_allocatedBit hsize).mpr hbit)]
    refine ⟨_, _, bs, rfl, hi.refuse fun _ b hb _ => ?_, (usedsBut_none ..).symm⟩
    have := hi.laid.size_lt hb
    omega
  rw [if_neg (fun hand => hbit ((c.and_allocatedBit hsize).mp hand))]
  dsimp only
  rcases Nat.eq_zero_or_pos size with rfl | hpos
  · rw [if_pos (Or.inl c.wantedSize_zero)]
    exact ⟨_, _, bs, rfl, hi.refuse fun h0 => absurd rfl h0, (usedsBut_none ..).symm⟩
  rw [c.wantedSize_eq hpos (by omega)]
  by_cases hroom : h.xFreeBytesRemaining < c.needed size
  · -- more than all free blocks together
    rw [if_pos (Or.inr hroom)]
    refine ⟨_, _, bs, rfl, hi.refuse fun _ b hb hf => ?_, (usedsBut_none ..).symm⟩
    have := size_le_freeBytes hb hf
    rw [hi.bytes] at hroom
    omega
  rw [if_neg (by omega)]
  -- the loop finds no block that is large enough, or the first of them
  rcases first_fit bs (c.needed size) with hsmall | ⟨xs, b, ys, rfl, hb, hfit, hbefore⟩
  · obtain ⟨previous, hfound⟩ := hi.laid.firstFit_end hsmall
    rw [hfound]
    dsimp only
    rw [if_pos hi.laid.pxEnd.symm]
    exact ⟨_, _, bs, rfl, hi.refuse fun _ => hsmall, (usedsBut_none ..).symm⟩
  · obtain ⟨P, it, hP⟩ : ∃ P it, c.xStart :: frees xs = P ++ [it] :=
      ⟨_, _, (List.dropLast_append_getLast (List.cons_ne_nil _ _)).symm⟩
    have hne : some b.addr ≠ h.pxEnd := by
      rw [hi.laid.pxEnd]
      simpa using hi.laid.ne_end (by simp : b ∈ xs ++ b :: ys)
    have hnext : h.next it = some b.addr := by
      have hlink := hi.laid.linked_at hP
      rw [frees_cons_free hb] at hlink
      exact hlink.next_eq
    obtain ⟨h', bs', htake, hanswer, hus⟩ := hi.take hb hP hfit
    rw [hi.laid.firstFit_block hb hP hfit hbefore]
    dsimp only
    rw [if_neg hne, htake, hnext]
    exact ⟨_, _, bs', rfl, hanswer, hus⟩

/-- The first call sets the heap up, and then does what it does in a heap that was. -/
theorem malloc_init (hend : h.pxEnd = none) (size : Nat) :
    h.malloc c size = (h.prvHeapInit c).malloc c size := by
  unfold MemoryHeap.malloc lwcanMalloc
  rw [if_pos hend, if_neg (show ¬(h.prvHeapInit c).pxEnd = none from nofun)]

theorem Intact.malloc (hi : Intact c h bs) (hsize : size < 2 ^ c.sizeBits) :
    ∃ p h' bs', h.malloc c size = some (p, h') ∧ Answered c h size p h' bs' ∧
      useds bs = usedsBut c p bs' := by
  obtain ⟨p, h', bs', hrun, hanswer, hus⟩ := hi.mallocInit hsize
  refine ⟨p, h'.handOut p size, bs', ?_, hanswer, hus⟩
  unfold MemoryHeap.malloc lwcanMalloc
  rw [if_neg (by rw [hi.laid.pxEnd]; simp), hrun]
  rfl

/-- Before the first call nothing is allocated; from then on the heap is in one piece. -/
def Sound (c : MemConfig) (h : MemoryHeap) : Prop :=
  h.pxEnd = none ∧ h.live = [] ∨ ∃ bs, Intact c h bs

/-- **Allocating**, the first time or later -/
theorem Sound.malloc (hh : Sound c h)
    (hsize : size < 2 ^ c.sizeBits) :
    ∃ p h' bs', h.malloc c size = some (p, h') ∧ Answered c h size p h' bs' := by
  rcases hh with ⟨hend, hlive⟩ | ⟨bs, hi⟩
  · rw [malloc_init hend]
    obtain ⟨p, h', bs', hrun, hanswer, -⟩ := (Intact.init c h hlive).malloc hsize
    exact ⟨p, h', bs', hrun, hanswer.intact, hanswer.live, hanswer.refused⟩
  · obtain ⟨p, h', bs', hrun, hanswer, -⟩ := hi.malloc hsize
    exact ⟨p, h', bs', hrun, hanswer⟩

/-! ### Runs -/

/-- **One event** that is allowed -/
theorem Sound.step {e : Event} (hh : Sound c h) (he : Allowed c h e) :
    ∃ h', MemoryHeap.step c h e = some h' ∧ Sound c h' := by
  cases e with
  | malloc size =>
    obtain ⟨p, h', bs', hrun, hanswer⟩ := hh.malloc he
    refine ⟨h', ?_, Or.inr ⟨bs', hanswer.intact⟩⟩
    rw [MemoryHeap.step, hrun]
    rfl
  | free p =>
    cases p with
    | none => exact ⟨h, rfl, hh⟩
    | some p =>
      -- before the first allocation nothing is live that could be given back
      rcases hh with ⟨-, hlive⟩ | ⟨bs, hi⟩
      · rw [Allowed, hlive] at he
        cases he
      · obtain ⟨h', bs', hrun, hi', -⟩ := hi.free he
        exact ⟨h', hrun, Or.inr ⟨bs', hi'⟩⟩
  | write a l =>
    -- the application writes inside its blocks, where no header lies
    refine ⟨_, rfl, ?_⟩
    rcases hh with ⟨-, hlive⟩ | ⟨bs, hi⟩
    · obtain ⟨e, hmem, -⟩ := he
      rw [hlive] at hmem
      cases hmem
    · exact Or.inr ⟨bs, hi.write he⟩

/-- Before the first call nothing is allocated. -/
theorem Sound.initial (c : MemConfig) : Sound c {} := Or.inl ⟨rfl, rfl⟩

/-- A run of calls that are allowed leads to a heap, and to a sound one. -/
theorem Sound.total {es : List Event} (hes : Runs.Along (MemoryHeap.step c) (Allowed c) {} es) :
    ∃ h, Runs.run (MemoryHeap.step c) {} es = some h ∧ Sound c h :=
  Runs.run_total (fun _ _ hs ha => Sound.step hs ha) (Sound.initial c) hes

/-- Whatever heap a run leads to is sound. -/
theorem Sound.run {es : List Event} (hes : Runs.Along (MemoryHeap.step c) (Allowed c) {} es)
    (hr : Runs.run (MemoryHeap.step c) {} es = some h) : Sound c h := by
  obtain ⟨t, ht, hs⟩ := Sound.total hes
  obtain rfl := Option.some.inj (hr.symm.trans ht)
  exact hs

/-- **The integrity of the heap.** The blocks `bs` tile the arena up to `pxEnd`, as their headers
say; the free list is what is free of them, sorted by address, without two blocks side by side, and
counted; the used blocks are those of the live pointers, which are aligned, apart from each other,
and have the bytes that were asked for. Without live pointers there is the one initial block. -/
structure Integrity (c : MemConfig) (h : MemoryHeap) (bs : List Tile) : Prop where
  tiles : Tiles c.alignedHeap bs c.endAddress
  pxEnd : h.pxEnd = some c.endAddress
  header : ∀ b ∈ bs, h.size b.addr = if b.used then b.size + c.allocatedBit else b.size
  freeList : Linked h.next (c.xStart :: (frees bs ++ [c.endAddress]))
  sorted : (frees bs).Pairwise (· < ·)
  merged : Merged bs
  bytes : h.xFreeBytesRemaining = freeBytes bs
  owners : (h.live.map Prod.fst).Perm ((useds bs).map (·.addr + c.xHeapStructSize))
  aligned : ∀ e ∈ h.live, 8 ∣ e.1
  enough : ∀ e ∈ h.live, ∃ b ∈ useds bs, e.1 = b.addr + c.xHeapStructSize ∧
    e.1 + e.2 ≤ b.addr + b.size
  disjoint : h.live.Pairwise fun e f => e.1 + e.2 ≤ f.1 ∨ f.1 + f.2 ≤ e.1
  restored : h.live = [] → bs = [⟨c.alignedHeap, c.endAddress - c.alignedHeap, false⟩]

theorem Intact.integrity (hi : Intact c h bs) : Integrity c h bs where
  tiles := hi.laid.tiles
  pxEnd := hi.laid.pxEnd
  header := by
    intro b hb
    cases hu : b.used with
    | false => exact hi.laid.header b hb hu
    | true => exact (hi.header b (mem_useds.mpr ⟨hb, hu⟩)).1
  freeList := hi.laid.linked
  sorted := hi.laid.tiles.frees_pairwise hi.laid.pos
  merged := hi.merged
  bytes := hi.bytes
  owners := hi.keys
  aligned := hi.aligned
  enough := by
    intro e he
    obtain ⟨b, hb, heb, hsz⟩ := hi.enough e he
    exact ⟨b, hb, heb, by omega⟩
  disjoint := hi.disjoint
  restored := by
    intro hlive
    have hkeys := hi.keys
    rw [hlive] at hkeys
    have hnone : useds bs = [] := List.map_eq_nil_iff.mp (List.nil_perm.mp hkeys)
    -- a merged tiling without a used block is the one block of a new heap
    have hinit := prvHeapInit_laid c h
    exact hi.merged.eq_of_useds
      (List.isChain_singleton _) hi.laid.tiles hinit.tiles hi.laid.pos hinit.pos
      hnone

/-- **Heap integrity.** For every heap and every run of `lwcan_malloc`, of `lwcan_free` on live
pointers, and of writes of the application to its own memory: no loop runs on, nothing is allocated
before the first call and the heap is in one piece after it. Whatever is asked for then, the answer
is a null pointer or a new live pointer in such a heap, and a null pointer for a size other than 0
says that no free block can hold the size and a header, rounded up to 8. -/
theorem heap_integrity (c : MemConfig) (es : List Event)
    (hes : Runs.Along (MemoryHeap.step c) (Allowed c) {} es) :
    ∃ h, Runs.run (MemoryHeap.step c) {} es = some h ∧
      (h.pxEnd = none ∧ h.live = [] ∨ ∃ bs, Integrity c h bs) ∧
      ∀ size < 2 ^ c.sizeBits, ∃ p h' bs, h.malloc c size = some (p, h') ∧
        Integrity c h' bs ∧ h'.live = p.toList.map (·, size) ++ h.live ∧
        (p = none → size ≠ 0 → ∀ b ∈ bs, b.used = false → b.size < c.needed size) := by
  obtain ⟨h, hrun, hh⟩ := Sound.total hes
  refine ⟨h, hrun, hh.imp id (fun ⟨bs, hi⟩ => ⟨bs, hi.integrity⟩), ?_⟩
  intro size hsize
  obtain ⟨p, h', bs, hmalloc, hanswer⟩ := hh.malloc hsize
  exact ⟨p, h', bs, hmalloc, hanswer.intact.integrity, hanswer.live, hanswer.refused⟩

instance (c : MemConfig) (h : MemoryHeap) : (e : Event) → Decidable (Allowed c h e)
  | .malloc size => inferInstanceAs (Decidable (size < 2 ^ c.sizeBits))
  | .free none => isTrue True.intro
  | .free (some p) => inferInstanceAs (Decidable (p ∈ h.live.map Prod.fst))
  | .write a _ =>
    inferInstanceAs (Decidable (∃ e ∈ h.live, e.1 < a + c.blockLinkSize ∧ a < e.1 + e.2))

/-- 512 bytes of a 32-bit program, not aligned -/
def smallHeap : MemConfig where
  sizeBits := 32
  blockLinkSize := 8
  lwcanMemSize := 512
  memoryHeap := 4100
  xStart := 4612
  sizeBits_pos := by decide
  blockLinkSize_pos := by decide
  memoryHeap_pos := by decide
  memoryHeap_fits := by decide
  object_size := by decide
  xStart_apart := by decide
  room := by decide

/-- Three blocks, the second of which is freed and plugs no gap, and the first, which is then merged
with it. -/
def smallRun : List Event :=
  [.malloc 20, .malloc 9, .malloc 30, .write 4115 { xBlockSize := 7 }, .free (some 4144),
    .free (some 4112), .malloc 4000000000, .malloc 0]

theorem heap_integrity_small :
    ∃ h, Runs.run (MemoryHeap.step smallHeap) {} smallRun = some h ∧
      (h.pxEnd = none ∧ h.live = [] ∨ ∃ bs, Integrity smallHeap h bs) ∧
      ∀ size < 2 ^ 32, ∃ p h' bs, h.malloc smallHeap size = some (p, h') ∧
        Integrity smallHeap h' bs ∧ h'.live = p.toList.map (·, size) ++ h.live ∧
        (p = none → size ≠ 0 → ∀ b ∈ bs, b.used = false → b.size < smallHeap.needed size) :=
  heap_integrity smallHeap smallRun (by decide)

end MemoryHeap
end Lwcan
