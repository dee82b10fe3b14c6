import Lwcan.HeapIntegrity

/-!
# The blocks of `lwcan_calloc`

`lwcan_calloc(number, size)` should return a block for `number * size` bytes, all of them zero, or a
null pointer. It computes the product in `size_t` and keeps it in a `uint32_t`: a product that does
not fit both is cut, and the block is for the rest.

* `CallocOk` — whatever block is returned, it is large enough, and zero;
* `callocNum_eq_mod` — the number of bytes asked for;
* `calloc_ok_iff` — a call that returns a block is right if and only if the product fits.
-/

namespace Lwcan

namespace MemConfig

variable (c : MemConfig) (number size : Nat)

/-- The bits of the product that `lwcan_calloc` keeps -/
def productBits : Nat := min 32 c.sizeBits

/-- **The product is cut** to the bits that a `size_t` and a `uint32_t` have. -/
theorem callocNum_eq_mod : c.callocNum number size = number * size % 2 ^ c.productBits := by
  have hbits : u32 (c.usize ((number * size : Nat) : Int)) =
      number * size % 2 ^ c.sizeBits % 2 ^ 32 := by
    unfold usize u32
    rw [← Int.natCast_emod, Int.toNat_natCast]
    omega
  unfold callocNum productBits
  rw [hbits]
  rcases Nat.le_total 32 c.sizeBits with h | h
  · rw [Nat.min_eq_left h, Nat.mod_mod_of_dvd _ (pow_dvd_pow 2 h)]
  · rw [Nat.min_eq_right h, Nat.mod_mod_of_dvd' (pow_dvd_pow 2 h)]

theorem callocNum_lt : c.callocNum number size < 2 ^ c.sizeBits := by
  rw [c.callocNum_eq_mod]
  calc number * size % 2 ^ c.productBits < 2 ^ c.productBits := Nat.mod_lt _ (Nat.two_pow_pos _)
    _ ≤ 2 ^ c.sizeBits := Nat.pow_le_pow_right (by decide) (Nat.min_le_right _ _)

end MemConfig

namespace MemoryHeap

/-- The bytes behind a pointer that the application may use: those of its block but for the
header -/
def usableSize (c : MemConfig) (h : MemoryHeap) (p : Nat) : Nat :=
  (h.size (p - c.xHeapStructSize) &&& (2 ^ c.sizeBits - 1 - h.xBlockAllocatedBit)) -
    c.xHeapStructSize

/-- **The block is large enough, and zero**: if `lwcan_calloc` returns one, whatever was in the
memory. -/
def CallocOk (c : MemConfig) (h : MemoryHeap) (number size : Nat) : Prop :=
  ∀ mem cells p h' mem', h.lwcanCalloc c mem cells number size = some (some p, h', mem') →
    number * size ≤ h'.usableSize c p ∧ ∀ i < number * size, mem' (p + i) = 0

variable {c : MemConfig} {h h' : MemoryHeap} {bs : List Tile} {es : List Event}
  {p number size : Nat}

/-- What the header in front of a live pointer says -/
theorem Intact.usableSize (hi : Intact c h bs) (he : (p, size) ∈ h.live) :
    size ≤ h.usableSize c p := by
  obtain ⟨b, hb, hp, hroom⟩ := hi.enough _ he
  have hlt := hi.laid.size_lt (mem_useds.mp hb).1
  have haddr : p - c.xHeapStructSize = b.addr := Nat.sub_eq_of_eq_add hp
  unfold MemoryHeap.usableSize
  rw [haddr, (hi.header b hb).1, hi.laid.bit, c.clear_allocatedBit hlt]
  exact Nat.le_sub_of_add_le hroom

/-- Assigning the bytes behind a pointer leaves the header in front of it alone. -/
theorem usableSize_fill (h : MemoryHeap) (n : Nat) (cells : Nat → BlockLink)
    (hp : c.xHeapStructSize ≤ p) : (h.fill c p n cells).usableSize c p = h.usableSize c p := by
  have hle := c.blockLinkSize_le
  -- the header ends where the block begins
  have hout : ¬(p < p - c.xHeapStructSize + c.blockLinkSize ∧ p - c.xHeapStructSize < p + n) := by
    rintro ⟨hlt, -⟩
    omega
  unfold usableSize size fill
  simp only [if_neg hout]

/-- What `lwcan_calloc` does with the block that `lwcan_malloc` returns -/
theorem lwcanCalloc_eq (hm : h.lwcanMalloc c (c.callocNum number size) = some (some p, h'))
    (mem : Nat → UInt8) (cells : Nat → BlockLink) :
    h.lwcanCalloc c mem cells number size =
      some (some p, h'.fill c p (c.callocNum number size) cells,
        Mem.blit mem p (fun _ => 0) (c.callocNum number size)) := by
  unfold lwcanCalloc
  simp only [hm, Option.map_some]

/-- **`lwcan_calloc` is right** if and only if the product fits: in every heap that a run leads to,
a call that returns a block at all. -/
theorem calloc_ok_iff (hes : Runs.Along (MemoryHeap.step c) (Allowed c) {} es)
    (hr : Runs.run (MemoryHeap.step c) {} es = some h)
    (hp : h.lwcanMalloc c (c.callocNum number size) = some (some p, h')) :
    CallocOk c h number size ↔ number * size < 2 ^ min 32 c.sizeBits := by
  constructor
  · intro hok
    by_contra hbig
    -- the first byte that is not asked for keeps what it held
    have hlt : c.callocNum number size < number * size := by
      rw [c.callocNum_eq_mod]
      exact (Nat.mod_lt _ (Nat.two_pow_pos _)).trans_le (Nat.le_of_not_lt hbig)
    have hzero := (hok _ _ _ _ _ (lwcanCalloc_eq hp (fun _ => 1) h'.link)).2 _ hlt
    unfold Mem.blit at hzero
    rw [if_neg fun hin => Nat.lt_irrefl _ hin.2] at hzero
    cases hzero
  · intro hfit mem cells q u mem' hq
    have hnum : c.callocNum number size = number * size := by
      rw [c.callocNum_eq_mod]
      exact Nat.mod_eq_of_lt hfit
    rw [lwcanCalloc_eq hp, hnum] at hq
    obtain ⟨hpq, hrest⟩ := Prod.mk.inj (Option.some.inj hq)
    obtain ⟨rfl, rfl⟩ := Prod.mk.inj hrest
    obtain rfl := Option.some.inj hpq
    -- the block is a live pointer's, with the bytes that were asked for
    obtain ⟨r, t, bs, hm, hanswer⟩ := (Sound.run hes hr).malloc (c.callocNum_lt number size)
    unfold MemoryHeap.malloc at hm
    rw [hp] at hm
    obtain ⟨rfl, rfl⟩ := Prod.mk.inj (Option.some.inj hm)
    have hlive : (p, number * size) ∈ (h'.handOut (some p) (c.callocNum number size)).live := by
      rw [hanswer.live, ← hnum]
      exact List.mem_cons_self
    have hheader : c.xHeapStructSize ≤ p := by
      obtain ⟨b, -, hpb, -⟩ := hanswer.intact.enough _ hlive
      exact (Nat.le_add_left _ b.addr).trans_eq hpb.symm
    -- what the memset writes lies behind the header
    refine ⟨?_, fun i hi => Mem.blit_add _ _ _ hi⟩
    rw [usableSize_fill h' _ _ hheader]
    exact hanswer.intact.usableSize hlive

/-- Ten times four bytes -/
theorem calloc_ok_forty : ∃ h p h', Runs.run (MemoryHeap.step smallHeap) {} smallRun = some h ∧
    h.lwcanMalloc smallHeap (smallHeap.callocNum 10 4) = some (some p, h') ∧
    (CallocOk smallHeap h 10 4 ↔ 10 * 4 < 2 ^ min 32 smallHeap.sizeBits) := by
  obtain ⟨h, hr, hsome⟩ := Runs.exists_run (MemoryHeap.step smallHeap) {} smallRun
    (fun h => ((h.lwcanMalloc smallHeap (smallHeap.callocNum 10 4)).bind Prod.fst).isSome)
    (by decide)
  obtain ⟨p, hp⟩ := Option.isSome_iff_exists.mp hsome
  obtain ⟨⟨q, h'⟩, hm, rfl⟩ := Option.bind_eq_some_iff.mp hp
  exact ⟨h, p, h', hr, hm, calloc_ok_iff (by decide) hr hm⟩

/-- **A block of eight bytes for more than four thousand million**: the product is `2 ^ 32 + 8`. -/
theorem calloc_too_small : ¬∀ (c : MemConfig) (es : List Event) (h : MemoryHeap)
    (number size : Nat),
    Runs.Along (MemoryHeap.step c) (Allowed c) {} es → Runs.run (MemoryHeap.step c) {} es = some h →
      number < 2 ^ c.sizeBits → size < 2 ^ c.sizeBits → CallocOk c h number size := by
  intro hall
  have hok := hall smallHeap [] {} 2147483652 2 trivial rfl (by decide) (by decide)
  have hsome :
      (((({} : MemoryHeap).lwcanCalloc smallHeap (fun _ => 1) (fun _ => {}) 2147483652 2).bind
      Prod.fst).isSome) := by decide
  obtain ⟨p, hp⟩ := Option.isSome_iff_exists.mp hsome
  obtain ⟨⟨q, h', mem'⟩, hc, rfl⟩ := Option.bind_eq_some_iff.mp hp
  -- the ninth byte is not zeroed
  have hzero := (hok _ _ _ _ _ hc).2 8 (by decide)
  have hmem :
      ((({} : MemoryHeap).lwcanCalloc smallHeap (fun _ => 1) (fun _ => {}) 2147483652 2).bind
      fun x => x.1.map fun p => x.2.2 (p + 8)) = some 1 := by decide
  rw [hc] at hmem
  have hone : mem' (p + 8) = 1 := Option.some.inj hmem
  rw [hzero] at hone
  cases hone

end MemoryHeap
end Lwcan
