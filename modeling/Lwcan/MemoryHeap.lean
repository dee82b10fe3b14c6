import Mathlib.Algebra.Group.Nat.Defs
import Lwcan.Lib.Linked
import Lwcan.Lib.Runs
import Lwcan.Types

/-!
# The allocator (`src/memory.c`)

A first-fit allocator over the array `memory_heap`. Every block begins with a `BlockLink_t`; the
free blocks are linked in the order of their addresses, from `xStart` to `pxEnd`, and the top bit of
a block's size says that it is allocated.

Addresses are numbers, a null pointer is `none`. The model has a `BlockLink_t` at each address: for
blocks, which do not overlap, that is exact. What the application writes into its blocks is an event
of its own. The functions work in `size_t`: a result is taken modulo 2^n where an operation could
leave the range.

A loop that follows the links has more fuel than there are blocks in the arena; if it is not through
by then it never ends, and the function has no result.

The statistics (`xMinimumEverFreeBytesRemaining`, `xNumberOfSuccessfulAllocations`,
`xNumberOfSuccessfulFrees`) are left out: no function returns them or depends on them. The field
`live` is not the source's, and none of its functions reads or changes it: it notes what callers
were returned and have not passed to `lwcan_free` since (`malloc`, `free`), with the size that was
asked for.
-/

namespace Lwcan

/-- Where and how `memory.c` is built: the width of `size_t`, `sizeof(BlockLink_t)`,
`LWCAN_MEM_SIZE`, and the addresses of `memory_heap` and `xStart`. The two are objects of the
program, so they lie in the address space without overlap, and none is larger than half of it. The
array has room for a block and the end marker. -/
structure MemConfig where
  /-- `sizeof(size_t) * MEMORY_HEAP_BITS_PER_BYTE` -/
  sizeBits : Nat
  blockLinkSize : Nat
  lwcanMemSize : Nat
  memoryHeap : Nat
  xStart : Nat
  sizeBits_pos : 0 < sizeBits
  blockLinkSize_pos : 0 < blockLinkSize
  memoryHeap_pos : 0 < memoryHeap
  memoryHeap_fits : memoryHeap + lwcanMemSize ≤ 2 ^ sizeBits
  object_size : lwcanMemSize < 2 ^ (sizeBits - 1)
  xStart_apart : xStart < memoryHeap ∨ memoryHeap + lwcanMemSize ≤ xStart
  room : (memoryHeap + 7) / 8 * 8 + 2 * ((blockLinkSize + 7) / 8 * 8) ≤ memoryHeap + lwcanMemSize

/-- `BlockLink_t` -/
structure BlockLink where
  pxNextFreeBlock : Option Nat := none
  xBlockSize : Nat := 0
  deriving DecidableEq, Repr

/-- The state of `memory.c`, with the `BlockLink_t` at each address. -/
structure MemoryHeap where
  link : Nat → BlockLink := fun _ => {}
  pxEnd : Option Nat := none
  xFreeBytesRemaining : Nat := 0
  xBlockAllocatedBit : Nat := 0
  live : List (Nat × Nat) := []

namespace MemConfig

variable (c : MemConfig)

/-- A value converted to `size_t` -/
def usize (z : Int) : Nat := (z % (2 ^ c.sizeBits : Nat)).toNat

/-- `xHeapStructSize` -/
def xHeapStructSize : Nat := (c.blockLinkSize + 7) / 8 * 8

/-- `MEMORY_HEAP_MINIMUM_BLOCK_SIZE` -/
def minimumBlockSize : Nat := c.xHeapStructSize <<< 1

/-- `pucAlignedHeap` -/
def alignedHeap : Nat := if c.memoryHeap % 8 ≠ 0 then (c.memoryHeap + 7) / 8 * 8 else c.memoryHeap

/-- `xTotalHeapSize` once the start is aligned -/
def totalHeapSize : Nat :=
  if c.memoryHeap % 8 ≠ 0 then c.usize (c.lwcanMemSize - (c.alignedHeap - c.memoryHeap : Nat))
  else c.lwcanMemSize

/-- The address of the end marker -/
def endAddress : Nat :=
  c.usize ((c.alignedHeap + c.totalHeapSize : Nat) - c.xHeapStructSize) / 8 * 8

/-- What `lwcan_malloc` makes of the requested size: 0 if it is 0 or an addition overflows. -/
def wantedSize (size : Nat) : Nat :=
  if 0 < size ∧ size < c.usize ((size : Int) + c.xHeapStructSize) then
    let size := c.usize ((size : Int) + c.xHeapStructSize)
    if size % 8 ≠ 0 then
      if size < c.usize ((size : Int) + (8 - size % 8 : Nat)) then
        c.usize ((size : Int) + (8 - size % 8 : Nat))
      else 0
    else size
  else 0

/-- The `num` of `lwcan_calloc`: the product in `size_t`, assigned to a `uint32_t` -/
def callocNum (number size : Nat) : Nat := u32 (c.usize ((number * size : Nat) : Int))

end MemConfig

namespace MemoryHeap

/-- `p->pxNextFreeBlock` -/
def next (h : MemoryHeap) (p : Nat) : Option Nat := (h.link p).pxNextFreeBlock

/-- `p->xBlockSize` -/
def size (h : MemoryHeap) (p : Nat) : Nat := (h.link p).xBlockSize

/-- `p->pxNextFreeBlock = n` -/
def setNext (h : MemoryHeap) (p : Nat) (n : Option Nat) : MemoryHeap :=
  { h with link := Function.update h.link p { h.link p with pxNextFreeBlock := n } }

/-- `p->xBlockSize = n` -/
def setSize (h : MemoryHeap) (p n : Nat) : MemoryHeap :=
  { h with link := Function.update h.link p { h.link p with xBlockSize := n } }

/-- The fuel of a loop that follows the links -/
def fuel (c : MemConfig) : Nat := c.lwcanMemSize + 3

/-- `prvHeapInit` -/
def prvHeapInit (c : MemConfig) (h : MemoryHeap) : MemoryHeap :=
  let h := (h.setNext c.xStart (some c.alignedHeap)).setSize c.xStart 0
  let h := { h with pxEnd := some c.endAddress }
  let h := (h.setSize c.endAddress 0).setNext c.endAddress none
  let h := h.setSize c.alignedHeap (c.usize ((c.endAddress : Int) - c.alignedHeap))
  let h := h.setNext c.alignedHeap h.pxEnd
  { h with
    xFreeBytesRemaining := h.size c.alignedHeap
    xBlockAllocatedBit := 1 <<< (c.sizeBits - 1) }

/-- `pxIterator->pxNextFreeBlock < pxBlockToInsert`, a null pointer being address 0 -/
def nextBelow (h : MemoryHeap) (block p : Nat) : Bool := (h.next p).getD 0 < block

/-- `prvInsertBlockIntoFreeList(pxBlockToInsert)` from the end of its loop on -/
def linkBlock (h : MemoryHeap) (iterator toInsert : Nat) : MemoryHeap :=
  -- the block in front
  let front : Bool := iterator + h.size iterator = toInsert
  let h := if front then h.setSize iterator (h.size iterator + h.size toInsert) else h
  let block := if front then iterator else toInsert
  -- the block behind
  let h :=
    match h.next iterator with
    | some behind =>
      if block + h.size block = behind then
        if some behind ≠ h.pxEnd then
          (h.setSize block (h.size block + h.size behind)).setNext block (h.next behind)
        else h.setNext block h.pxEnd
      else h.setNext block (some behind)
    | none => h.setNext block none
  if iterator ≠ block then h.setNext iterator (some block) else h

/-- `prvInsertBlockIntoFreeList(pxBlockToInsert)` -/
def prvInsertBlockIntoFreeList (c : MemConfig) (h : MemoryHeap) (toInsert : Nat) :
    Option MemoryHeap :=
  match walk h.next (fun p => !h.nextBelow toInsert p) (fuel c) none (some c.xStart) with
  | some (some (_, iterator)) => some (h.linkBlock iterator toInsert)
  | _ => none

/-- The end of `lwcan_malloc`: the block belongs to the application. -/
def allocate (c : MemConfig) (h : MemoryHeap) (block : Nat) : MemoryHeap :=
  let h := { h with xFreeBytesRemaining := c.usize ((h.xFreeBytesRemaining : Int) - h.size block) }
  (h.setSize block (h.size block ||| h.xBlockAllocatedBit)).setNext block none

/-- `lwcan_malloc` once its loop has found a block: unlink it, split it if it is larger than
required. -/
def take (c : MemConfig) (h : MemoryHeap) (previous block size : Nat) : Option MemoryHeap :=
  let h := h.setNext previous (h.next block)
  if c.minimumBlockSize < c.usize ((h.size block : Int) - size) then
    let new := block + size
    let h := (h.setSize new (c.usize ((h.size block : Int) - size))).setSize block size
    (h.prvInsertBlockIntoFreeList c new).map fun h => h.allocate c block
  else some (h.allocate c block)

/-- The loop of `lwcan_malloc`: the first block of adequate size, or the end marker, with the block
before it. -/
def firstFit (c : MemConfig) (h : MemoryHeap) (size : Nat) : Option (Option (Option Nat × Nat)) :=
  walk h.next (fun p => !(h.size p < size && (h.next p).isSome)) (fuel c) (some c.xStart)
    (h.next c.xStart)

/-- `lwcan_malloc` once the heap is initialised -/
def mallocInit (c : MemConfig) (h : MemoryHeap) (size : Nat) : Option (Option Nat × MemoryHeap) :=
  if size &&& h.xBlockAllocatedBit ≠ 0 then some (none, h)
  else
    let wanted := c.wantedSize size
    if wanted = 0 ∨ h.xFreeBytesRemaining < wanted then some (none, h)
    else
      match h.firstFit c wanted with
      | some (some (some previous, block)) =>
        if some block = h.pxEnd then some (none, h)
        else
          let pvReturn := (h.next previous).map (· + c.xHeapStructSize)
          (h.take c previous block wanted).map (pvReturn, ·)
      | _ => none

/-- `lwcan_malloc(size)` -/
def lwcanMalloc (c : MemConfig) (h : MemoryHeap) (size : Nat) : Option (Option Nat × MemoryHeap) :=
  (if h.pxEnd = none then h.prvHeapInit c else h).mallocInit c size

/-- The `size` bytes at `p` are assigned: `cells` is what they then say, and those around them, as a
`BlockLink_t` at each address. -/
def fill (c : MemConfig) (h : MemoryHeap) (p size : Nat) (cells : Nat → BlockLink) : MemoryHeap :=
  { h with link := fun a => if p < a + c.blockLinkSize ∧ a < p + size then cells a else h.link a }

/-- `lwcan_calloc(number, size)`, with the bytes `mem` of the blocks -/
def lwcanCalloc (c : MemConfig) (h : MemoryHeap) (mem : Nat → UInt8) (cells : Nat → BlockLink)
    (number size : Nat) : Option (Option Nat × MemoryHeap × (Nat → UInt8)) :=
  let num := c.callocNum number size
  (h.lwcanMalloc c num).map fun (p, h) =>
    match p with
    | none => (none, h, mem)
    | some p => (some p, h.fill c p num cells, Mem.blit mem p (fun _ => 0) num)

/-- `lwcan_free(p)` -/
def lwcanFree (c : MemConfig) (h : MemoryHeap) (p : Option Nat) : Option MemoryHeap :=
  match p with
  | none => some h
  | some p =>
    let block := c.usize ((p : Int) - c.xHeapStructSize)
    if h.size block &&& h.xBlockAllocatedBit ≠ 0 then
      if h.next block = none then
        let h := h.setSize block (h.size block &&& (2 ^ c.sizeBits - 1 - h.xBlockAllocatedBit))
        let h := { h with
          xFreeBytesRemaining := c.usize ((h.xFreeBytesRemaining : Int) + h.size block) }
        h.prvInsertBlockIntoFreeList c block
      else some h
    else some h

/-! ### What is live -/

/-- A pointer that `lwcan_malloc(size)` returned is live from then on. -/
def handOut (h : MemoryHeap) (p : Option Nat) (size : Nat) : MemoryHeap :=
  { h with live := p.toList.map (·, size) ++ h.live }

/-- A pointer that was passed to `lwcan_free` is live no longer. -/
def takeBack (h : MemoryHeap) (p : Option Nat) : MemoryHeap :=
  { h with live := p.elim h.live fun p => h.live.filter (·.1 ≠ p) }

/-- `lwcan_malloc(size)`, with the note of what it returned -/
def malloc (c : MemConfig) (h : MemoryHeap) (size : Nat) : Option (Option Nat × MemoryHeap) :=
  (h.lwcanMalloc c size).map fun (p, h) => (p, h.handOut p size)

/-- `lwcan_free(p)`, with the note of what was passed to it -/
def free (c : MemConfig) (h : MemoryHeap) (p : Option Nat) : Option MemoryHeap :=
  (h.lwcanFree c p).map (·.takeBack p)

/-- What happens to the heap: the application asks for memory, gives it back, or writes to it (what
the bytes at `p` then say as a `BlockLink_t`). -/
inductive Event
  | malloc (size : Nat)
  | free (p : Option Nat)
  | write (p : Nat) (link : BlockLink)

/-- One event. -/
def step (c : MemConfig) (h : MemoryHeap) : Event → Option MemoryHeap
  | .malloc size => (h.malloc c size).map Prod.snd
  | .free p => h.free c p
  | .write p link => some { h with link := Function.update h.link p link }

end MemoryHeap
end Lwcan
