import Lwcan.Types

/-!
# Buffers (`src/buffer.c`)

A `struct lwcan_buffer` is two heap blocks, a header and its payload, both from `lwcan_malloc`. The
heap is modelled by which blocks are allocated and by the buffers that live in them; which blocks an
allocation gets, or that it fails, is an input (`Grant`), so that every allocator that hands out
only blocks that are not allocated is covered.

The payload is the memory from `buffer->payload` on, and here each buffer has one of its own: a copy
that runs over the payload's end writes past it. Whose memory that is, and what becomes of it, is
said where the payloads lie in one memory (`Node.spread`, `Hosted.step`).
-/

namespace Lwcan

/-- `struct lwcan_buffer` without its `next` field: the address of the payload block, the memory
from there on as long as no one else writes to it, and the length. -/
structure LwcanBuffer where
  payload : Nat := 0
  length : Nat := 0
  data : Nat → UInt8 := fun _ => 0

/-- The buffer's bytes. -/
def LwcanBuffer.bytes (b : LwcanBuffer) : List UInt8 := Mem.slice b.data 0 b.length

/-- The allocated blocks, and the buffer whose header is at each address. -/
structure Heap where
  blocks : List Nat := []
  buffer : Nat → LwcanBuffer := fun _ => {}

/-- What two calls of `lwcan_malloc` in a row return, and what the second block holds. -/
structure Grant where
  header : Option Nat
  payload : Option Nat
  garbage : Nat → UInt8

/-- The allocator hands out only blocks that are not allocated, and not one block twice. -/
def Grant.Fresh (g : Grant) (blocks : List Nat) : Prop :=
  (∀ a ∈ g.header, a ∉ blocks ∧ ∀ b ∈ g.payload, a ≠ b) ∧ ∀ b ∈ g.payload, b ∉ blocks

/-- Both blocks are granted. -/
def Grant.granted (g : Grant) : Bool := g.header.isSome && g.payload.isSome

instance (g : Grant) (blocks : List Nat) : Decidable (g.Fresh blocks) :=
  inferInstanceAs (Decidable (_ ∧ _))

namespace Heap

/-- `lwcan_free(p)` on an allocated block -/
def lwcanFree (h : Heap) (p : Nat) : Heap := { h with blocks := h.blocks.filter (· ≠ p) }

/-- `lwcan_buffer_new(length)` when the allocator answers with `g` -/
def lwcanBufferNew (h : Heap) (length : Nat) (g : Grant) : Option Nat × Heap :=
  if length = 0 then (none, h)
  else
    match g.header with
    | none => (none, h)
    | some a =>
      let h := { h with blocks := a :: h.blocks }
      match g.payload with
      | none => (none, h.lwcanFree a)
      | some b =>
        (some a,
          { blocks := b :: h.blocks
            buffer := Function.update h.buffer a ⟨b, length, g.garbage⟩ })

/-- An allocation succeeds if something is asked for and both blocks are granted. -/
theorem lwcanBufferNew_isSome (h : Heap) (length : Nat) (g : Grant) :
    (h.lwcanBufferNew length g).1.isSome ↔ length ≠ 0 ∧ g.granted := by
  obtain ⟨hd, pl, garbage⟩ := g
  unfold lwcanBufferNew Grant.granted
  by_cases hl : length = 0
  · simp [hl]
  · cases hd with
    | none => simp [hl]
    | some a => cases pl <;> simp [hl]

/-- An allocation that succeeds hands out two blocks that were free. -/
theorem lwcanBufferNew_some {h h' : Heap} {length a : Nat} {g : Grant} (hf : g.Fresh h.blocks)
    (hn : h.lwcanBufferNew length g = (some a, h')) :
    ∃ b, length ≠ 0 ∧ a ∉ h.blocks ∧ b ∉ h.blocks ∧ a ≠ b ∧
      h' = ⟨b :: a :: h.blocks, Function.update h.buffer a ⟨b, length, g.garbage⟩⟩ := by
  obtain ⟨hd, pl, garbage⟩ := g
  unfold lwcanBufferNew at hn
  split at hn
  · simp at hn
  · next hl =>
    cases hd with
    | none => simp at hn
    | some a' =>
      cases pl with
      | none => simp at hn
      | some b =>
        simp only [Prod.mk.injEq, Option.some.injEq] at hn
        obtain ⟨rfl, rfl⟩ := hn
        have hfa := hf.1 a' rfl
        exact ⟨b, hl, hfa.1, hf.2 b rfl, hfa.2 b rfl, rfl⟩

/-- An allocation that fails leaves the heap as it was. -/
theorem lwcanBufferNew_none {h h' : Heap} {length : Nat} {g : Grant} (hf : g.Fresh h.blocks)
    (hn : h.lwcanBufferNew length g = (none, h')) : h' = h := by
  obtain ⟨hd, pl, garbage⟩ := g
  unfold lwcanBufferNew at hn
  split at hn
  · simpa using hn.symm
  · cases hd with
    | none => simpa using hn.symm
    | some a =>
      cases pl with
      | some b => simp at hn
      | none =>
        -- the header is freed again
        have hb : (a :: h.blocks).filter (· ≠ a) = h.blocks := by
          rw [List.filter_cons_of_neg (by simp), List.filter_eq_self]
          intro x hx
          have : x ≠ a := fun e => (hf.1 a rfl).1 (e ▸ hx)
          simpa using this
        simp only [Prod.mk.injEq, true_and] at hn
        rw [← hn]
        simp only [lwcanFree, hb]

/-- `lwcan_buffer_delete(buffer)` -/
def lwcanBufferDelete (h : Heap) (buffer : Nat) : Heap :=
  (h.lwcanFree (h.buffer buffer).payload).lwcanFree buffer

/-- `lwcan_buffer_copy_to_offset(buffer, source, length, offset)` -/
def lwcanBufferCopyToOffset (h : Heap) (buffer : Option Nat) (source : Nat → UInt8)
    (length offset : Nat) : Lwcanerr × Heap :=
  match buffer with
  | none => (.arg, h)
  | some b =>
    if length = 0 then (.arg, h)
    else
      let buf := h.buffer b
      (.ok, { h with
        buffer := Function.update h.buffer b
          { buf with data := Mem.blit buf.data offset source length } })

/-- `lwcan_buffer_copy_to(buffer, source, length)` -/
def lwcanBufferCopyTo (h : Heap) (buffer : Option Nat) (source : Nat → UInt8) (length : Nat) :
    Lwcanerr × Heap :=
  h.lwcanBufferCopyToOffset buffer source length 0

end Heap

/-- `lwcan_buffer_copy_from_offset(buffer, destination, length, offset)`, the destination being the
memory `dst` from `dstOff` on -/
def lwcanBufferCopyFromOffset (buffer : Option LwcanBuffer) (dst : Nat → UInt8) (dstOff : Nat)
    (length offset : Nat) : Lwcanerr × (Nat → UInt8) :=
  match buffer with
  | none => (.arg, dst)
  | some b =>
    if length = 0 then (.arg, dst)
    else (.ok, Mem.blit dst dstOff (fun i => b.data (offset + i)) length)

/-- `lwcan_buffer_copy_from(buffer, destination, length)` -/
def lwcanBufferCopyFrom (buffer : Option LwcanBuffer) (dst : Nat → UInt8) (dstOff : Nat)
    (length : Nat) : Lwcanerr × (Nat → UInt8) :=
  lwcanBufferCopyFromOffset buffer dst dstOff length 0

end Lwcan
