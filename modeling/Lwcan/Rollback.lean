import Lwcan.HeapIntegrity
import Lwcan.IsotpOut

/-!
# Failed allocations are undone

`lwcan_buffer_new` takes two blocks. If there is none for the payload, the one of the header goes
back, and `isotp_send` returns an error. Nothing of this should remain.

The block that goes back may have been split off a larger one. That it is merged with the rest again
is no matter of cases here: blocks of which no two free ones lie side by side are determined by the
used ones (`Merged.eq_of_useds`), and those are the same as before.

* `lwcanBufferNew`, `isotpSendOn` — the two functions over the allocator;
* `freeList` — the free list as the links lead along it, with the sizes;
* `Intact.sameFree` — it is determined by the used blocks;
* `failed_send_rolls_back` — what a failure leaves: everything as it was, but that the first call of
  `lwcan_malloc` sets the heap up.
-/

namespace Lwcan
namespace MemoryHeap

/-! ### The functions -/

/-- `lwcan_buffer_new(length)`, with what both calls of `lwcan_malloc` return. `bufferSize` is
`sizeof(struct lwcan_buffer)`, and `cells` what the header's block holds once its fields are
assigned. -/
def lwcanBufferNew (c : MemConfig) (h : MemoryHeap) (bufferSize length : Nat)
    (cells : Nat → BlockLink) : Option ((Option Nat × Option Nat) × MemoryHeap) :=
  if length = 0 then some ((none, none), h)
  else
    match h.malloc c (c.usize bufferSize) with
    | none => none
    | some (none, h) => some ((none, none), h)
    | some (some buffer, h) =>
      match h.malloc c (c.usize length) with
      | none => none
      | some (payload, h) =>
        -- `buffer->payload` is assigned before it is compared with null
        let h := h.fill c buffer (c.usize bufferSize) cells
        match payload with
        | none => (h.free c (some buffer)).map ((some buffer, none), ·)
        | some payload => some ((some buffer, some payload), h)

/-- The pointer that `lwcan_buffer_new` returns: null unless both calls succeed -/
def bufferPtr (r : Option Nat × Option Nat) : Option Nat := r.2.bind fun _ => r.1

end MemoryHeap

namespace Node

/-- `isotp_send` gets as far as `lwcan_buffer_new`. -/
def asksForBuffer (s : Node) : Option Nat → Option (List UInt8) → Bool
  | some p, some d => d.length ≠ 0 && (s.flow (p, .output)).state = .idle
  | _, _ => false

/-- `isotp_send(pcb, data, length)` over the allocator; `garbage` is what the payload block held. -/
def isotpSendOn (c : MemConfig) (h : MemoryHeap) (bufferSize : Nat) (cells : Nat → BlockLink)
    (garbage : Nat → UInt8) (cfg : Config) (s : Node) (pcb : Option Nat)
    (data : Option (List UInt8)) : Option ((Lwcanerr × Node) × MemoryHeap) :=
  if s.asksForBuffer pcb data then
    (h.lwcanBufferNew c bufferSize (data.elim 0 List.length) cells).map fun (r, h) =>
      (s.isotpSend cfg pcb data ⟨r.1, r.2, garbage⟩, h)
  else some (s.isotpSend cfg pcb data ⟨none, none, garbage⟩, h)

end Node

namespace MemoryHeap

/-! ### The free list -/

/-- The cells that the links lead along, each with its size, if they end within `fuel` -/
def chain (h : MemoryHeap) : Nat → Option Nat → Option (List (Nat × Nat))
  | _, none => some []
  | 0, some _ => none
  | fuel + 1, some p => (chain h fuel (h.next p)).map ((p, h.size p) :: ·)

/-- **The free list**, from `xStart` to the end marker -/
def freeList (c : MemConfig) (h : MemoryHeap) : Option (List (Nat × Nat)) :=
  h.chain (fuel c) (some c.xStart)

/-- The free list with the sizes of its blocks, and the count of the free bytes, are the same. -/
def SameFree (c : MemConfig) (h h' : MemoryHeap) : Prop :=
  h'.freeList c = h.freeList c ∧ h'.xFreeBytesRemaining = h.xFreeBytesRemaining

/-- **Rolled back**: the free blocks are as before, or, if `lwcan_malloc` was never called before,
as its first call sets them up. -/
def RolledBack (c : MemConfig) (h h' : MemoryHeap) : Prop :=
  SameFree c h h' ∨ h.pxEnd = none ∧ SameFree c (h.prvHeapInit c) h'

variable {c : MemConfig} {h h' : MemoryHeap} {bs bs' : List Tile} {es : List Event}
  {p size fuel : Nat}

theorem SameFree.refl (c : MemConfig) (h : MemoryHeap) : SameFree c h h := ⟨rfl, rfl⟩

/-- A list that is linked is what the links lead along. -/
theorem chain_of_linked {l : List Nat} (hl : Linked h.next l) (hf : l.length ≤ fuel) :
    h.chain fuel l.head? = some (l.map fun p => (p, h.size p)) := by
  induction l generalizing fuel with
  | nil => cases fuel <;> rfl
  | cons p l ih =>
    cases fuel with
    | zero => cases hf
    | succ fuel =>
      rw [List.head?_cons, chain, hl.1, ih hl.2 (Nat.le_of_succ_le_succ hf)]
      rfl

theorem Laid.freeList_eq (hl : Laid c h bs) :
    h.freeList c =
      some ((c.xStart :: (frees bs ++ [c.endAddress])).map fun p => (p, h.size p)) := by
  have hlen := hl.length_lt
  apply chain_of_linked hl.linked
  rw [List.length_cons, List.length_append, List.length_singleton]
  exact hlen.le

/-- **The free list is determined by the used blocks.** -/
theorem Intact.sameFree (hi : Intact c h bs) (hi' : Intact c h' bs') (hu : useds bs' = useds bs) :
    SameFree c h h' := by
  -- between the used blocks there is one free block or none, so the tilings are the same
  obtain rfl : bs' = bs :=
    hi'.merged.eq_of_useds hi.merged hi'.laid.tiles hi.laid.tiles hi'.laid.pos
    hi.laid.pos hu
  refine ⟨?_, hi'.bytes.trans hi.bytes.symm⟩
  rw [hi.laid.freeList_eq, hi'.laid.freeList_eq]
  congr 1
  apply List.map_congr_left
  intro a ha
  -- three kinds of cells: `xStart`, the free blocks, and the end marker
  have hsize : h'.size a = h.size a := by
    rcases List.mem_cons.mp ha with rfl | ha
    · rw [hi.laid.startSize, hi'.laid.startSize]
    rcases List.mem_append.mp ha with ha | ha
    · obtain ⟨b, hb, hf, rfl⟩ := mem_frees.mp ha
      rw [hi.laid.header b hb hf, hi'.laid.header b hb hf]
    · obtain rfl := List.mem_singleton.mp ha
      rw [hi.laid.endSize, hi'.laid.endSize]
  rw [hsize]

/-! ### A buffer that cannot be had -/

theorem usize_lt (c : MemConfig) (z : Int) : c.usize z < 2 ^ c.sizeBits := by
  have hpos : (0 : Int) < (2 ^ c.sizeBits : Nat) := by exact_mod_cast Nat.two_pow_pos _
  have hlt := Int.emod_lt_of_pos z hpos
  unfold MemConfig.usize
  omega

/-- Assigning the fields of a block keeps the heap in one piece. -/
theorem Intact.fill (hi : Intact c h bs) (hp : (p, size) ∈ h.live) (cells : Nat → BlockLink) :
    Intact c (h.fill c p size cells) bs := by
  apply hi.overwrite
  intro a
  -- a link is overwritten only where the live block lies
  by_cases ha : p < a + c.blockLinkSize ∧ a < p + size
  · exact Or.inl ⟨_, hp, ha⟩
  · exact Or.inr (if_neg ha)

/-- **A buffer that cannot be had** leaves the free blocks as they were. -/
theorem Intact.lwcanBufferNew (hi : Intact c h bs) (bufferSize length : Nat)
    (cells : Nat → BlockLink) : ∃ r h', h.lwcanBufferNew c bufferSize length cells = some (r, h') ∧
      (bufferPtr r = none → SameFree c h h') := by
  unfold MemoryHeap.lwcanBufferNew
  by_cases hl : length = 0
  · rw [if_pos hl]
    exact ⟨_, _, rfl, fun _ => SameFree.refl c h⟩
  rw [if_neg hl]
  obtain ⟨header, h₁, bs₁, hm₁, ha₁, hu₁⟩ := hi.malloc (usize_lt c bufferSize)
  rw [hm₁]
  cases header with
  | none =>
    -- a call that fails uses no block
    rw [usedsBut_none] at hu₁
    exact ⟨_, _, rfl, fun _ => hi.sameFree ha₁.intact hu₁.symm⟩
  | some buffer =>
    obtain ⟨payload, h₂, bs₂, hm₂, ha₂, hu₂⟩ := ha₁.intact.malloc (usize_lt c length)
    dsimp only
    rw [hm₂]
    cases payload with
    | some payload => exact ⟨_, _, rfl, nofun⟩
    | none =>
      -- the header's block, written and freed
      have hlive : (buffer, c.usize bufferSize) ∈ h₂.live := by
        rw [ha₂.live, ha₁.live]
        exact List.mem_cons_self
      have hfill := ha₂.intact.fill hlive cells
      obtain ⟨h₃, bs₃, hfree, hi₃, hu₃⟩ := hfill.free (List.mem_map_of_mem hlive)
      dsimp only
      rw [hfree]
      refine ⟨_, _, rfl, fun _ => hi.sameFree hi₃ ?_⟩
      rw [usedsBut_none] at hu₂
      calc useds bs₃ = usedsBut c (some buffer) bs₂ := hu₃
        _ = usedsBut c (some buffer) bs₁ := by rw [usedsBut, usedsBut, hu₂]
        _ = useds bs := hu₁.symm

/-- The first call of `lwcan_malloc` sets the heap up, and then does what it does in a heap that
was. -/
theorem lwcanBufferNew_init (hend : h.pxEnd = none) (bufferSize : Nat) {length : Nat}
    (hl : length ≠ 0) (cells : Nat → BlockLink) :
    h.lwcanBufferNew c bufferSize length cells =
      (h.prvHeapInit c).lwcanBufferNew c bufferSize length cells := by
  unfold lwcanBufferNew
  rw [if_neg hl, if_neg hl, malloc_init hend]

/-- **A failed `lwcan_buffer_new`** is rolled back. -/
theorem Sound.lwcanBufferNew (hh : Sound c h) (bufferSize length : Nat) (cells : Nat → BlockLink) :
    ∃ r h', h.lwcanBufferNew c bufferSize length cells = some (r, h') ∧
      (bufferPtr r = none → RolledBack c h h') := by
  rcases hh with ⟨hend, hlive⟩ | ⟨bs, hi⟩
  · -- nothing was allocated yet: a length of 0 does not get as far as `lwcan_malloc`
    by_cases hl : length = 0
    · unfold MemoryHeap.lwcanBufferNew
      rw [if_pos hl]
      exact ⟨_, _, rfl, fun _ => Or.inl (SameFree.refl c h)⟩
    · obtain ⟨r, h', hrun, hback⟩ :=
        (Intact.init c h hlive).lwcanBufferNew bufferSize length cells
      rw [lwcanBufferNew_init hend bufferSize hl]
      exact ⟨r, h', hrun, fun hr => Or.inr ⟨hend, hback hr⟩⟩
  · obtain ⟨r, h', hrun, hback⟩ := hi.lwcanBufferNew bufferSize length cells
    exact ⟨r, h', hrun, fun hr => Or.inl (hback hr)⟩

end MemoryHeap

/-! ### A message that is not accepted -/

namespace Node

variable {cfg : Config} {s : Node} {pcb : Option Nat} {data : Option (List UInt8)} {g : Grant}

/-- **An error of `isotp_send`** leaves the node as it was, but for what it makes of the blocks. -/
theorem isotpSend_error (h : (s.isotpSend cfg pcb data g).1 ≠ .ok) :
    { (s.isotpSend cfg pcb data g).2 with heap := s.heap } = s := by
  cases pcb with
  | none => rfl
  | some p =>
    cases data with
    | none => rfl
    | some d =>
      unfold isotpSend at h ⊢
      dsimp only at h ⊢
      split
      · -- `ERROR_ARG`
        rfl
      · split
        · -- `ERROR_INPROGRESS`
          rfl
        · next hd hs =>
          rw [if_neg hd, if_neg hs] at h
          generalize s.heap.lwcanBufferNew d.length g = r at h ⊢
          obtain ⟨b, heap⟩ := r
          cases b with
          | none => rfl
          | some b => exact absurd rfl h

/-- A message for which memory is asked is refused only if a block is missing. -/
theorem isotpSend_refused (ha : s.asksForBuffer pcb data)
    (h : (s.isotpSend cfg pcb data g).1 ≠ .ok) : g.granted = false := by
  cases pcb with
  | none => cases ha
  | some p =>
    cases data with
    | none => cases ha
    | some d =>
      unfold asksForBuffer at ha
      rw [Bool.and_eq_true, decide_eq_true_iff, decide_eq_true_iff] at ha
      have hd : d ≠ [] := fun hnil => ha.1 (by rw [hnil]; rfl)
      rw [ne_eq, isotpSend_eq_ok_iff hd] at h
      rw [← Bool.not_eq_true]
      exact fun hg => h ⟨p, rfl, ha.2, hg⟩

end Node

namespace MemoryHeap

variable {c : MemConfig} {h : MemoryHeap} {es : List Event}

/-- **Failures are rolled back**, whatever the run before them: a `lwcan_buffer_new` that returns
null, and an `isotp_send` that returns an error. -/
theorem failed_send_rolls_back (hes : Runs.Along (MemoryHeap.step c) (Allowed c) {} es)
    (hr : Runs.run (MemoryHeap.step c) {} es = some h) (bufferSize : Nat)
    (cells : Nat → BlockLink) :
    (∀ length, ∃ r h', h.lwcanBufferNew c bufferSize length cells = some (r, h') ∧
      (bufferPtr r = none → RolledBack c h h')) ∧
    ∀ (cfg : Config) (s : Node) (pcb : Option Nat) (data : Option (List UInt8))
      (garbage : Nat → UInt8),
      ∃ err s' h', s.isotpSendOn c h bufferSize cells garbage cfg pcb data = some ((err, s'), h') ∧
        (err ≠ .ok → { s' with heap := s.heap } = s ∧ RolledBack c h h') := by
  have hsound : Sound c h := Sound.run hes hr
  refine ⟨fun length => hsound.lwcanBufferNew bufferSize length cells, ?_⟩
  intro cfg s pcb data garbage
  unfold Node.isotpSendOn
  by_cases ha : s.asksForBuffer pcb data
  · obtain ⟨r, h', hrun, hback⟩ := hsound.lwcanBufferNew bufferSize (data.elim 0 List.length) cells
    rw [if_pos ha, hrun]
    refine ⟨_, _, _, rfl, fun herr => ⟨Node.isotpSend_error herr, hback ?_⟩⟩
    -- the error is `ERROR_MEMORY`: one of the two blocks is missing
    have hg := Node.isotpSend_refused ha herr
    obtain ⟨header, payload⟩ := r
    cases header with
    | none => exact Option.bind_eq_none_iff.mpr fun _ _ => rfl
    | some buffer =>
      cases payload with
      | none => rfl
      | some payload => cases hg
  · -- memory is not asked for
    rw [if_neg ha]
    exact ⟨_, _, _, rfl, fun herr => ⟨Node.isotpSend_error herr, Or.inl (SameFree.refl c h)⟩⟩

/-- One block of 152 bytes is free: that of a header is split off it, and 400 bytes do not fit. -/
def nearlyFull : List Event := [.malloc 20, .malloc 300, .free (some 4112), .malloc 9]

theorem failed_send_rolls_back_nearlyFull :
    ∃ h, Runs.run (MemoryHeap.step smallHeap) {} nearlyFull = some h ∧
      (∀ length, ∃ r h', h.lwcanBufferNew smallHeap 12 length (fun _ => {}) = some (r, h') ∧
        (bufferPtr r = none → RolledBack smallHeap h h')) ∧
      ∀ (cfg : Config) (s : Node) (pcb : Option Nat) (data : Option (List UInt8))
        (garbage : Nat → UInt8),
        ∃ err s' h', s.isotpSendOn smallHeap h 12 (fun _ => {}) garbage cfg pcb data =
          some ((err, s'), h') ∧
          (err ≠ .ok → { s' with heap := s.heap } = s ∧ RolledBack smallHeap h h') := by
  obtain ⟨h, hr, -⟩ := Runs.exists_run (MemoryHeap.step smallHeap) {} nearlyFull (fun _ => True)
    (by decide)
  exact ⟨h, hr, failed_send_rolls_back (by decide) hr 12 (fun _ => {})⟩

/-- **The first call sets the heap up**, also if it is in vain: then there are free bytes where
there were none. -/
theorem first_failure_initialises : ¬∀ (c : MemConfig) (es : List Event) (h : MemoryHeap)
    (bufferSize length : Nat) (cells : Nat → BlockLink),
    Runs.Along (MemoryHeap.step c) (Allowed c) {} es →
      Runs.run (MemoryHeap.step c) {} es = some h → ∀ r h',
        h.lwcanBufferNew c bufferSize length cells = some (r, h') → bufferPtr r = none →
          SameFree c h h' := by
  intro hall
  have hrun : (({} : MemoryHeap).lwcanBufferNew smallHeap 12 1000 (fun _ => {})).map (fun x =>
      (bufferPtr x.1, x.2.xFreeBytesRemaining)) = some (none, 496) := by decide
  obtain ⟨⟨r, h'⟩, hnew, hpair⟩ := Option.map_eq_some_iff.mp hrun
  obtain ⟨hnull, hfree⟩ := Prod.mk.inj hpair
  have hsame := hall smallHeap [] {} 12 1000 (fun _ => {}) trivial rfl r h' hnew hnull
  have hzero : h'.xFreeBytesRemaining = 0 := hsame.2
  rw [hfree] at hzero
  cases hzero

end MemoryHeap
end Lwcan
