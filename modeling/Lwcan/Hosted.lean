import Lwcan.HeapContents
import Lwcan.Shared

/-!
# A node over the allocator

The node was modelled over every allocator that hands out blocks that are free (`Grant.Fresh`), the
allocator under every application that keeps to its own memory (`MemoryHeap.Allowed`). Here the two
run together, with an application that uses the same heap: what the one takes for granted, the other
does.

* `step` — the application uses the heap, or the node takes a step, with the answers of
  `lwcan_malloc`;
* `Hosts` — the invariant: the node's buffers are live blocks of their sizes, in a heap that is in
  one piece;
* `hosted_run` — no run gets stuck, what it does to the node is a run of the node, and the heap
  stays in one piece;
* `isolated` — the node writes to no memory of the application, and takes none of it.
-/

namespace Lwcan
namespace MemoryHeap

/-! ### The allocator -/

/-- The bytes of several regions are assigned. -/
def fillAll (c : MemConfig) (h : MemoryHeap) (rs : List (Nat × Nat)) (cells : Nat → BlockLink) :
    MemoryHeap :=
  { h with
    link := fun a =>
      if ∃ r ∈ rs, r.1 < a + c.blockLinkSize ∧ a < r.1 + r.2 then cells a else h.link a }

/-- Several blocks are freed. -/
def freeAll (c : MemConfig) (h : MemoryHeap) : List Nat → Option MemoryHeap
  | [] => some h
  | p :: ps => (h.free c (some p)).bind fun h => freeAll c h ps

/-- A region lies in the memory of a live pointer. -/
def Inside (h : MemoryHeap) (r : Nat × Nat) : Prop :=
  ∃ e ∈ h.live, e.1 ≤ r.1 ∧ r.1 + r.2 ≤ e.1 + e.2

variable {c : MemConfig} {h h' : MemoryHeap} {p size : Nat}

/-- Writes to live blocks keep the heap sound. -/
theorem Sound.fillAll (hh : Sound c h) {rs : List (Nat × Nat)} (hr : ∀ r ∈ rs, h.Inside r)
    (cells : Nat → BlockLink) : Sound c (h.fillAll c rs cells) := by
  rcases hh with ⟨hend, hlive⟩ | ⟨bs, hi⟩
  · exact Or.inl ⟨hend, hlive⟩
  · refine Or.inr ⟨bs, hi.overwrite fun a => ?_⟩
    by_cases ha : ∃ r ∈ rs, r.1 < a + c.blockLinkSize ∧ a < r.1 + r.2
    · obtain ⟨r, hmem, hlo, hhi⟩ := ha
      obtain ⟨e, he, hle, hfit⟩ := hr r hmem
      exact Or.inl ⟨e, he, by omega, by omega⟩
    · exact Or.inr (if_neg ha)

/-- Writes inside of other live blocks spare a block. -/
theorem Sound.fillAll_spares (hh : Sound c h) {rs : List (Nat × Nat)} {x : Nat × Nat}
    (hx : x ∈ h.live)
    (hr : ∀ r ∈ rs, ∃ y ∈ h.live, y.1 ≠ x.1 ∧ y.1 ≤ r.1 ∧ r.1 + r.2 ≤ y.1 + y.2)
    (cells : Nat → BlockLink) : Spares c h (h.fillAll c rs cells) x := by
  refine hh.overwrite_spares hx fun a => ?_
  by_cases ha : ∃ r ∈ rs, r.1 < a + c.blockLinkSize ∧ a < r.1 + r.2
  · obtain ⟨r, hmem, hlo, hhi⟩ := ha
    obtain ⟨y, hy, hne, hle, hfit⟩ := hr r hmem
    exact Or.inr ⟨y, hy, hne, by omega, by omega⟩
  · exact Or.inl (if_neg ha)

/-- **Freeing live blocks**, each once, leaves the others as they are. -/
theorem Sound.freeAll (hh : Sound c h) {ps : List Nat} (hl : ps ⊆ h.live.map Prod.fst)
    (hn : ps.Nodup) :
    ∃ h', h.freeAll c ps = some h' ∧ Sound c h' ∧ h'.live = h.live.filter (·.1 ∉ ps) ∧
      ∀ x ∈ h'.live, Spares c h h' x := by
  induction ps generalizing h with
  | nil =>
    refine ⟨h, rfl, hh, (List.filter_eq_self.mpr fun _ _ => by simp).symm,
      fun x _ => Spares.refl c h x⟩
  | cons p ps ih =>
    obtain ⟨hp, hps⟩ := List.cons_subset.mp hl
    obtain ⟨hnotin, hnodup⟩ := List.nodup_cons.mp hn
    obtain ⟨h₁, hfree, hs₁⟩ := hh.step (e := .free (some p)) hp
    have hlive := free_live hfree
    -- the blocks that are left to be given back are still live
    have hsub : ps ⊆ h₁.live.map Prod.fst := by
      intro q hq
      obtain ⟨e, he, rfl⟩ := List.mem_map.mp (hps hq)
      refine List.mem_map_of_mem ?_
      rw [hlive, List.mem_filter]
      refine ⟨he, decide_eq_true fun heq => hnotin ?_⟩
      rwa [← heq]
    -- the first is given back, and then the others from what that leaves
    obtain ⟨h', hall, hs', hlive', hspares⟩ := ih hs₁ hsub hnodup
    refine ⟨h', ?_, hs', ?_, fun x hx => ?_⟩
    · unfold MemoryHeap.freeAll
      rw [show h.free c (some p) = some h₁ from hfree]
      exact hall
    · rw [hlive', hlive, List.filter_filter]
      refine List.filter_congr fun e _ => ?_
      rw [← Bool.decide_and]
      exact decide_eq_decide.mpr (by rw [List.mem_cons, not_or, and_comm])
    · have hx₁ : x ∈ h₁.live := by
        rw [hlive'] at hx
        exact (List.mem_filter.mp hx).1
      rw [hlive] at hx₁
      exact (hh.free_spares hp hfree (List.mem_filter.mp hx₁).1).trans (hspares x hx)

/-- **What `lwcan_buffer_new` answers**: two live blocks that were free, or nothing, and then the
live blocks are those before. -/
structure Allotted (c : MemConfig) (h : MemoryHeap) (bufferSize length : Nat)
  (r : Option Nat × Option Nat) (h' : MemoryHeap) : Prop where
  sound : Sound c h'
  header : ∀ a ∈ r.1, a ∉ h.live.map Prod.fst ∧ ∀ b ∈ r.2, a ≠ b
  payload : ∀ b ∈ r.2, b ∉ h.live.map Prod.fst
  granted : ∀ a ∈ r.1, ∀ b ∈ r.2, h'.live = (b, length) :: (a, c.usize bufferSize) :: h.live
  refused : length = 0 ∨ bufferPtr r = none → h'.live = h.live
  spares : ∀ x ∈ h.live, Spares c h h' x

/-- A pointer that is handed out was not live. -/
theorem Answered.fresh {bs : List Tile} (ha : Answered c h size (some p) h' bs) :
    p ∉ h.live.map Prod.fst := by
  have hn := ha.intact.nodup
  rw [ha.live] at hn
  exact (List.nodup_cons.mp hn).1

theorem Sound.buffer_new (hh : Sound c h) (bufferSize : Nat) {length : Nat}
    (hl : length < 2 ^ c.sizeBits)
    (cells : Nat → BlockLink) : ∃ r h', h.lwcanBufferNew c bufferSize length cells = some (r, h') ∧
      Allotted c h bufferSize length r h' := by
  have hsize : c.usize length = length := c.usize_natCast hl
  unfold MemoryHeap.lwcanBufferNew
  by_cases hz : length = 0
  · -- a length of zero is refused before anything is allocated
    rw [if_pos hz]
    exact ⟨_, _, rfl, hh, nofun, nofun, nofun, fun _ => rfl, fun x _ => Spares.refl c h x⟩
  rw [if_neg hz]
  obtain ⟨header, h₁, bs₁, hm₁, ha₁⟩ := hh.malloc (usize_lt c bufferSize)
  rw [hm₁]
  cases header with
  | none =>
    -- there is no room for the header
    refine ⟨_, _, rfl, Or.inr ⟨bs₁, ha₁.intact⟩, nofun, nofun, nofun, fun _ => ha₁.live,
      fun x hx => ?_⟩
    exact hh.malloc_spares (usize_lt c bufferSize) hm₁ hx
  | some a =>
    have hfresh := ha₁.fresh
    have hs₁ : Sound c h₁ := Or.inr ⟨bs₁, ha₁.intact⟩
    obtain ⟨payload, h₂, bs₂, hm₂, ha₂⟩ := hs₁.malloc (usize_lt c length)
    dsimp only
    rw [hm₂]
    have hmem : (a, c.usize bufferSize) ∈ h₂.live := by
      rw [ha₂.live, ha₁.live]
      exact List.mem_append_right _ List.mem_cons_self
    have hfill := ha₂.intact.fill hmem cells
    -- the header's fields are outside of what was live before
    have hspares : ∀ x ∈ h.live, x ∈ h₂.live ∧
        Spares c h (h₂.fill c a (c.usize bufferSize) cells) x := by
      intro x hx
      have hx₁ : x ∈ h₁.live := by
        rw [ha₁.live]
        exact List.mem_append_right _ hx
      have hx₂ : x ∈ h₂.live := by
        rw [ha₂.live]
        exact List.mem_append_right _ hx₁
      refine ⟨hx₂, (hh.malloc_spares (usize_lt c bufferSize) hm₁ hx).trans
        ((hs₁.malloc_spares (usize_lt c length) hm₂ hx₁).trans ?_)⟩
      have hs₂ : Sound c h₂ := Or.inr ⟨bs₂, ha₂.intact⟩
      refine hs₂.overwrite_spares hx₂ fun w => ?_
      by_cases hw : a < w + c.blockLinkSize ∧ w < a + c.usize bufferSize
      · refine Or.inr ⟨_, hmem, fun heq => hfresh ?_, hw.1, hw.2⟩
        rw [show a = x.1 from heq]
        exact List.mem_map_of_mem hx
      · exact Or.inl (if_neg hw)
    cases payload with
    | some b =>
      -- both are there
      have hb := ha₂.fresh
      rw [ha₁.live, Option.toList_some, List.map_singleton, List.singleton_append, List.map_cons,
        List.mem_cons, not_or] at hb
      refine ⟨_, _, rfl, Or.inr ⟨bs₂, hfill⟩, ?_, ?_, ?_,
        fun hno => absurd hno (by simp [bufferPtr, hz]), fun x hx => (hspares x hx).2⟩
      · rintro _ ⟨⟩
        refine ⟨hfresh, ?_⟩
        rintro _ ⟨⟩
        exact Ne.symm hb.1
      · rintro _ ⟨⟩
        exact hb.2
      · rintro _ ⟨⟩ _ ⟨⟩
        show h₂.live = _
        rw [ha₂.live, ha₁.live, hsize]
        rfl
    | none =>
      -- the header goes back
      obtain ⟨h₃, bs₃, hfree, hi₃, -⟩ := hfill.free (p := a) (List.mem_map_of_mem hmem)
      dsimp only
      rw [hfree]
      have hsound : Sound c (h₂.fill c a (c.usize bufferSize) cells) := Or.inr ⟨bs₂, hfill⟩
      refine ⟨_, _, rfl, Or.inr ⟨bs₃, hi₃⟩, ?_, nofun, ?_, ?_, fun x hx => ?_⟩
      · rintro _ ⟨⟩
        exact ⟨hfresh, nofun⟩
      · rintro _ ⟨⟩ _ ⟨⟩
      · intro _
        rw [free_live hfree]
        show h₂.live.filter _ = h.live
        rw [ha₂.live, ha₁.live]
        show List.filter _ ((a, c.usize bufferSize) :: h.live) = h.live
        rw [List.filter_cons_of_neg (by simp), List.filter_eq_self]
        intro e he
        refine decide_eq_true fun heq => hfresh ?_
        rw [← heq]
        exact List.mem_map_of_mem he
      · obtain ⟨hx₂, hsp⟩ := hspares x hx
        exact hsp.trans (hsound.free_spares (List.mem_map_of_mem hmem) hfree hx₂)

end MemoryHeap

/-! ### The node -/

/-- The event with other answers of the allocator, if it is asked -/
def Event.withGrant (header payload : Option Nat) : Event → Event
  | .call (.isotpSend pcb data g) => .call (.isotpSend pcb data ⟨header, payload, g.garbage⟩)
  | .input canif frame g => .input canif frame ⟨header, payload, g.garbage⟩
  | e => e

namespace Node

variable {cfg : Config} {s s' : Node} {e : Event} {es : List Event} {k : FlowId} {b : Nat}
  {header payload : Option Nat}

/-- What the results on reassembly expect of the peer, the drivers and the application -/
def Careful (cfg : Config) (s : Node) (e : Event) : Prop :=
  KeepsPcbs s e ∧ ValidFrames cfg s e ∧ KeepsOpen s e ∧ FramesFit cfg s e

/-- A run of careful steps leads to the state. -/
def Reached (cfg : Config) (s : Node) : Prop := ∃ es, Run cfg es s ∧ RunAlong cfg (Careful cfg) es

namespace Reached

theorem initial (cfg : Config) : Reached cfg (lwcanInit cfg) := ⟨[], rfl, True.intro⟩

theorem step (h : Reached cfg s) (hc : Careful cfg s e) (hst : Node.step cfg s e = some s') :
    Reached cfg s' := by
  obtain ⟨es, hr, ha⟩ := h
  refine ⟨es ++ [e], Runs.run_append.mpr ⟨s, hr, Runs.run_cons.mpr ⟨s', hst, rfl⟩⟩, ha.append ?_⟩
  intro t ht
  obtain rfl : s = t := Option.some.inj (hr.symm.trans ht)
  exact ⟨hc, fun _ _ => True.intro⟩

theorem keepsPcbs (ha : RunAlong cfg (Careful cfg) es) : RunAlong cfg KeepsPcbs es :=
  ha.mono fun _ _ h => h.1

theorem sound (h : Reached cfg s) : Sound s := sound_run h.choose_spec.1

theorem unused (h : Reached cfg s) : Unused cfg s := by
  obtain ⟨es, hr, ha⟩ := h
  exact (kept_run hr (keepsPcbs ha)).2

theorem accounted (h : Reached cfg s) : Accounted s := by
  obtain ⟨es, hr, ha⟩ := h
  exact accounted_run hr (keepsPcbs ha)

theorem contained (h : Reached cfg s) (p : Nat) : Contained cfg (s.view (p, .input)) := by
  obtain ⟨es, hr, ha⟩ := h
  exact contained_run hr (keepsPcbs ha) (ha.mono fun _ _ h => h.2.1) (ha.mono fun _ _ h => h.2.2.1)
    (ha.mono fun _ _ h => h.2.2.2) p

end Reached

@[simp] theorem asks_withGrant : s.asks cfg (e.withGrant header payload) = s.asks cfg e := by
  cases e with
  | call c =>
    cases c with
    | _ => rfl
  | _ => rfl

/-- What is careful if both blocks are granted, is so with every answer. -/
theorem Careful.withGrant (h : Careful cfg s (e.withGrant (some 0) (some 0))) :
    Careful cfg s (e.withGrant header payload) := by
  cases e with
  | call c =>
    cases c with
    | _ => exact h
  | input canif frame g =>
    refine ⟨True.intro, h.2.1, True.intro, fun p hp => ?_⟩
    obtain ⟨hopen, hcf⟩ := h.2.2.2 p hp
    refine ⟨fun ho => hopen ?_, hcf⟩
    unfold opensFf at ho ⊢
    rw [Bool.and_eq_true] at ho ⊢
    exact ⟨ho.1, rfl⟩
  | _ => exact h

/-- A step is possible with every answer that is fresh. -/
theorem Enabled.withGrant (h : s.Enabled (e.withGrant none none))
    (hf : ∀ garbage, Grant.Fresh ⟨header, payload, garbage⟩ s.heap.blocks) :
    s.Enabled (e.withGrant header payload) := by
  cases e with
  | call c =>
    cases c with
    | isotpSend => exact ⟨h.1, h.2.1, hf _⟩
    | _ => exact h
  | input => exact ⟨h.1, hf _⟩
  | _ => exact h

/-- The grant of an event that asks -/
theorem grant_withGrant {n : Nat} (header payload : Option Nat) (ha : s.asks cfg e = some n) :
    ∃ garbage, (e.withGrant header payload).grant = ⟨header, payload, garbage⟩ := by
  cases e with
  | call c =>
    cases c with
    | isotpSend pcb data g => exact ⟨g.garbage, rfl⟩
    | _ => cases ha
  | input canif frame g => exact ⟨g.garbage, rfl⟩
  | _ => cases ha

/-- **What a step may write to**: the fields of the buffers that there are, the fields of a new one,
and where it copies to -/
def regions (cfg : Config) (size : Nat) (s s' : Node) (e : Event) : List (Nat × Nat) :=
  (s.bufferNew cfg e).1.toList.map (·, size) ++
    s'.flows.flatMap fun k => (s.owned k).map (·, size) ++ s.copies s' k

/-- The blocks that a step gives back -/
def deleted (cfg : Config) (s s' : Node) (e : Event) : List Nat :=
  (s.bufferNew cfg e).2.blocks.filter (· ∉ s'.heap.blocks)

end Node

/-! ### The two together -/

/-- A node, and the heap that it shares with the application -/
structure Hosted where
  node : Node
  memory : MemoryHeap := {}

namespace Hosted

/-- What happens -/
inductive Event
  /-- The application uses the heap. -/
  | memory (e : MemoryHeap.Event)
  /-- The node takes a step. `header` is what the block of a new buffer holds once its fields are
  assigned, `cells` what the step writes then, both as a `BlockLink_t` at each address. -/
  | node (e : Lwcan.Event) (header cells : Nat → BlockLink)

/-- The blocks of the application -/
def own (h : Hosted) : List (Nat × Nat) := h.memory.live.filter (·.1 ∉ h.node.heap.blocks)

/-- What `lwcan_buffer_new` answers in a step of the node, if it is called, and the heap then.
`bufferSize` is `sizeof(struct lwcan_buffer)`. -/
def answer (cfg : Config) (c : MemConfig) (bufferSize : Nat) (h : Hosted) (e : Lwcan.Event)
    (header : Nat → BlockLink) : Option ((Option Nat × Option Nat) × MemoryHeap) :=
  match h.node.asks cfg e with
  | none => some ((none, none), h.memory)
  | some n => h.memory.lwcanBufferNew c bufferSize n header

/-- One step. Of the allocator's answer in a node's event nothing is left to the environment. What
the node copies lands where its address is: in other buffers, if it leaves its own, or in the
headers of blocks, which then say what `cells` says. There is no step if the library does not
survive it, or if a loop of the allocator does not end. -/
def step (cfg : Config) (c : MemConfig) (bufferSize : Nat) (h : Hosted) : Event → Option Hosted
  | .memory e => (h.memory.step c e).map fun memory => { h with memory }
  | .node e header cells =>
    (h.answer cfg c bufferSize e header).bind fun (r, memory) =>
      let e := e.withGrant r.1 r.2
      (h.node.step cfg e).bind fun node =>
        if h.node.Faults node (c.usize bufferSize) e then none
        else
          let memory := memory.fillAll c (h.node.regions cfg (c.usize bufferSize) node e) cells
          (memory.freeAll c (h.node.deleted cfg node e)).map fun memory =>
            { node := h.node.spread node, memory }

/-- What the application, the peer and the drivers may do: the application uses its own blocks only,
the node is handed what it can deal with if memory is short and if it is not, and no length is
larger than a `size_t`. -/
def Allowed (cfg : Config) (c : MemConfig) (h : Hosted) : Event → Prop
  | .memory e => MemoryHeap.Allowed c { h.memory with live := h.own } e
  | .node e _ _ => h.node.Enabled (e.withGrant none none) ∧
      h.node.Careful cfg (e.withGrant (some 0) (some 0)) ∧
        ∀ n ∈ h.node.asks cfg e, n < 2 ^ c.sizeBits

/-- **The invariant.** The node is one that careful steps lead to, the heap is sound, and the node's
buffers are live blocks of their sizes. -/
structure Hosts (cfg : Config) (c : MemConfig) (bufferSize : Nat) (h : Hosted) : Prop where
  node : h.node.Reached cfg
  memory : MemoryHeap.Sound c h.memory
  blocks : h.node.heap.blocks ⊆ h.memory.live.map Prod.fst
  header : ∀ k, ∀ b ∈ h.node.owned k, (b, c.usize bufferSize) ∈ h.memory.live
  payload : ∀ k, ∀ b ∈ h.node.owned k,
    ((h.node.heap.buffer b).payload, (h.node.heap.buffer b).length) ∈ h.memory.live

namespace Hosts

open Node

variable {cfg : Config} {c : MemConfig} {bufferSize : Nat} {h h' : Hosted} {e : Lwcan.Event}
  {n : Node} {header : Nat → BlockLink} {memory : MemoryHeap} {r : Option Nat × Option Nat}

theorem initial (cfg : Config) (c : MemConfig) (bufferSize : Nat) :
    Hosts cfg c bufferSize { node := lwcanInit cfg } := by
  have hnone : ∀ k, ∀ b, b ∉ (lwcanInit cfg).owned k := by
    rintro ⟨p, d⟩ b
    cases d <;> exact List.not_mem_nil
  exact ⟨Reached.initial cfg, MemoryHeap.Sound.initial c, List.nil_subset _,
    fun k b hb => absurd hb (hnone k b), fun k b hb => absurd hb (hnone k b)⟩

/-- While the node's blocks stay live, the heap may change. -/
theorem of_memory (hh : Hosts cfg c bufferSize h) (hs : MemoryHeap.Sound c memory)
    (hl : ∀ x ∈ h.memory.live, x.1 ∈ h.node.heap.blocks → x ∈ memory.live) :
    Hosts cfg c bufferSize { h with memory } := by
  have hheap := hh.node.accounted.heap
  refine ⟨hh.node, hs, ?_, ?_, ?_⟩
  · intro a ha
    obtain ⟨x, hx, rfl⟩ := List.mem_map.mp (hh.blocks ha)
    exact List.mem_map_of_mem (hl x hx ha)
  · intro k b hb
    exact hl _ (hh.header k b hb) (hheap.header hb)
  · intro k b hb
    exact hl _ (hh.payload k b hb) (hheap.payload hb)

/-- What the application is allowed with its own blocks, it is allowed, and it leaves the node's
alone. -/
theorem allowed_leaves {e : MemoryHeap.Event} (hh : Hosts cfg c bufferSize h)
    (ha : MemoryHeap.Allowed c { h.memory with live := h.own } e) :
    MemoryHeap.Allowed c h.memory e ∧
      ∀ x ∈ h.memory.live, x.1 ∈ h.node.heap.blocks → MemoryHeap.Leaves c x e := by
  cases e with
  | malloc size => exact ⟨ha, fun _ _ _ => True.intro⟩
  | free p =>
    cases p with
    | none => exact ⟨True.intro, fun _ _ _ => nofun⟩
    | some p =>
      obtain ⟨y, hy, rfl⟩ := List.mem_map.mp ha
      obtain ⟨hlive, hown⟩ := List.mem_filter.mp hy
      refine ⟨List.mem_map_of_mem hlive, fun x _ hnode heq => of_decide_eq_true hown ?_⟩
      rw [Option.some.inj heq]
      exact hnode
  | write a l =>
    obtain ⟨y, hy, hlo, hhi⟩ := ha
    obtain ⟨hlive, hown⟩ := List.mem_filter.mp hy
    refine ⟨⟨y, hlive, hlo, hhi⟩, fun x hx hnode => ?_⟩
    have hne : x.1 ≠ y.1 := fun heq => of_decide_eq_true hown (heq ▸ hnode)
    rcases hh.memory with ⟨-, hnone⟩ | ⟨bs, hi⟩
    · rw [hnone] at hx
      cases hx
    · exact hi.overlap_outside hx hlive hne hlo hhi

/-- **The application's step**: it can be taken, and spares the node's blocks. -/
theorem memory_step {e : MemoryHeap.Event} (hh : Hosts cfg c bufferSize h)
    (ha : MemoryHeap.Allowed c { h.memory with live := h.own } e) :
    ∃ memory, h.memory.step c e = some memory ∧ Hosts cfg c bufferSize { h with memory } ∧
      ∀ x ∈ h.memory.live, x.1 ∈ h.node.heap.blocks →
        x ∈ memory.live ∧ MemoryHeap.Spares c h.memory memory x := by
  obtain ⟨hallowed, hleaves⟩ := hh.allowed_leaves ha
  obtain ⟨memory, hst, hs⟩ := hh.memory.step hallowed
  have hkeep : ∀ x ∈ h.memory.live, x.1 ∈ h.node.heap.blocks →
      x ∈ memory.live ∧ MemoryHeap.Spares c h.memory memory x :=
    fun x hx hnode => hh.memory.step_spares hallowed (hleaves x hx hnode) hx hst
  exact ⟨memory, hst, hh.of_memory hs fun x hx hnode => (hkeep x hx hnode).1, hkeep⟩

/-- What the allocator answers to a step of the node: a new buffer is two live blocks more. -/
structure Answers (cfg : Config) (c : MemConfig) (bufferSize : Nat) (h : Hosted) (e : Lwcan.Event)
    (memory : MemoryHeap) : Prop where
  sound : MemoryHeap.Sound c memory
  spares : ∀ x ∈ h.memory.live, MemoryHeap.Spares c h.memory memory x
  none : (h.node.bufferNew cfg e).1 = none → memory.live = h.memory.live
  some : ∀ a b n, (h.node.bufferNew cfg e).1 = some a → e.grant.payload = some b →
    h.node.asks cfg e = some n → memory.live = (b, n) :: (a, c.usize bufferSize) :: h.memory.live ∧
      a ∉ h.memory.live.map Prod.fst ∧ b ∉ h.memory.live.map Prod.fst ∧ a ≠ b

theorem answer (hh : Hosts cfg c bufferSize h) (hfit : ∀ n ∈ h.node.asks cfg e, n < 2 ^ c.sizeBits)
    (header : Nat → BlockLink) : ∃ r memory, h.answer cfg c bufferSize e header = some (r, memory) ∧
      (∀ garbage, Grant.Fresh ⟨r.1, r.2, garbage⟩ h.node.heap.blocks) ∧
      Answers cfg c bufferSize h (e.withGrant r.1 r.2) memory := by
  unfold Hosted.answer
  cases ha : h.node.asks cfg e with
  | none =>
    have hnone : h.node.bufferNew cfg (e.withGrant none none) = (none, h.node.heap) :=
      bufferNew_of_none (by rw [asks_withGrant, ha])
    refine ⟨(none, none), h.memory, rfl, fun _ => ⟨nofun, nofun⟩, hh.memory,
      fun x _ => MemoryHeap.Spares.refl c h.memory x, fun _ => rfl, ?_⟩
    intro a b n hn
    rw [hnone] at hn
    cases hn
  | some n =>
    obtain ⟨⟨hd, pl⟩, memory, hrun, hallot⟩ := hh.memory.buffer_new bufferSize (hfit n ha) header
    obtain ⟨garbage, hg⟩ := grant_withGrant hd pl ha
    have hasks : h.node.asks cfg (e.withGrant hd pl) = some n := asks_withGrant.trans ha
    refine ⟨(hd, pl), memory, hrun, ?_, hallot.sound, hallot.spares, ?_, ?_⟩
    · intro _
      refine ⟨fun a ha => ⟨fun hmem => ?_, (hallot.header a ha).2⟩, fun b hb hmem => ?_⟩
      · exact (hallot.header a ha).1 (hh.blocks hmem)
      · exact hallot.payload b hb (hh.blocks hmem)
    · intro hno
      -- nothing was asked for, or a block is missing
      apply hallot.refused
      by_contra hcon
      obtain ⟨hz, hptr⟩ := not_or.mp hcon
      rw [bufferNew_of_some hasks, hg, ← Option.not_isSome_iff_eq_none] at hno
      refine hno ((Heap.lwcanBufferNew_isSome ..).mpr ⟨hz, ?_⟩)
      cases hd with
      | none => exact absurd (Option.bind_eq_none_iff.mpr fun _ _ => rfl) hptr
      | some a =>
        cases pl with
        | none => exact absurd rfl hptr
        | some b => rfl
    · intro a b m hnew hp hm
      obtain rfl : n = m := Option.some.inj (hasks.symm.trans hm)
      obtain ⟨-, -, -, -, hhd, -⟩ := bufferNew_some hnew
      rw [hg] at hhd hp
      obtain ⟨hfresh, hne⟩ := hallot.header a hhd
      exact ⟨hallot.granted a hhd b hp, hfresh, hallot.payload b hp, hne b hp⟩

/-- The two blocks of a new buffer -/
theorem new_blocks (ha : Answers cfg c bufferSize h e memory)
    (hst : Node.step cfg h.node e = some n) {a : Nat} (hn : (h.node.bufferNew cfg e).1 = some a) :
    (h.node.bufferNew cfg e).2.blocks = (n.heap.buffer a).payload :: a :: h.node.heap.blocks ∧
      memory.live = ((n.heap.buffer a).payload, (n.heap.buffer a).length) ::
        (a, c.usize bufferSize) :: h.memory.live ∧
      a ∉ h.memory.live.map Prod.fst ∧ (n.heap.buffer a).payload ∉ h.memory.live.map Prod.fst ∧
      a ≠ (n.heap.buffer a).payload := by
  obtain ⟨m, b, hasks, -, -, hp, hblocks, -⟩ := bufferNew_some hn
  obtain ⟨m', b', hasks', hp', hpay, hlen⟩ := buffer_new hst hn
  obtain rfl : m = m' := Option.some.inj (hasks.symm.trans hasks')
  obtain rfl : b = b' := Option.some.inj (hp.symm.trans hp')
  rw [hpay, hlen]
  exact ⟨hblocks, ha.some a b m hn hp hasks⟩

/-- What was live still is, before the step gives anything back. -/
theorem live_subset (ha : Answers cfg c bufferSize h e memory)
    (hst : Node.step cfg h.node e = some n) : h.memory.live ⊆ memory.live := by
  cases hn : (h.node.bufferNew cfg e).1 with
  | none => rw [ha.none hn]; exact List.Subset.refl _
  | some a =>
    rw [(new_blocks ha hst hn).2.1]
    exact List.subset_cons_of_subset _ (List.subset_cons_self _ _)

/-- The blocks of the node, before the step gives anything back, are live. -/
theorem blocks_live (hh : Hosts cfg c bufferSize h) (ha : Answers cfg c bufferSize h e memory)
    (hst : Node.step cfg h.node e = some n) :
    (h.node.bufferNew cfg e).2.blocks ⊆ memory.live.map Prod.fst := by
  cases hn : (h.node.bufferNew cfg e).1 with
  | none =>
    rw [ha.none hn, bufferNew_none (step_eq_some.mp hst).1 hn]
    exact hh.blocks
  | some a =>
    obtain ⟨hblocks, hlive, -⟩ := new_blocks ha hst hn
    rw [hblocks, hlive]
    exact List.cons_subset_cons _ (List.cons_subset_cons _ hh.blocks)

theorem blocks_nodup (hh : Hosts cfg c bufferSize h) (ha : Answers cfg c bufferSize h e memory)
    (hst : Node.step cfg h.node e = some n) : (h.node.bufferNew cfg e).2.blocks.Nodup := by
  have hnodup := hh.node.accounted.nodup
  cases hn : (h.node.bufferNew cfg e).1 with
  | none =>
    rw [bufferNew_none (step_eq_some.mp hst).1 hn]
    exact hnodup
  | some a =>
    obtain ⟨hblocks, -, hfresh, hpay, hne⟩ := new_blocks ha hst hn
    rw [hblocks, List.nodup_cons, List.nodup_cons, List.mem_cons, not_or]
    exact ⟨⟨hne.symm, fun hmem => hpay (hh.blocks hmem)⟩, fun hmem => hfresh (hh.blocks hmem),
      hnodup⟩

/-- **The buffers after the step are live blocks**, before it gives anything back. -/
theorem owned_live (hh : Hosts cfg c bufferSize h) (ha : Answers cfg c bufferSize h e memory)
    (hst : Node.step cfg h.node e = some n) {k : FlowId} {b : Nat}
    (hb : b ∈ h.node.owned k ∨ (h.node.bufferNew cfg e).1 = some b) :
    (b, c.usize bufferSize) ∈ memory.live ∧
      ((n.heap.buffer b).payload, (n.heap.buffer b).length) ∈ memory.live ∧
      b ∈ (h.node.bufferNew cfg e).2.blocks ∧
      (n.heap.buffer b).payload ∈ (h.node.bufferNew cfg e).2.blocks := by
  have hheap := hh.node.accounted.heap
  -- a buffer it had before keeps its blocks; a new one has those just allocated
  rcases hb with hold | hnew
  · obtain ⟨hpay, hlen⟩ := buffer_old hheap hst hold
    have hsub : h.node.heap.blocks ⊆ (h.node.bufferNew cfg e).2.blocks := by
      cases hn : (h.node.bufferNew cfg e).1 with
      | none =>
        rw [bufferNew_none (step_eq_some.mp hst).1 hn]
        exact List.Subset.refl _
      | some a =>
        rw [(new_blocks ha hst hn).1]
        exact List.subset_cons_of_subset _ (List.subset_cons_self _ _)
    rw [hpay, hlen]
    exact ⟨live_subset ha hst (hh.header k b hold), live_subset ha hst (hh.payload k b hold),
      hsub (hheap.header hold), hsub (hheap.payload hold)⟩
  · obtain ⟨hblocks, hlive, -⟩ := new_blocks ha hst hnew
    rw [hblocks, hlive]
    simp

/-- **The step writes to the node's own blocks only.** -/
theorem regions_inside (hh : Hosts cfg c bufferSize h) (ha : Answers cfg c bufferSize h e memory)
    (hst : Node.step cfg h.node e = some n) (hn : n.Reached cfg) {x : Nat × Nat}
    (hx : x ∈ h.node.regions cfg (c.usize bufferSize) n e) :
    ∃ y ∈ memory.live, y.1 ∈ (h.node.bufferNew cfg e).2.blocks ∧ y.1 ≤ x.1 ∧
      x.1 + x.2 ≤ y.1 + y.2 := by
  have hheader : ∀ {k b}, (b ∈ h.node.owned k ∨ (h.node.bufferNew cfg e).1 = some b) →
      ∃ y ∈ memory.live, y.1 ∈ (h.node.bufferNew cfg e).2.blocks ∧ y.1 ≤ b ∧
        b + c.usize bufferSize ≤ y.1 + y.2 := by
    intro k b hb
    obtain ⟨hlive, -, hblock, -⟩ := owned_live hh ha hst hb
    exact ⟨_, hlive, hblock, le_refl _, le_refl _⟩
  rcases List.mem_append.mp hx with hx | hx
  · obtain ⟨b, hb, rfl⟩ := List.mem_map.mp hx
    exact hheader (k := (0, .input)) (Or.inr (Option.mem_toList.mp hb))
  · obtain ⟨k, -, hx⟩ := List.mem_flatMap.mp hx
    rcases List.mem_append.mp hx with hx | hx
    · obtain ⟨b, hb, rfl⟩ := List.mem_map.mp hx
      exact hheader (Or.inl hb)
    · -- a copy
      obtain ⟨b, hw⟩ := exists_written hx
      obtain ⟨hb, hlo, hhi⟩ := copies_inside hh.node.sound hh.node.unused hst hn.contained hx hw
      obtain ⟨-, hlive, -, hblock⟩ := owned_live hh ha hst hb
      exact ⟨_, hlive, hblock, hlo, hhi⟩

/-- A buffer that the node has after the step, it had before, or it is the new one. -/
theorem buffers_old (hh : Hosts cfg c bufferSize h) (hst : Node.step cfg h.node e = some n)
    {b : Nat}
    (hb : b ∈ n.buffers) : ∃ k, b ∈ h.node.owned k ∨ (h.node.bufferNew cfg e).1 = some b := by
  obtain ⟨k, -, hb⟩ := exists_owner hb
  rcases List.mem_append.mp (owned_step hh.node.sound hh.node.unused hst k hb) with hnew | hold
  · exact ⟨k, Or.inr (Option.mem_toList.mp hnew)⟩
  · exact ⟨k, Or.inl hold⟩

/-- **The buffers lie apart**: a payload is not the header of any buffer, and that of one buffer
only. -/
theorem payload_apart (hh : Hosts cfg c bufferSize h) (ha : Answers cfg c bufferSize h e memory)
    (hst : Node.step cfg h.node e = some n) {k k' : FlowId} {b b' : Nat}
    (hb : b ∈ h.node.owned k ∨ (h.node.bufferNew cfg e).1 = some b)
    (hb' : b' ∈ h.node.owned k' ∨ (h.node.bufferNew cfg e).1 = some b') :
    (n.heap.buffer b).payload ≠ b' ∧
      ((n.heap.buffer b).payload = (n.heap.buffer b').payload → b = b') := by
  have hheap := hh.node.accounted.heap
  -- an old block is live before the step, a new one is not
  have hkey : ∀ {j x}, x ∈ h.node.owned j → x ∈ h.memory.live.map Prod.fst ∧
      (n.heap.buffer x).payload ∈ h.memory.live.map Prod.fst := by
    intro j x hx
    rw [(buffer_old hheap hst hx).1]
    exact ⟨List.mem_map_of_mem (hh.header j x hx), List.mem_map_of_mem (hh.payload j x hx)⟩
  have hfresh : ∀ {x}, (h.node.bufferNew cfg e).1 = some x → x ∉ h.memory.live.map Prod.fst ∧
      (n.heap.buffer x).payload ∉ h.memory.live.map Prod.fst ∧ x ≠ (n.heap.buffer x).payload := by
    intro x hx
    exact (new_blocks ha hst hx).2.2
  rcases hb with hold | hnew
  · rcases hb' with hold' | hnew'
    · rw [(buffer_old hheap hst hold).1, (buffer_old hheap hst hold').1]
      exact ⟨hheap.apart hold hold', hheap.payload_inj hold hold'⟩
    · refine ⟨fun heq => (hfresh hnew').1 (heq ▸ (hkey hold).2), fun heq => ?_⟩
      exact absurd (heq ▸ (hkey hold).2) (hfresh hnew').2.1
  · rcases hb' with hold' | hnew'
    · refine ⟨fun heq => (hfresh hnew).2.1 (heq ▸ (hkey hold').1), fun heq => ?_⟩
      exact absurd (heq ▸ (hkey hold').2) (hfresh hnew).2.1
    · obtain rfl : b = b' := Option.some.inj (hnew.symm.trans hnew')
      exact ⟨(hfresh hnew).2.2.symm, fun _ => rfl⟩

/-- **No copy leaves its buffer**, so what is copied spreads to no other. -/
theorem spread_step (hh : Hosts cfg c bufferSize h) (ha : Answers cfg c bufferSize h e memory)
    (hst : Node.step cfg h.node e = some n) (hn : n.Reached cfg) : h.node.spread n = n := by
  refine spread_eq fun k b hw r hr b' hb' i hi hlo hhi => ?_
  obtain ⟨hb, hfrom, hto⟩ := copies_inside hh.node.sound hh.node.unused hst hn.contained hr hw
  obtain ⟨k', hb'⟩ := buffers_old hh hst hb'
  by_contra hne
  have hkeys := mt (payload_apart hh ha hst hb hb').2 hne
  rcases ha.sound.live_apart (owned_live hh ha hst hb).2.1 (owned_live hh ha hst hb').2.1 hkeys with
    hap | hap
  · have hle : (n.heap.buffer b).payload + (n.heap.buffer b).length ≤ (n.heap.buffer b').payload :=
      hap
    omega
  · have hle : (n.heap.buffer b').payload + (n.heap.buffer b').length ≤ (n.heap.buffer b).payload :=
      hap
    omega

/-- **No step is one that the library does not survive.** -/
theorem not_faults (hh : Hosts cfg c bufferSize h) (ha : Answers cfg c bufferSize h e memory)
    (hst : Node.step cfg h.node e = some n) (hn : n.Reached cfg) :
    ¬h.node.Faults n (c.usize bufferSize) e := by
  rintro (hnull | ⟨k, -, r, hr, b', hb', hpos, hlo, hhi⟩)
  · exact not_readsNull hh.node.contained hnull
  · obtain ⟨b, hw⟩ := exists_written hr
    obtain ⟨hb, hfrom, hto⟩ := copies_inside hh.node.sound hh.node.unused hst hn.contained hr hw
    obtain ⟨k', hb'⟩ := buffers_old hh hst hb'
    rcases ha.sound.live_apart (owned_live hh ha hst hb).2.1 (owned_live hh ha hst hb').1
      (payload_apart hh ha hst hb hb').1 with hap | hap
    · have hle : (n.heap.buffer b).payload + (n.heap.buffer b).length ≤ b' := hap
      omega
    · have hle : b' + c.usize bufferSize ≤ (n.heap.buffer b).payload := hap
      omega

/-- The application's blocks are none of those that the node has in the step. -/
theorem own_notMem (ha : Answers cfg c bufferSize h e memory)
    (hst : Node.step cfg h.node e = some n)
    {x : Nat × Nat} (hx : x ∈ h.own) : x.1 ∉ (h.node.bufferNew cfg e).2.blocks := by
  obtain ⟨hlive, hown⟩ := List.mem_filter.mp hx
  have hkey : x.1 ∈ h.memory.live.map Prod.fst := List.mem_map_of_mem hlive
  have hnot : x.1 ∉ h.node.heap.blocks := of_decide_eq_true hown
  cases hn : (h.node.bufferNew cfg e).1 with
  | none =>
    rw [bufferNew_none (step_eq_some.mp hst).1 hn]
    exact hnot
  | some a =>
    obtain ⟨hblocks, -, hfresh, hpay, -⟩ := new_blocks ha hst hn
    rw [hblocks, List.mem_cons, List.mem_cons, not_or, not_or]
    exact ⟨fun heq => hpay (heq ▸ hkey), fun heq => hfresh (heq ▸ hkey), hnot⟩

/-- **The application's blocks** are what they were. -/
theorem own_step (ha : Answers cfg c bufferSize h e memory)
    (hst : Node.step cfg h.node e = some n) {memory' : MemoryHeap}
    (hl : memory'.live = memory.live.filter (·.1 ∉ h.node.deleted cfg n e)) :
    Hosted.own ⟨n, memory'⟩ = h.own := by
  have hsub := (noNew_step hst).blocks
  -- what is neither kept nor given back is the application's
  have hsame : Hosted.own ⟨n, memory'⟩ =
      memory.live.filter (·.1 ∉ (h.node.bufferNew cfg e).2.blocks) := by
    show memory'.live.filter (·.1 ∉ n.heap.blocks) = _
    rw [hl, List.filter_filter]
    refine List.filter_congr fun x _ => ?_
    rw [← Bool.decide_and]
    refine decide_eq_decide.mpr
      ⟨fun ⟨hn, hd⟩ hmem => ?_, fun hno => ⟨fun hmem => hno (hsub hmem), ?_⟩⟩
    · exact hd (List.mem_filter.mpr ⟨hmem, decide_eq_true hn⟩)
    · exact fun hd => hno (List.mem_filter.mp hd).1
  rw [hsame]
  cases hn : (h.node.bufferNew cfg e).1 with
  | none =>
    rw [ha.none hn, bufferNew_none (step_eq_some.mp hst).1 hn]
    rfl
  | some a =>
    obtain ⟨hblocks, hlive, hfresh, hpay, -⟩ := new_blocks ha hst hn
    rw [hblocks, hlive, List.filter_cons_of_neg (by simp), List.filter_cons_of_neg (by simp)]
    refine List.filter_congr fun x hx => ?_
    have hkey : x.1 ∈ h.memory.live.map Prod.fst := List.mem_map_of_mem hx
    refine decide_eq_decide.mpr (not_congr ?_)
    rw [List.mem_cons, List.mem_cons]
    constructor
    · rintro (heq | heq | hmem)
      · exact absurd (heq ▸ hkey) hpay
      · exact absurd (heq ▸ hkey) hfresh
      · exact hmem
    · exact fun hmem => Or.inr (Or.inr hmem)

/-- **The node's step**: it can be taken, and leaves the application its blocks, which it spares. -/
theorem node_step {cells : Nat → BlockLink} (hh : Hosts cfg c bufferSize h)
    (ha : h.Allowed cfg c (.node e header cells)) :
    ∃ t, h.step cfg c bufferSize (.node e header cells) = some t ∧ Hosts cfg c bufferSize t ∧
      t.own = h.own ∧ (∀ x ∈ h.own, MemoryHeap.Spares c h.memory t.memory x) ∧
      ∃ r memory, h.answer cfg c bufferSize e header = some (r, memory) ∧
        Node.step cfg h.node (e.withGrant r.1 r.2) = some t.node ∧
        Careful cfg h.node (e.withGrant r.1 r.2) := by
  obtain ⟨henabled, hcareful, hfit⟩ := ha
  obtain ⟨⟨hd, pl⟩, memory, hrun, hfresh, hans⟩ := hh.answer (e := e) hfit header
  have hcareful' : Careful cfg h.node (e.withGrant hd pl) := hcareful.withGrant
  obtain ⟨n, hst⟩ : ∃ n, Node.step cfg h.node (e.withGrant hd pl) = some n :=
    ⟨_, step_eq_some.mpr ⟨henabled.withGrant hfresh, rfl⟩⟩
  have hn : n.Reached cfg := hh.node.step hcareful' hst
  have hheap := hn.accounted.heap
  -- the writes, and then the blocks that go back
  have hinside : ∀ x ∈ h.node.regions cfg (c.usize bufferSize) n
      (e.withGrant hd pl), memory.Inside x := by
    intro x hx
    obtain ⟨y, hy, -, hlo, hhi⟩ := regions_inside hh hans hst hn hx
    exact ⟨y, hy, hlo, hhi⟩
  have hfill := hans.sound.fillAll hinside cells
  have hblocks := blocks_live hh hans hst
  have hdeleted : h.node.deleted cfg n (e.withGrant hd pl) ⊆ memory.live.map Prod.fst :=
    List.Subset.trans (List.filter_subset_self _) hblocks
  obtain ⟨memory', hfree, hsound, hlive, hspares⟩ :=
    hfill.freeAll hdeleted ((blocks_nodup hh hans hst).filter _)
  have hlive : memory'.live = memory.live.filter (·.1 ∉ h.node.deleted cfg n (e.withGrant hd pl)) :=
    hlive
  -- a block that the node keeps is not given back
  have hkept : ∀ x ∈ memory.live, x.1 ∈ n.heap.blocks → x ∈ memory'.live := by
    intro x hx hmem
    rw [hlive, List.mem_filter]
    refine ⟨hx, decide_eq_true fun hdel => ?_⟩
    exact of_decide_eq_true (List.mem_filter.mp hdel).2 hmem
  -- what a flow owns after the step it owned before, or the step has allocated it
  have howned : ∀ k, ∀ b ∈ n.owned k, b ∈ h.node.owned k ∨
      (h.node.bufferNew cfg (e.withGrant hd pl)).1 = some b := by
    intro k b hb
    rcases List.mem_append.mp (owned_step hh.node.sound hh.node.unused hst k hb) with hnew | hold
    · exact Or.inr (Option.mem_toList.mp hnew)
    · exact Or.inl hold
  refine ⟨⟨n, memory'⟩, ?_, ⟨hn, hsound, ?_, ?_, ?_⟩, ?_, fun x hx => ?_, (hd, pl), memory, hrun,
    hst, hcareful'⟩
  · show (h.answer cfg c bufferSize e header).bind _ = _
    rw [hrun, Option.bind_some]
    dsimp only
    rw [hst, Option.bind_some, if_neg (not_faults hh hans hst hn), hfree,
      spread_step hh hans hst hn]
    rfl
  · intro a hmem
    obtain ⟨x, hx, rfl⟩ := List.mem_map.mp (hblocks ((noNew_step hst).blocks hmem))
    exact List.mem_map_of_mem (hkept x hx hmem)
  · intro k b hb
    exact hkept _ (owned_live hh hans hst (howned k b hb)).1 (hheap.header hb)
  · intro k b hb
    exact hkept _ (owned_live hh hans hst (howned k b hb)).2.1 (hheap.payload hb)
  · exact own_step hans hst hlive
  · -- the application's own memory is neither written to nor given back
    have hout := own_notMem hans hst hx
    have hx₀ := (List.mem_filter.mp hx).1
    have hx₁ := live_subset hans hst hx₀
    have hx₂ : x ∈ memory'.live := by
      rw [hlive, List.mem_filter]
      exact ⟨hx₁, decide_eq_true fun hdel => hout (List.mem_filter.mp hdel).1⟩
    have hwrites := hans.sound.fillAll_spares hx₁ (fun r hr => by
      obtain ⟨y, hy, hblock, hlo, hhi⟩ := regions_inside hh hans hst hn hr
      exact ⟨y, hy, fun heq => hout (heq ▸ hblock), hlo, hhi⟩) cells
    exact (hans.spares x hx₀).trans (hwrites.trans (hspares x hx₂))

end Hosts

/-! ### Runs -/

open Node

variable {cfg : Config} {c : MemConfig} {bufferSize : Nat} {h : Hosted} {es : List Event}

/-- The node's part of an event: its own one, with what the allocator answers -/
def nodeEvents (cfg : Config) (c : MemConfig) (bufferSize : Nat) (h : Hosted) : Event →
    List Lwcan.Event
  | .memory _ => []
  | .node e header _ =>
    (h.answer cfg c bufferSize e header).elim [] fun x => [e.withGrant x.1.1 x.1.2]

/-- **The node's part of a run** -/
def nodeRun (cfg : Config) (c : MemConfig) (bufferSize : Nat) (es : List Event) :
    List Lwcan.Event :=
  Runs.translate (step cfg c bufferSize) (nodeEvents cfg c bufferSize) { node := lwcanInit cfg } es

/-- A condition on the node's part of an event -/
def OnNode (cfg : Config) (c : MemConfig) (bufferSize : Nat) (C : Node → Lwcan.Event → Prop)
    (h : Hosted) (e : Event) : Prop :=
  ∀ d ∈ h.nodeEvents cfg c bufferSize e, C h.node d

instance (cfg : Config) (c : MemConfig) (bufferSize : Nat) (C : Node → Lwcan.Event → Prop)
    [∀ s d, Decidable (C s d)] (h : Hosted) (e : Event) :
    Decidable (h.OnNode cfg c bufferSize C e) :=
  inferInstanceAs (Decidable (∀ d ∈ h.nodeEvents cfg c bufferSize e, C h.node d))

/-- The node's part of its own event -/
theorem nodeEvents_node {e : Lwcan.Event} {header cells : Nat → BlockLink} {memory : MemoryHeap}
    {r : Option Nat × Option Nat} (ha : h.answer cfg c bufferSize e header = some (r, memory)) :
    h.nodeEvents cfg c bufferSize (.node e header cells) = [e.withGrant r.1 r.2] := by
  show (h.answer cfg c bufferSize e header).elim _ _ = _
  rw [ha]
  rfl

theorem OnNode.of_answer {C : Node → Lwcan.Event → Prop} {e : Lwcan.Event}
    {header cells : Nat → BlockLink} {memory : MemoryHeap} {r : Option Nat × Option Nat}
    (hC : h.OnNode cfg c bufferSize C (.node e header cells))
    (ha : h.answer cfg c bufferSize e header = some (r, memory)) :
    C h.node (e.withGrant r.1 r.2) := by
  refine hC _ ?_
  rw [nodeEvents_node ha]
  exact List.mem_singleton_self _

theorem OnNode.and {C D : Node → Lwcan.Event → Prop} {e : Event}
    (hC : h.OnNode cfg c bufferSize C e)
    (hD : h.OnNode cfg c bufferSize D e) : h.OnNode cfg c bufferSize (fun s d => C s d ∧ D s d) e :=
  fun d hd => ⟨hC d hd, hD d hd⟩

/-- **What a run leads to**: a node in a state that its part of the run leads to, and a heap in one
piece whose live blocks are those of the application and those of the node, the latter with room for
what the node keeps there. -/
structure WellHosted (cfg : Config) (c : MemConfig) (bufferSize : Nat) (es : List Event)
  (h : Hosted) : Prop where
  node : Node.Run cfg (nodeRun cfg c bufferSize es) h.node ∧
    RunAlong cfg (Careful cfg) (nodeRun cfg c bufferSize es)
  heap : h.memory.pxEnd = none ∧ h.memory.live = [] ∨ ∃ bs, MemoryHeap.Integrity c h.memory bs
  blocks : (h.memory.live.map Prod.fst).Perm (h.own.map Prod.fst ++ h.node.heap.blocks)
  buffers : ∀ k, ∀ b ∈ h.node.owned k, (b, c.usize bufferSize) ∈ h.memory.live ∧
    ((h.node.heap.buffer b).payload, (h.node.heap.buffer b).length) ∈ h.memory.live
  returned : h.own = [] → (∀ k, h.node.owned k = []) → h.memory.live = []

/-- A pointer is handed out once. -/
theorem Hosts.live_nodup (hh : Hosts cfg c bufferSize h) : (h.memory.live.map Prod.fst).Nodup := by
  rcases hh.memory with ⟨-, hlive⟩ | ⟨bs, hi⟩
  · rw [hlive]
    exact List.nodup_nil
  · exact hi.nodup

/-- **The live blocks** are the application's and the node's. -/
theorem Hosts.partition (hh : Hosts cfg c bufferSize h) :
    (h.memory.live.map Prod.fst).Perm (h.own.map Prod.fst ++ h.node.heap.blocks) := by
  have hown : h.own.map Prod.fst ⊆ h.memory.live.map Prod.fst :=
    List.map_subset _ (List.filter_subset_self _)
  have hnot : ∀ a ∈ h.own.map Prod.fst, a ∉ h.node.heap.blocks := by
    intro a ha
    obtain ⟨x, hx, rfl⟩ := List.mem_map.mp ha
    exact of_decide_eq_true (List.mem_filter.mp hx).2
  refine (List.perm_ext_iff_of_nodup hh.live_nodup ?_).mpr fun a => ⟨fun ha => ?_, fun ha => ?_⟩
  · refine List.nodup_append.mpr ⟨?_, hh.node.accounted.nodup, ?_⟩
    · exact hh.live_nodup.sublist (List.Sublist.map _ List.filter_sublist)
    · rintro a ha b hb rfl
      exact hnot a ha hb
  · obtain ⟨x, hx, rfl⟩ := List.mem_map.mp ha
    by_cases hb : x.1 ∈ h.node.heap.blocks
    · exact List.mem_append_right _ hb
    · exact List.mem_append_left _
        (List.mem_map_of_mem (List.mem_filter.mpr ⟨hx, decide_eq_true hb⟩))
  · rcases List.mem_append.mp ha with ha | ha
    · exact hown ha
    · exact hh.blocks ha

/-- Without blocks of the application and buffers of the node nothing is live. -/
theorem Hosts.returned (hh : Hosts cfg c bufferSize h) (hown : h.own = [])
    (hnone : ∀ k, h.node.owned k = []) : h.memory.live = [] := by
  -- a block of the node would belong to a flow
  have hblocks : h.node.heap.blocks = [] := by
    refine List.eq_nil_iff_forall_not_mem.mpr fun a ha => ?_
    obtain ⟨k, b, hb, -⟩ := hh.node.accounted.owner a ha
    rw [hnone k] at hb
    cases hb
  have hpart := hh.partition
  rw [hown, hblocks] at hpart
  exact List.map_eq_nil_iff.mp (List.perm_nil.mp hpart)

/-- One event, seen by the node -/
theorem Hosts.step {C : Node → Lwcan.Event → Prop} {e : Event} (hh : Hosts cfg c bufferSize h)
    (ha : h.Allowed cfg c e) (hC : h.OnNode cfg c bufferSize C e) :
    ∃ t, h.step cfg c bufferSize e = some t ∧ Hosts cfg c bufferSize t ∧
      Runs.run (Node.step cfg) h.node (h.nodeEvents cfg c bufferSize e) = some t.node ∧
      Runs.Along (Node.step cfg) (fun s d => Careful cfg s d ∧ C s d) h.node
        (h.nodeEvents cfg c bufferSize e) := by
  cases e with
  | memory e =>
    obtain ⟨memory, hst, hh', -⟩ := hh.memory_step ha
    refine ⟨_, ?_, hh', rfl, True.intro⟩
    show (h.memory.step c e).map _ = _
    rw [hst]
    rfl
  | node e header cells =>
    obtain ⟨t, hst, hh', -, -, r, memory, hans, hnode, hcareful⟩ := hh.node_step ha
    rw [nodeEvents_node hans]
    exact ⟨t, hst, hh', Runs.run_cons.mpr ⟨_, hnode, rfl⟩, ⟨hcareful, hC.of_answer hans⟩,
      fun _ _ => True.intro⟩

/-- **A run of allowed events** reaches its end, and so does the node's part of it. -/
theorem Hosts.run {C : Node → Lwcan.Event → Prop}
    (hes : Runs.Along (Hosted.step cfg c bufferSize) (Allowed cfg c) { node := lwcanInit cfg } es)
    (hC : Runs.Along (Hosted.step cfg c bufferSize) (OnNode cfg c bufferSize C)
      { node := lwcanInit cfg } es) :
    ∃ h, Runs.run (Hosted.step cfg c bufferSize) { node := lwcanInit cfg } es = some h ∧
      Hosts cfg c bufferSize h ∧ Node.Run cfg (nodeRun cfg c bufferSize es) h.node ∧
        RunAlong cfg (Careful cfg) (nodeRun cfg c bufferSize es) ∧
        RunAlong cfg C (nodeRun cfg c bufferSize es) := by
  obtain ⟨h, hr, hh, hnode, halong⟩ := Runs.run_simulates (π := Hosted.node)
    (f := nodeEvents cfg c bufferSize)
    (C := fun s e => s.Allowed cfg c e ∧ s.OnNode cfg c bufferSize C e)
    (fun s e (hI : Hosts cfg c bufferSize s) hC => hI.step hC.1 hC.2)
    (Hosts.initial cfg c bufferSize) (hes.and hC)
  exact ⟨h, hr, hh, hnode, halong.mono fun _ _ h => h.1, halong.mono fun _ _ h => h.2⟩

/-- Every run meets the condition that nothing is required. -/
theorem onNode_true :
    Runs.Along (step cfg c bufferSize) (OnNode cfg c bufferSize fun _ _ => True)
      { node := lwcanInit cfg } es :=
  Runs.Along.of_forall (fun _ _ _ _ _ => True.intro) _

/-- **A node over the allocator.** Whatever the peer, the drivers and the application do, in any
order, as long as the application keeps to its own blocks: no run gets stuck, the node goes through
a run of its own, with the answers of the allocator, and the heap stays in one piece. -/
theorem hosted_run
    (hes : Runs.Along (step cfg c bufferSize) (Allowed cfg c) { node := lwcanInit cfg } es) :
    ∃ h, Runs.run (step cfg c bufferSize) { node := lwcanInit cfg } es = some h ∧
      WellHosted cfg c bufferSize es h := by
  obtain ⟨h, hrun, hh, hnode, hcareful, -⟩ := Hosts.run hes onNode_true
  refine ⟨h, hrun, ⟨hnode, hcareful⟩, ?_, hh.partition, ?_, ?_⟩
  · exact hh.memory.imp id fun ⟨bs, hi⟩ => ⟨bs, hi.integrity⟩
  · exact fun k b hb => ⟨hh.header k b hb, hh.payload k b hb⟩
  · exact hh.returned

instance (cfg : Config) (s : Node) (e : Lwcan.Event) : Decidable (s.Careful cfg e) :=
  inferInstanceAs (Decidable (_ ∧ _ ∧ _ ∧ _))

instance (cfg : Config) (c : MemConfig) (h : Hosted) : (e : Event) → Decidable (h.Allowed cfg c e)
  | .memory e =>
    inferInstanceAs (Decidable (MemoryHeap.Allowed c { h.memory with live := h.own } e))
  | .node _ _ _ => inferInstanceAs (Decidable (_ ∧ _ ∧ _))

/-- The application takes a block, a message is sent, the application takes another block, the frame
is confirmed, and the application gives its first block back. -/
def served : List Event :=
  [.memory (.malloc 20)] ++ connected.map (.node · (fun _ => {}) fun _ => {}) ++
    [.node (.call (.isotpSend (some 0) (some [1, 2, 3]) ⟨none, none, fun _ => 0⟩))
      (fun _ => {}) fun _ => {},
      .node (.timer ⟨0, 0, 0, fun _ => 0⟩ .ok) (fun _ => {}) fun _ => {}, .memory (.malloc 9),
      .node (.sent (0, .output) .ok) (fun _ => {}) fun _ => {}, .memory (.free (some 4112))]

theorem hosted_run_served : ∃ h,
    Runs.run (step {} MemoryHeap.smallHeap 12) { node := lwcanInit {} } served = some h ∧
    WellHosted {} MemoryHeap.smallHeap 12 served h :=
  hosted_run (by decide)

/-- **Isolated.** In every state that a run leads to: a step of the node leaves the application its
blocks, and what is stored there; what the application does leaves the node its blocks, and what is
stored there. -/
theorem isolated
    (hes : Runs.Along (step cfg c bufferSize) (Allowed cfg c) { node := lwcanInit cfg } es)
    (hr : Runs.run (step cfg c bufferSize) { node := lwcanInit cfg } es = some h) :
    (∀ e header cells, h.Allowed cfg c (.node e header cells) → ∃ t,
      h.step cfg c bufferSize (.node e header cells) = some t ∧ t.own = h.own ∧
        ∀ x ∈ h.own, MemoryHeap.Spares c h.memory t.memory x) ∧
    ∀ e, h.Allowed cfg c (.memory e) → ∃ t, h.step cfg c bufferSize (.memory e) = some t ∧
      t.node = h.node ∧ ∀ x ∈ h.memory.live, x.1 ∈ h.node.heap.blocks →
        x ∈ t.memory.live ∧ MemoryHeap.Spares c h.memory t.memory x := by
  have hh : Hosts cfg c bufferSize h := by
    obtain ⟨t, ht, hI, -⟩ := Hosts.run hes onNode_true
    obtain rfl := Option.some.inj (hr.symm.trans ht)
    exact hI
  refine ⟨fun e header cells ha => ?_, fun e ha => ?_⟩
  · obtain ⟨t, hst, -, hown, hspares, -⟩ := hh.node_step ha
    exact ⟨t, hst, hown, hspares⟩
  · obtain ⟨memory, hst, -, hspares⟩ := hh.memory_step ha
    refine ⟨{ h with memory }, ?_, rfl, hspares⟩
    show (h.memory.step c e).map _ = _
    rw [hst]
    rfl

theorem isolated_served : ∃ h,
    Runs.run (step {} MemoryHeap.smallHeap 12) { node := lwcanInit {} } (served.take 6) = some h ∧
    (∀ e header cells, h.Allowed {} MemoryHeap.smallHeap (.node e header cells) → ∃ t,
      h.step {} MemoryHeap.smallHeap 12 (.node e header cells) = some t ∧ t.own = h.own ∧
        ∀ x ∈ h.own, MemoryHeap.Spares MemoryHeap.smallHeap h.memory t.memory x) ∧
    ∀ e, h.Allowed {} MemoryHeap.smallHeap (.memory e) → ∃ t,
      h.step {} MemoryHeap.smallHeap 12 (.memory e) = some t ∧ t.node = h.node ∧
        ∀ x ∈ h.memory.live, x.1 ∈ h.node.heap.blocks →
          x ∈ t.memory.live ∧ MemoryHeap.Spares MemoryHeap.smallHeap h.memory t.memory x := by
  obtain ⟨h, hr, -⟩ := Runs.exists_run (step {} MemoryHeap.smallHeap 12) { node := lwcanInit {} }
    (served.take 6) (fun _ => True) (by decide)
  exact ⟨h, hr, isolated (by decide) hr⟩

end Hosted
end Lwcan
