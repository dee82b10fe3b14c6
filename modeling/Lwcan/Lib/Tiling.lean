import Mathlib.Algebra.BigOperators.Group.List.Basic
import Mathlib.Algebra.GroupWithZero.Nat
import Mathlib.Data.List.Chain
import Mathlib.Tactic.Common

/-!
# Arenas cut into blocks

An allocator cuts an arena into blocks, each used or free. The blocks are a list in the order of
their addresses; the free list and the number of free bytes are read off it.

* `Tiles a bs e` — the blocks lie side by side from `a` to `e`;
* `Tiles.pairwise`, `Tiles.mem` — then they are disjoint and lie inside;
* `Tiles.eq_concat` — a block that ends where a list of blocks does is the last of it;
* `frees`, `freeBytes`, `useds` — the addresses of the free blocks, their bytes, the used blocks;
* `Tiles.frees_pairwise` — the free blocks are sorted by address;
* `first_fit` — the first free block that is large enough;
* `Merged` — no two free blocks lie side by side, and where a free block may be put
  (`Merged.insert`);
* `Merged.eq_of_useds` — merged blocks that fill an arena are determined by the used ones.
-/

namespace Lwcan

/-- A block of an arena -/
structure Tile where
  addr : Nat
  size : Nat
  used : Bool
  deriving DecidableEq, Repr

/-- The blocks lie side by side from `a` to `e`. -/
def Tiles : Nat → List Tile → Nat → Prop
  | a, [], e => a = e
  | a, b :: bs, e => b.addr = a ∧ Tiles (a + b.size) bs e

/-- The addresses of the free blocks -/
def frees (bs : List Tile) : List Nat := (bs.filter (!·.used)).map Tile.addr

/-- The bytes of the free blocks, headers included -/
def freeBytes (bs : List Tile) : Nat := ((bs.filter (!·.used)).map Tile.size).sum

/-- The used blocks -/
def useds (bs : List Tile) : List Tile := bs.filter (·.used)

/-- No two free blocks lie side by side. -/
def Merged (bs : List Tile) : Prop := bs.IsChain fun b c => b.used ∨ c.used

variable {a e m x : Nat} {b c n : Tile} {bs xs ys : List Tile}

section Lists

@[simp] theorem frees_append (xs ys : List Tile) : frees (xs ++ ys) = frees xs ++ frees ys := by
  simp [frees]

@[simp] theorem freeBytes_append (xs ys : List Tile) :
    freeBytes (xs ++ ys) = freeBytes xs + freeBytes ys := by
  simp [freeBytes]

@[simp] theorem useds_append (xs ys : List Tile) : useds (xs ++ ys) = useds xs ++ useds ys := by
  simp [useds]

@[simp] theorem frees_nil : frees [] = [] := rfl
@[simp] theorem freeBytes_nil : freeBytes [] = 0 := rfl
@[simp] theorem useds_nil : useds [] = [] := rfl

theorem frees_cons_used (h : b.used) (bs : List Tile) : frees (b :: bs) = frees bs := by
  simp [frees, h]

theorem frees_cons_free (h : b.used = false) (bs : List Tile) :
    frees (b :: bs) = b.addr :: frees bs := by
  simp [frees, h]

theorem freeBytes_cons_used (h : b.used) (bs : List Tile) : freeBytes (b :: bs) = freeBytes bs := by
  simp [freeBytes, h]

theorem freeBytes_cons_free (h : b.used = false) (bs : List Tile) :
    freeBytes (b :: bs) = b.size + freeBytes bs := by
  simp [freeBytes, h]

theorem useds_cons_used (h : b.used) (bs : List Tile) : useds (b :: bs) = b :: useds bs := by
  simp [useds, h]

theorem useds_cons_free (h : b.used = false) (bs : List Tile) : useds (b :: bs) = useds bs := by
  simp [useds, h]

theorem mem_frees : x ∈ frees bs ↔ ∃ b ∈ bs, b.used = false ∧ b.addr = x := by
  simp [frees, and_assoc]

theorem mem_useds : b ∈ useds bs ↔ b ∈ bs ∧ b.used := by
  simp [useds]

/-- A free block is no larger than all free blocks together. -/
theorem size_le_freeBytes (hb : b ∈ bs) (hf : b.used = false) : b.size ≤ freeBytes bs := by
  obtain ⟨xs, ys, rfl⟩ := List.append_of_mem hb
  rw [freeBytes_append, freeBytes_cons_free hf]
  omega

/-- What holds of all blocks holds of one and of the others. -/
theorem forall_middle {p : Tile → Prop} :
    (∀ b ∈ xs ++ n :: ys, p b) ↔ p n ∧ ∀ b ∈ xs ++ ys, p b := by
  simp only [List.perm_middle.mem_iff, List.forall_mem_cons]

end Lists

/-! ### Side by side -/

theorem tiles_append : Tiles a (xs ++ ys) e ↔ ∃ m, Tiles a xs m ∧ Tiles m ys e := by
  induction xs generalizing a with
  | nil => simp [Tiles]
  | cons b xs ih =>
    rw [List.cons_append]
    constructor
    · rintro ⟨hb, h⟩
      obtain ⟨m, hx, hy⟩ := ih.mp h
      exact ⟨m, ⟨hb, hx⟩, hy⟩
    · rintro ⟨m, ⟨hb, hx⟩, hy⟩
      exact ⟨hb, ih.mpr ⟨m, hx, hy⟩⟩

/-- A block between two lists of blocks -/
theorem tiles_middle : Tiles a (xs ++ n :: ys) e ↔ Tiles a xs n.addr ∧
    Tiles (n.addr + n.size) ys e := by
  rw [tiles_append]
  constructor
  · rintro ⟨m, hx, rfl, hy⟩
    exact ⟨hx, hy⟩
  · rintro ⟨hx, hy⟩
    exact ⟨_, hx, rfl, hy⟩

theorem Tiles.le (h : Tiles a bs e) : a ≤ e := by
  induction bs generalizing a with
  | nil => exact (show a = e from h).le
  | cons b bs ih => exact (Nat.le_add_right _ _).trans (ih h.2)

/-- **Inside** -/
theorem Tiles.mem (h : Tiles a bs e) (hb : b ∈ bs) : a ≤ b.addr ∧ b.addr + b.size ≤ e := by
  obtain ⟨xs, ys, rfl⟩ := List.append_of_mem hb
  obtain ⟨hx, hy⟩ := tiles_middle.mp h
  exact ⟨hx.le, hy.le⟩

/-- **Disjoint** -/
theorem Tiles.pairwise (h : Tiles a bs e) : bs.Pairwise fun b c => b.addr + b.size ≤ c.addr := by
  induction bs generalizing a with
  | nil => exact List.Pairwise.nil
  | cons b bs ih =>
    refine List.pairwise_cons.mpr ⟨fun c hc => ?_, ih h.2⟩
    rw [h.1]
    exact (h.2.mem hc).1

/-- Of two blocks one lies in front of the other. -/
theorem Tiles.apart (h : Tiles a bs e) (hb : b ∈ bs) (hc : c ∈ bs) (hbc : b ≠ c) :
    b.addr + b.size ≤ c.addr ∨ c.addr + c.size ≤ b.addr := by
  obtain ⟨xs, ys, rfl⟩ := List.append_of_mem hb
  obtain ⟨hx, hy⟩ := tiles_middle.mp h
  rcases List.mem_append.mp hc with hc | hc
  · exact Or.inr (hx.mem hc).2
  · rcases List.mem_cons.mp hc with rfl | hc
    · exact absurd rfl hbc
    · exact Or.inl (hy.mem hc).1

/-- Two blocks at one address are one block. -/
theorem Tiles.eq_of_addr (h : Tiles a bs e) (hpos : ∀ b ∈ bs, 0 < b.size) (hb : b ∈ bs)
    (hc : c ∈ bs) (hbc : b.addr = c.addr) : b = c := by
  by_contra hne
  have hb0 := hpos b hb
  have hc0 := hpos c hc
  rcases h.apart hb hc hne with hle | hle
  · omega
  · omega

/-- **The block that ends where the list does** is its last one. -/
theorem Tiles.eq_concat (h : Tiles a xs m) (hpos : ∀ b ∈ xs, 0 < b.size) (hb : b ∈ xs)
    (he : b.addr + b.size = m) : ∃ ys, xs = ys ++ [b] := by
  obtain ⟨ys, zs, rfl⟩ := List.append_of_mem hb
  refine ⟨ys, ?_⟩
  cases zs with
  | nil => rfl
  | cons c zs =>
    obtain ⟨-, hy⟩ := tiles_middle.mp h
    have hc0 := hpos c (by simp)
    have := (hy.mem (b := c) List.mem_cons_self)
    omega

/-- The last block of a list ends where the list does. -/
theorem Tiles.last_end (h : Tiles a (xs ++ [b]) m) : b.addr + b.size = m := (tiles_middle.mp h).2

/-- **The free blocks are sorted by address.** -/
theorem Tiles.frees_pairwise (h : Tiles a bs e) (hpos : ∀ b ∈ bs, 0 < b.size) :
    (frees bs).Pairwise (· < ·) := by
  unfold frees
  rw [List.pairwise_map]
  refine List.Pairwise.filter _ (List.Pairwise.imp_of_mem ?_ h.pairwise)
  intro b c hb _ hbc
  have := hpos b hb
  omega

/-- Blocks of aligned sizes behind an aligned address are aligned. -/
theorem Tiles.dvd_addr {k : Nat} (h : Tiles a bs e) (ha : k ∣ a) (hs : ∀ b ∈ bs, k ∣ b.size)
    (hb : b ∈ bs) : k ∣ b.addr := by
  induction bs generalizing a with
  | nil => cases hb
  | cons c bs ih =>
    rcases List.mem_cons.mp hb with rfl | hb
    · rw [h.1]
      exact ha
    · apply ih h.2 _ (fun d hd => hs d (List.mem_cons_of_mem _ hd)) hb
      exact Nat.dvd_add ha (hs c List.mem_cons_self)

/-- The blocks fill the arena. -/
theorem Tiles.sum_size (h : Tiles a bs e) : a + (bs.map Tile.size).sum = e := by
  induction bs generalizing a with
  | nil => exact h
  | cons b bs ih =>
    rw [List.map_cons, List.sum_cons, ← Nat.add_assoc]
    exact ih h.2

/-- There are no more blocks than bytes. -/
theorem Tiles.length_le (h : Tiles a bs e) (hpos : ∀ b ∈ bs, 0 < b.size) :
    a + bs.length ≤ e := by
  induction bs generalizing a with
  | nil => exact (show a = e from h).le
  | cons b bs ih =>
    have hb := hpos b List.mem_cons_self
    have := ih h.2 fun c hc => hpos c (List.mem_cons_of_mem _ hc)
    rw [List.length_cons]
    omega

theorem freeBytes_le_sum (bs : List Tile) : freeBytes bs ≤ (bs.map Tile.size).sum := by
  induction bs with
  | nil => exact le_refl _
  | cons b bs ih =>
    rw [List.map_cons, List.sum_cons]
    cases hb : b.used with
    | true =>
      rw [freeBytes_cons_used hb]
      omega
    | false =>
      rw [freeBytes_cons_free hb]
      omega

/-- A used block has room beside the free ones. -/
theorem freeBytes_add_le_sum (hb : b ∈ bs) (hu : b.used) :
    freeBytes bs + b.size ≤ (bs.map Tile.size).sum := by
  obtain ⟨xs, ys, rfl⟩ := List.append_of_mem hb
  have hx := freeBytes_le_sum xs
  have hy := freeBytes_le_sum ys
  rw [freeBytes_append, freeBytes_cons_used hu, List.map_append, List.sum_append, List.map_cons,
    List.sum_cons]
  omega

/-- **First fit**: no free block is large enough, or there is a first one. -/
theorem first_fit (bs : List Tile) (x : Nat) : (∀ b ∈ bs, b.used = false → b.size < x) ∨
    ∃ xs b ys, bs = xs ++ b :: ys ∧ b.used = false ∧ x ≤ b.size ∧
      ∀ d ∈ xs, d.used = false → d.size < x := by
  induction bs with
  | nil => exact Or.inl nofun
  | cons c bs ih =>
    by_cases hc : c.used = false ∧ x ≤ c.size
    · exact Or.inr ⟨[], c, bs, rfl, hc.1, hc.2, nofun⟩
    · have hsmall : c.used = false → c.size < x := fun hf => Nat.lt_of_not_le fun hle =>
        hc ⟨hf, hle⟩
      rcases ih with hall | ⟨xs, b, ys, rfl, hb, hxb, hbefore⟩
      · exact Or.inl (List.forall_mem_cons.mpr ⟨hsmall, hall⟩)
      · exact Or.inr ⟨c :: xs, b, ys, rfl, hb, hxb, List.forall_mem_cons.mpr ⟨hsmall, hbefore⟩⟩

/-! ### Merged blocks -/

theorem Merged.left (h : Merged (xs ++ ys)) : Merged xs := List.IsChain.left_of_append h

theorem Merged.right (h : Merged (xs ++ ys)) : Merged ys := List.IsChain.right_of_append h

theorem Merged.tail (h : Merged (b :: bs)) : Merged bs := List.IsChain.tail h

/-- A block between blocks that are used -/
theorem Merged.insert (hx : Merged xs) (hy : Merged ys) (hl : ∀ b ∈ xs.getLast?, b.used)
    (hr : ∀ b ∈ ys.head?, b.used) : Merged (xs ++ n :: ys) := by
  refine List.isChain_append.mpr ⟨hx, List.isChain_cons.mpr ⟨fun c hc => Or.inr (hr c hc), hy⟩, ?_⟩
  exact fun b hb c _ => Or.inl (hl b hb)

theorem Merged.nil : Merged [] := List.isChain_nil

/-- A used block goes anywhere. -/
theorem Merged.insert_used (hx : Merged xs) (hy : Merged ys) (hn : n.used) :
    Merged (xs ++ n :: ys) := by
  refine List.isChain_append.mpr ⟨hx, List.isChain_cons.mpr ⟨fun c _ => Or.inl hn, hy⟩, ?_⟩
  intro b _ c hc
  obtain rfl : n = c := Option.some.inj hc
  exact Or.inr hn

/-- What lies in front of a free block is used. -/
theorem Merged.used_before (h : Merged (xs ++ n :: ys)) (hn : n.used = false) :
    ∀ b ∈ xs.getLast?, b.used := by
  intro b hb
  rcases (List.isChain_append.mp h).2.2 b hb n rfl with hu | hu
  · exact hu
  · rw [hn] at hu
    cases hu

/-- What lies behind a free block is used. -/
theorem Merged.head_used (h : Merged (n :: ys)) (hn : n.used = false) : ∀ b ∈ ys.head?, b.used := by
  intro b hb
  rcases (List.isChain_cons.mp h).1 b hb with hu | hu
  · rw [hn] at hu
    cases hu
  · exact hu

/-- Two blocks that begin at one address, in front of one address, are one. -/
theorem Tile.eq_of_ends (ha : b.addr = c.addr) (he : b.addr + b.size = c.addr + c.size)
    (hu : b.used = c.used) : b = c := by
  obtain ⟨addr, size, used⟩ := b
  obtain ⟨addr', size', used'⟩ := c
  simp only at ha he hu
  obtain rfl := ha
  obtain rfl := hu
  rw [Nat.add_left_cancel he]

/-- What lies behind a free block is nothing, or the first used block. -/
theorem Merged.tail_used (h : Merged (n :: ys)) (hn : n.used = false) :
    ys = [] ∧ useds ys = [] ∨ ∃ c zs, ys = c :: zs ∧ useds ys = c :: useds zs := by
  cases ys with
  | nil => exact Or.inl ⟨rfl, rfl⟩
  | cons c zs => exact Or.inr ⟨c, zs, rfl, useds_cons_used (h.head_used hn c rfl) zs⟩

/-- A list of blocks that begins with a free one does not begin with its first used one. -/
theorem Merged.head_free_ne (h : Merged (n :: ys)) (hn : n.used = false) (ht : Tiles a (n :: ys) e)
    (hpos : 0 < n.size) (hu : useds ys = b :: bs) : b.addr ≠ a := by
  obtain ⟨-, hnil⟩ | ⟨c, zs, rfl, hc⟩ := h.tail_used hn
  · rw [hnil] at hu
    cases hu
  · obtain ⟨rfl, -⟩ := List.cons.inj (hc.symm.trans hu)
    have haddr : c.addr = a + n.size := ht.2.1
    omega

/-- **Merged blocks are determined by the used ones**: the free ones are what is between them. -/
theorem Merged.eq_of_useds (hx : Merged xs) (hy : Merged ys) (htx : Tiles a xs e)
    (hty : Tiles a ys e)
    (hpx : ∀ b ∈ xs, 0 < b.size) (hpy : ∀ b ∈ ys, 0 < b.size) (hu : useds xs = useds ys) :
    xs = ys := by
  induction xs generalizing a ys with
  | nil =>
    cases ys with
    | nil => rfl
    | cons c ys =>
      have hae : a = e := htx
      have hc := hpy c List.mem_cons_self
      have hle := (hty.mem (b := c) List.mem_cons_self).2
      have hca : c.addr = a := hty.1
      omega
  | cons b xs ih =>
    cases ys with
    | nil =>
      have hae : a = e := hty
      have hb := hpx b List.mem_cons_self
      have hle := (htx.mem (b := b) List.mem_cons_self).2
      have hba : b.addr = a := htx.1
      omega
    | cons c ys =>
      have hpx' : ∀ d ∈ xs, 0 < d.size := fun d hd => hpx d (List.mem_cons_of_mem _ hd)
      have hpy' : ∀ d ∈ ys, 0 < d.size := fun d hd => hpy d (List.mem_cons_of_mem _ hd)
      have haddr : b.addr = c.addr := htx.1.trans hty.1.symm
      -- once the first blocks are the same, so are the others
      have hrest : b = c → useds xs = useds ys → b :: xs = c :: ys := by
        rintro rfl hu'
        rw [ih hx.tail hy.tail htx.2 hty.2 hpx' hpy' hu']
      cases hb : b.used with
      | true =>
        rw [useds_cons_used hb] at hu
        cases hc : c.used with
        | true =>
          rw [useds_cons_used hc] at hu
          obtain ⟨hbc, hu'⟩ := List.cons.inj hu
          exact hrest hbc hu'
        | false =>
          rw [useds_cons_free hc] at hu
          exact absurd htx.1 (hy.head_free_ne hc hty (hpy c List.mem_cons_self) hu.symm)
      | false =>
        rw [useds_cons_free hb] at hu
        cases hc : c.used with
        | true =>
          rw [useds_cons_used hc] at hu
          exact absurd hty.1 (hx.head_free_ne hb htx (hpx b List.mem_cons_self) hu)
        | false =>
          rw [useds_cons_free hc] at hu
          refine hrest (Tile.eq_of_ends haddr ?_ (hb.trans hc.symm)) hu
          -- both end where the next used block begins, or the arena ends
          obtain ⟨rfl, hnil⟩ | ⟨d, zs, rfl, hd⟩ := hx.tail_used hb
          · obtain ⟨rfl, -⟩ | ⟨d', zs', rfl, hd'⟩ := hy.tail_used hc
            · have hbe : a + b.size = e := htx.2
              have hce : a + c.size = e := hty.2
              rw [htx.1, hty.1, hbe, hce]
            · rw [hnil, hd'] at hu
              cases hu
          · obtain ⟨rfl, hnil⟩ | ⟨d', zs', rfl, hd'⟩ := hy.tail_used hc
            · rw [hnil, hd] at hu
              cases hu
            · rw [hd, hd'] at hu
              obtain ⟨rfl, -⟩ := List.cons.inj hu
              have hbd : d.addr = a + b.size := htx.2.1
              have hcd : d.addr = a + c.size := hty.2.1
              rw [htx.1, hty.1, ← hbd, ← hcd]

end Lwcan
