import Mathlib.Data.List.Basic
import Mathlib.Tactic.Common

/-!
# Addressable memory: block copies and slices

A region of memory is a function from offsets to cells; what lies past an object is part of it, so
a copy that runs over the end of an object is an ordinary copy. Two operations are enough for
code that moves payloads around:

* `blit` — a block copy (`memcpy`) into a region;
* `slice` — a stretch of a region, read as a list.

The lemmas say how they compose: a slice of a concatenated stretch splits (`slice_add`), a slice
of the stretch just copied is the source's (`slice_blit_self`), and a slice beside it is untouched
(`slice_blit_below`).
-/

namespace Lwcan
namespace Mem

variable {α : Type*}

/-- The `n` cells of `m` from offset `off` on. -/
def slice (m : Nat → α) (off n : Nat) : List α :=
  (List.range n).map fun i => m (off + i)

/-- Copy `n` cells of `src` to offset `off` of `m`. -/
def blit (m : Nat → α) (off : Nat) (src : Nat → α) (n : Nat) : Nat → α :=
  fun i => if off ≤ i ∧ i < off + n then src (i - off) else m i

@[simp] theorem length_slice (m : Nat → α) (off n : Nat) : (slice m off n).length = n := by
  simp [slice]

@[simp] theorem slice_zero (m : Nat → α) (off : Nat) : slice m off 0 = [] := rfl

theorem getElem?_slice (m : Nat → α) (off n i : Nat) :
    (slice m off n)[i]? = if i < n then some (m (off + i)) else none := by
  by_cases h : i < n <;> simp [slice, h]

/-- Slices agree when the cells they read agree. -/
theorem slice_congr {m m' : Nat → α} {off off' n : Nat}
    (h : ∀ i, i < n → m (off + i) = m' (off' + i)) : slice m off n = slice m' off' n := by
  unfold slice
  exact List.map_congr_left fun i hi => h i (List.mem_range.mp hi)

/-- A constant stretch -/
theorem slice_const (a : α) (off n : Nat) : slice (fun _ => a) off n = List.replicate n a := by
  simp [slice]

/-- A stretch splits at any point. -/
theorem slice_add (m : Nat → α) (off n k : Nat) :
    slice m off (n + k) = slice m off n ++ slice m (off + n) k := by
  unfold slice
  rw [List.range_add, List.map_append, List.map_map]
  congr 1
  exact List.map_congr_left fun i _ => by simp [Nat.add_assoc]

/-- The head of a stretch is a shorter stretch. -/
theorem take_slice (m : Nat → α) (off : Nat) {n k : Nat} (h : k ≤ n) :
    (slice m off n).take k = slice m off k := by
  obtain ⟨r, rfl⟩ := Nat.exists_eq_add_of_le h
  rw [slice_add, List.take_append_of_le_length (by simp), List.take_of_length_le (by simp)]

/-- The rest of a stretch is a later stretch. -/
theorem drop_slice (m : Nat → α) (off : Nat) {n k : Nat} (h : k ≤ n) :
    (slice m off n).drop k = slice m (off + k) (n - k) := by
  obtain ⟨r, rfl⟩ := Nat.exists_eq_add_of_le h
  rw [slice_add, List.drop_append_of_le_length (by simp), List.drop_of_length_le (by simp)]
  simp

/-- Copying nothing changes nothing. -/
@[simp] theorem blit_zero (m : Nat → α) (off : Nat) (src : Nat → α) : blit m off src 0 = m := by
  funext i
  unfold blit
  rw [if_neg (by omega)]

/-- A copy depends on the cells it copies only. -/
theorem blit_congr {m : Nat → α} {off n : Nat} {src src' : Nat → α} (h : ∀ i < n, src i = src' i) :
    blit m off src n = blit m off src' n := by
  funext i
  unfold blit
  split
  · exact h _ (by omega)
  · rfl

/-- A cell of the stretch that was copied to. -/
theorem blit_add (m : Nat → α) (off : Nat) (src : Nat → α) {n d : Nat} (hd : d < n) :
    blit m off src n (off + d) = src d := by
  unfold blit
  rw [if_pos (by omega), Nat.add_sub_cancel_left]

/-- A cell behind the stretch that was copied to. -/
theorem blit_of_le (m : Nat → α) {off n i : Nat} (src : Nat → α) (h : off + n ≤ i) :
    blit m off src n i = m i := by
  unfold blit
  rw [if_neg (by omega)]

/-- What was copied reads back as the source. -/
theorem slice_blit_self (m : Nat → α) (off : Nat) (src : Nat → α) (n : Nat) :
    slice (blit m off src n) off n = slice src 0 n := by
  refine slice_congr fun i hi => ?_
  unfold blit
  rw [if_pos (by omega)]
  congr 1
  omega

/-- A stretch that ends where the copy begins is untouched. -/
theorem slice_blit_below (m : Nat → α) {off : Nat} (src : Nat → α) (n : Nat) {a k : Nat}
    (h : a + k ≤ off) : slice (blit m off src n) a k = slice m a k := by
  refine slice_congr fun i hi => ?_
  unfold blit
  rw [if_neg (by omega)]

end Mem
end Lwcan
