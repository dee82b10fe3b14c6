import Mathlib.Data.List.Basic
import Mathlib.Tactic.Common
import Mathlib.Tactic.Ring

/-!
# Fixed-chunk pools

Timeouts, ISO-TP pcbs and raw pcbs come from three pools with one algorithm
(`timeout_malloc`/`timeout_free`, `isotp_pcb_malloc`/`isotp_pcb_free`, `canraw_pcb_malloc`/
`canraw_pcb_free`): `num` chunks of `chunk` bytes, and behind them one service byte for each chunk,
`0xAA` while the chunk is allocated. An address in the pool is a byte offset from its start.

The model covers pools whose indices stay below 65535, the range of the loop counter of `malloc`.
-/

namespace Lwcan

/-- A pool: the chunk size and the service bytes (`true` for `0xAA`). -/
structure Pool where
  chunk : Nat
  service : List Bool
  deriving DecidableEq, Repr

namespace Pool

/-- The pool after `memset(pool, 0, sizeof(pool))`. -/
def init (chunk num : Nat) : Pool := ⟨chunk, List.replicate num false⟩

/-- Mark the first chunk whose service byte is 0 and return its address. -/
def malloc (p : Pool) : Option (Nat × Pool) :=
  match p.service.findIdx? (! ·) with
  | none => none
  | some i => some (i * p.chunk, { p with service := p.service.set i true })

/-- Free the chunk at address `mem`. The offset within the pool is kept in a `uint8_t`. -/
def free (p : Pool) (mem : Nat) : Pool :=
  if p.chunk * p.service.length - 1 < mem then p
  else
    let addr := mem % 256
    if addr % p.chunk ≠ 0 then p
    else { p with service := p.service.set (addr / p.chunk) false }

/-- `malloc` would find a chunk. -/
def hasFree (p : Pool) : Bool := p.service.any (! ·)

theorem malloc_isSome (p : Pool) : p.malloc.isSome = p.hasFree := by
  unfold malloc hasFree
  cases h : p.service.findIdx? (! ·) with
  | none =>
    simp only [Option.isSome_none]
    rw [List.findIdx?_eq_none_iff] at h
    exact (List.any_eq_false.mpr fun x hx => by simpa using h x hx).symm
  | some i =>
    simp only [Option.isSome_some]
    obtain ⟨hi, hp, -⟩ := List.findIdx?_eq_some_iff_getElem.mp h
    exact (List.any_eq_true.mpr ⟨_, List.getElem_mem hi, hp⟩).symm

/-- `malloc` fails exactly when every chunk is marked. -/
theorem malloc_eq_none {p : Pool} : p.malloc = none ↔ p.hasFree = false := by
  rw [← malloc_isSome]
  cases p.malloc <;> simp

/-- What `malloc` hands out was not marked, and is marked after. -/
theorem malloc_some {p q : Pool} {mem : Nat} (h : p.malloc = some (mem, q)) :
    ∃ i, p.service[i]? = some false ∧ mem = i * p.chunk ∧
      q = { p with service := p.service.set i true } := by
  unfold malloc at h
  split at h
  · cases h
  · next i hi =>
    obtain ⟨hlt, hp, -⟩ := List.findIdx?_eq_some_iff_getElem.mp hi
    simp only [Option.some.injEq, Prod.mk.injEq] at h
    refine ⟨i, ?_, h.1.symm, h.2.symm⟩
    rw [List.getElem?_eq_getElem hlt]
    simpa using hp

/-- A chunk that is freed is free, if its offset fits the `uint8_t`. -/
theorem hasFree_free {p : Pool} {i : Nat} (hc : 0 < p.chunk) (hi : i < p.service.length)
    (hfit : i * p.chunk < 256) : (p.free (i * p.chunk)).hasFree := by
  have hle : i * p.chunk + p.chunk ≤ p.chunk * p.service.length := by
    calc i * p.chunk + p.chunk = p.chunk * (i + 1) := by ring
      _ ≤ p.chunk * p.service.length := Nat.mul_le_mul_left _ hi
  unfold free hasFree
  rw [if_neg (by omega)]
  simp only [Nat.mod_eq_of_lt hfit, Nat.mul_mod_left, ne_eq, not_true_eq_false, if_false,
    Nat.mul_div_cancel _ hc]
  exact List.any_eq_true.mpr ⟨false, List.mem_set hi false, rfl⟩

@[simp] theorem free_chunk (p : Pool) (mem : Nat) : (p.free mem).chunk = p.chunk := by
  unfold free
  split
  · rfl
  · simp only
    split <;> rfl

@[simp] theorem length_free (p : Pool) (mem : Nat) :
    (p.free mem).service.length = p.service.length := by
  unfold free
  split
  · rfl
  · simp only
    split <;> simp

end Pool
end Lwcan
