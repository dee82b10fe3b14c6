import Lwcan.Lib.Runs
import Lwcan.Pool

/-!
# Runs of a pool

A pool under a sequence of allocations and of frees of chunks that are live. Which chunks are live
is what its users know; the pool itself has only the service bytes.

`free` keeps the offset of a chunk in a `uint8_t`. A chunk that lies below offset 256 is freed as it
should be. One that lies above is taken for the address 256 below it: if that is no multiple of the
chunk size nothing is freed, otherwise another chunk is.

* `free_of_lt`, `free_of_ge` — what `free` does to the mark of a chunk on either side of the limit;
* `Marked` — the service bytes mark exactly the live chunks;
* `marks_exact_run` — they do so throughout a run, and every operation is honest, exactly when no
  chunk from offset 256 on is freed;
* `marks_exact_iff` — they do so in every run exactly when the last chunk begins below that offset.
-/

namespace Lwcan
namespace Pool

/-- What the users of a pool do. -/
inductive Op
  | malloc
  | free (mem : Nat)
  deriving DecidableEq

/-- A pool in use: the pool, and the addresses that were handed out and not freed. -/
structure Used where
  pool : Pool
  live : List Nat

namespace Used

/-- An operation; only a live chunk is freed. -/
def step (s : Used) : Op → Option Used
  | .malloc =>
    match s.pool.malloc with
    | none => some s
    | some (mem, pool) => some ⟨pool, mem :: s.live⟩
  | .free mem => if mem ∈ s.live then some ⟨s.pool.free mem, s.live.erase mem⟩ else none

/-- **The service bytes mark exactly the live chunks**, and each chunk is live once. -/
structure Marked (s : Used) : Prop where
  chunks : ∀ mem ∈ s.live, ∃ i < s.pool.service.length, mem = i * s.pool.chunk
  nodup : s.live.Nodup
  marks : ∀ i < s.pool.service.length,
    s.pool.service[i]? = some true ↔ i * s.pool.chunk ∈ s.live

/-- **The operation does what it should**: an allocation returns a chunk that is not live, or none
if all are; freeing a chunk clears its mark and no other. -/
def Honest (s : Used) : Op → Prop
  | .malloc =>
    match s.pool.malloc with
    | none => ∀ i < s.pool.service.length, i * s.pool.chunk ∈ s.live
    | some (mem, _) => mem ∉ s.live ∧ ∃ i < s.pool.service.length, mem = i * s.pool.chunk
  | .free mem =>
    (s.pool.free mem).service = s.pool.service.set (mem / s.pool.chunk) false

/-- No chunk from offset 256 on is freed. -/
def Below (_ : Used) : Op → Prop
  | .malloc => True
  | .free mem => mem < 256

end Used

/-! ### The mark of a chunk -/

section Mark

variable {p : Pool} {i : Nat}

/-- The chunks lie in the pool. -/
theorem chunk_le (hi : i < p.service.length) :
    i * p.chunk + p.chunk ≤ p.chunk * p.service.length :=
  calc i * p.chunk + p.chunk = p.chunk * (i + 1) := by ring
    _ ≤ p.chunk * p.service.length := Nat.mul_le_mul_left _ hi

/-- **Below the limit** a chunk is freed, and no other is. -/
theorem free_of_lt (hc : 0 < p.chunk) (hi : i < p.service.length) (hlt : i * p.chunk < 256) :
    (p.free (i * p.chunk)).service = p.service.set i false := by
  have hle := chunk_le hi
  unfold free
  rw [if_neg (by omega)]
  simp only [Nat.mod_eq_of_lt hlt, Nat.mul_mod_left, ne_eq, not_true_eq_false, if_false,
    Nat.mul_div_cancel _ hc]

/-- **From the limit on** a chunk keeps its mark. -/
theorem free_of_ge (hge : 256 ≤ i * p.chunk) :
    (p.free (i * p.chunk)).service[i]? = p.service[i]? := by
  unfold free
  split
  · rfl
  · simp only
    split
    · rfl
    · -- what is freed instead lies below
      have hlt : i * p.chunk % 256 / p.chunk < i := by
        apply Nat.div_lt_of_lt_mul
        calc i * p.chunk % 256 < 256 := Nat.mod_lt _ (by decide)
          _ ≤ i * p.chunk := hge
          _ = p.chunk * i := Nat.mul_comm _ _
      rw [List.getElem?_set_ne hlt.ne]

end Mark

/-! ### The invariant -/

namespace Used

variable {s t : Used} {o : Op} {chunk num : Nat}

theorem Marked.initial (chunk num : Nat) : Marked ⟨Pool.init chunk num, []⟩ := by
  refine ⟨fun mem h => absurd h List.not_mem_nil, List.nodup_nil, ?_⟩
  intro i hi
  constructor
  · intro h
    simp [Pool.init, List.getElem?_replicate] at h
  · intro h
    exact absurd h List.not_mem_nil

/-- An allocation keeps the chunk size and the number of chunks, and so does a free. -/
theorem step_shape (h : step s o = some t) :
    t.pool.chunk = s.pool.chunk ∧ t.pool.service.length = s.pool.service.length := by
  cases o with
  | malloc =>
    unfold step at h
    simp only at h
    split at h
    · cases h
      exact ⟨rfl, rfl⟩
    · next mem q hm =>
      cases h
      obtain ⟨i, -, -, rfl⟩ := malloc_some hm
      exact ⟨rfl, List.length_set ..⟩
  | free mem =>
    unfold step at h
    simp only at h
    split at h
    · cases h
      exact ⟨free_chunk .., length_free ..⟩
    · cases h

/-- Two chunks with one address are one chunk. -/
theorem chunk_inj (hc : 0 < s.pool.chunk) {i j : Nat} (h : i * s.pool.chunk = j * s.pool.chunk) :
    i = j := Nat.eq_of_mul_eq_mul_right hc h

/-- **Allocating** -/
theorem Marked.malloc (h : Marked s) (hc : 0 < s.pool.chunk) :
    Honest s .malloc ∧ ∀ t, step s .malloc = some t → Marked t := by
  cases hm : s.pool.malloc with
  | none =>
    -- every chunk is marked, so every chunk is live
    have hall := malloc_eq_none.mp hm
    refine ⟨?_, ?_⟩
    · unfold Honest
      rw [hm]
      intro i hi
      refine (h.marks i hi).mp ?_
      rw [List.getElem?_eq_getElem hi]
      have := List.any_eq_false.mp hall _ (List.getElem_mem hi)
      simpa using this
    · intro t ht
      unfold step at ht
      rw [hm] at ht
      cases ht
      exact h
  | some x =>
    obtain ⟨mem, q⟩ := x
    obtain ⟨i, hfree, rfl, rfl⟩ := malloc_some hm
    have hi : i < s.pool.service.length := (List.getElem?_eq_some_iff.mp hfree).1
    -- a chunk that is not marked is not live
    have hdead : i * s.pool.chunk ∉ s.live := by
      intro hlive
      have := (h.marks i hi).mpr hlive
      rw [hfree] at this
      cases this
    refine ⟨?_, ?_⟩
    · unfold Honest
      rw [hm]
      exact ⟨hdead, i, hi, rfl⟩
    · intro t ht
      unfold step at ht
      rw [hm] at ht
      cases ht
      refine ⟨?_, List.nodup_cons.mpr ⟨hdead, h.nodup⟩, ?_⟩
      · intro mem hmem
        show ∃ j < (s.pool.service.set i true).length, _
        rw [List.length_set]
        rcases List.mem_cons.mp hmem with rfl | hmem
        · exact ⟨i, hi, rfl⟩
        · exact h.chunks mem hmem
      · intro j hj
        replace hj : j < s.pool.service.length := by simpa using hj
        show (s.pool.service.set i true)[j]? = some true ↔ j * s.pool.chunk ∈ _ :: s.live
        rw [List.mem_cons]
        -- one mark more, for the one chunk that is live now
        by_cases hij : i = j
        · subst hij
          rw [List.getElem?_set_self hi]
          exact iff_of_true rfl (Or.inl rfl)
        · rw [List.getElem?_set_ne hij, h.marks j hj]
          refine ⟨Or.inr, ?_⟩
          rintro (he | hlive)
          · exact absurd (chunk_inj hc he).symm hij
          · exact hlive

/-- **Freeing** a live chunk, if its offset fits -/
theorem Marked.free (h : Marked s) (hc : 0 < s.pool.chunk) {mem : Nat} (hlt : mem < 256)
    (hlive : mem ∈ s.live) : Honest s (.free mem) ∧ Marked ⟨s.pool.free mem, s.live.erase mem⟩ := by
  obtain ⟨i, hi, rfl⟩ := h.chunks mem hlive
  have hservice := free_of_lt hc hi hlt
  refine ⟨?_, ?_, h.nodup.erase _, ?_⟩
  · show (s.pool.free (i * s.pool.chunk)).service =
      s.pool.service.set (i * s.pool.chunk / s.pool.chunk) false
    rw [hservice, Nat.mul_div_cancel _ hc]
  · intro mem hmem
    simpa using h.chunks mem (List.mem_of_mem_erase hmem)
  · intro j hj
    replace hj : j < s.pool.service.length := by simpa using hj
    show (s.pool.free (i * s.pool.chunk)).service[j]? = some true ↔
      j * (s.pool.free (i * s.pool.chunk)).chunk ∈ s.live.erase (i * s.pool.chunk)
    rw [hservice, free_chunk, h.nodup.mem_erase_iff]
    by_cases hij : i = j
    · subst hij
      rw [List.getElem?_set_self hi]
      exact iff_of_false (by rintro ⟨⟩) fun h => h.1 rfl
    · rw [List.getElem?_set_ne hij, h.marks j hj]
      refine ⟨fun hmem => ⟨fun he => hij (chunk_inj hc he).symm, hmem⟩, And.right⟩

/-- **A dishonest free** is one from the limit on. -/
theorem Marked.below_of_honest (h : Marked s) (hc : 0 < s.pool.chunk) {mem : Nat}
    (hlive : mem ∈ s.live) (hh : Honest s (.free mem)) : mem < 256 := by
  obtain ⟨i, hi, rfl⟩ := h.chunks mem hlive
  by_contra hge
  have hmark := (h.marks i hi).mpr hlive
  have hkept := free_of_ge (p := s.pool) (Nat.le_of_not_lt hge)
  change (s.pool.free (i * s.pool.chunk)).service =
    s.pool.service.set (i * s.pool.chunk / s.pool.chunk) false at hh
  -- the mark would have been cleared
  rw [hh, Nat.mul_div_cancel _ hc, List.getElem?_set_self hi, hmark] at hkept
  cases hkept

/-- One operation below the limit is honest and keeps the marks exact. -/
theorem Marked.step (h : Marked s) (hc : 0 < s.pool.chunk) (hb : Below s o)
    (ht : Used.step s o = some t) : Honest s o ∧ Marked t := by
  cases o with
  | malloc =>
    obtain ⟨hh, hm⟩ := h.malloc hc
    exact ⟨hh, hm t ht⟩
  | free mem =>
    unfold Used.step at ht
    simp only at ht
    split at ht
    · next hlive =>
      cases ht
      exact h.free hc hb hlive
    · cases ht

/-! ### Runs -/

/-- **The marks are exact throughout a run, and every operation of it is honest, exactly when** no
chunk from offset 256 on is freed. -/
theorem marks_exact_run (hc : 0 < chunk) {ops : List Op}
    (hr : Runs.run step ⟨Pool.init chunk num, []⟩ ops = some t) :
    (Runs.Along step (fun s o => Marked s ∧ Honest s o) ⟨Pool.init chunk num, []⟩ ops ∧ Marked t) ↔
      Runs.Along step Below ⟨Pool.init chunk num, []⟩ ops := by
  suffices hgen : ∀ s : Used, Marked s → 0 < s.pool.chunk → Runs.run step s ops = some t →
      ((Runs.Along step (fun s o => Marked s ∧ Honest s o) s ops ∧ Marked t) ↔
        Runs.Along step Below s ops) by
    exact hgen _ (Marked.initial chunk num) hc hr
  clear hr
  induction ops with
  | nil =>
    intro s hm _ hr
    cases hr
    exact iff_of_true ⟨trivial, hm⟩ trivial
  | cons o ops ih =>
    intro s hm hpos hr
    obtain ⟨u, hu, hr⟩ := Runs.run_cons.mp hr
    have hpos' : 0 < u.pool.chunk := (step_shape hu).1 ▸ hpos
    constructor
    · rintro ⟨⟨⟨-, hh⟩, hrest⟩, ht⟩
      have hb : Below s o := by
        cases o with
        | malloc => exact trivial
        | free mem =>
          -- the step was taken, so the chunk was live
          have hlive : mem ∈ s.live := by
            by_contra hdead
            simp [Used.step, hdead] at hu
          exact hm.below_of_honest hpos hlive hh
      refine ⟨hb, ?_⟩
      intro v hv
      obtain rfl : u = v := Option.some.inj (hu.symm.trans hv)
      exact (ih u (hm.step hpos hb hu).2 hpos' hr).mp ⟨hrest u hu, ht⟩
    · rintro ⟨hb, hrest⟩
      obtain ⟨hh, hmu⟩ := hm.step hpos hb hu
      obtain ⟨hall, ht⟩ := (ih u hmu hpos' hr).mpr (hrest u hu)
      refine ⟨⟨⟨hm, hh⟩, ?_⟩, ht⟩
      intro v hv
      obtain rfl : u = v := Option.some.inj (hu.symm.trans hv)
      exact hall

/-- What a run of allocations leaves: the first chunks are live and marked. -/
theorem run_malloc (chunk num : Nat) {k : Nat} (hk : k ≤ num) :
    ∃ s, Runs.run step ⟨Pool.init chunk num, []⟩ (List.replicate k .malloc) = some s ∧
      s.pool = ⟨chunk, List.replicate k true ++ List.replicate (num - k) false⟩ ∧
      ∀ i < k, i * chunk ∈ s.live := by
  induction k with
  | zero => exact ⟨_, rfl, rfl, fun i hi => absurd hi (Nat.not_lt_zero i)⟩
  | succ k ih =>
    obtain ⟨s, hs, hp, hlive⟩ := ih (Nat.le_of_succ_le hk)
    have hrest : List.replicate (num - k) false = false :: List.replicate
        (num - (k + 1)) false := by
      rw [← List.replicate_succ]
      congr 1
      omega
    -- the first chunk that is not marked is the next one
    have hfind : (List.replicate k true ++ List.replicate (num - k) false).findIdx? (! ·) =
        some k := by
      rw [List.findIdx?_append, hrest]
      simp [List.findIdx?_replicate, List.findIdx?_cons]
    have hm : s.pool.malloc =
        some (k * chunk, ⟨chunk, List.replicate (k + 1) true ++
          List.replicate (num - (k + 1)) false⟩) := by
      rw [hp]
      unfold malloc
      simp only [hfind]
      rw [hrest, List.set_append_right _ _ (by simp), List.replicate_succ', List.append_assoc]
      simp
    refine ⟨⟨_, k * chunk :: s.live⟩, ?_, rfl, ?_⟩
    · rw [List.replicate_succ', Runs.run_append]
      refine ⟨s, hs, Runs.run_cons.mpr ⟨_, ?_, rfl⟩⟩
      unfold step
      rw [hm]
    · intro i hi
      rcases Nat.lt_succ_iff_lt_or_eq.mp hi with hi | rfl
      · exact List.mem_cons_of_mem _ (hlive i hi)
      · exact List.mem_cons_self

/-- A live chunk lies below the limit if the last chunk does. -/
theorem below_of_fits (hm : Marked s) (hf : s.pool.chunk * (s.pool.service.length - 1) < 256)
    (ht : step s o = some t) : Below s o := by
  cases o with
  | malloc => exact trivial
  | free mem =>
    have hlive : mem ∈ s.live := by
      by_contra hdead
      simp [Used.step, hdead] at ht
    obtain ⟨i, hi, rfl⟩ := hm.chunks mem hlive
    calc i * s.pool.chunk = s.pool.chunk * i := Nat.mul_comm ..
      _ ≤ s.pool.chunk * (s.pool.service.length - 1) := Nat.mul_le_mul_left _ (by omega)
      _ < 256 := hf

/-- **The marks are exact in every run of a pool exactly when** its last chunk begins below offset
256; and in one run, exactly when no chunk from that offset on is freed. -/
theorem marks_exact_iff (chunk num : Nat) (hc : 0 < chunk) :
    ((∀ ops t, Runs.run step ⟨Pool.init chunk num, []⟩ ops = some t →
        Runs.Along step (fun s o => Marked s ∧ Honest s o) ⟨Pool.init chunk num, []⟩ ops ∧
          Marked t) ↔ chunk * (num - 1) < 256) ∧
      ∀ ops t, Runs.run step ⟨Pool.init chunk num, []⟩ ops = some t →
        ((Runs.Along step (fun s o => Marked s ∧ Honest s o) ⟨Pool.init chunk num, []⟩ ops ∧
          Marked t) ↔ Runs.Along step Below ⟨Pool.init chunk num, []⟩ ops) := by
  refine ⟨⟨?_, ?_⟩, fun ops t hr => marks_exact_run hc hr⟩
  · intro hall
    by_contra hge
    have hnum : 0 < num := by
      by_contra h
      obtain rfl : num = 0 := by omega
      exact hge (by simp)
    -- all chunks are allocated, and the last one is freed
    obtain ⟨s, hs, -, hlive⟩ := run_malloc chunk num le_rfl
    have hlast : (num - 1) * chunk ∈ s.live := hlive _ (by omega)
    have hfree : step s (.free ((num - 1) * chunk)) =
        some ⟨s.pool.free ((num - 1) * chunk), s.live.erase ((num - 1) * chunk)⟩ := if_pos hlast
    have hr : Runs.run step ⟨Pool.init chunk num, []⟩
        (List.replicate num .malloc ++ [.free ((num - 1) * chunk)]) = some _ :=
      Runs.run_append.mpr ⟨s, hs, Runs.run_cons.mpr ⟨_, hfree, rfl⟩⟩
    have hbelow := ((marks_exact_run hc hr).mp (hall _ _ hr)).right hs
    have hlt : (num - 1) * chunk < 256 := hbelow.1
    rw [Nat.mul_comm] at hlt
    exact hge hlt
  · intro hf ops t hr
    refine (marks_exact_run hc hr).mpr ?_
    -- the shape of the pool stays, and with it every offset below the limit
    suffices hgen : ∀ s : Used, Marked s → 0 < s.pool.chunk →
        s.pool.chunk * (s.pool.service.length - 1) < 256 → Runs.run step s ops = some t →
          Runs.Along step Below s ops by
      exact hgen _ (Marked.initial chunk num) hc (by simpa [Pool.init] using hf) hr
    clear hr
    induction ops with
    | nil =>
      intro s _ _ _ _
      trivial
    | cons o ops ih =>
      intro s hm hpos hfit hr
      obtain ⟨u, hu, hr⟩ := Runs.run_cons.mp hr
      have hb := below_of_fits hm hfit hu
      obtain ⟨hchunk, hlen⟩ := step_shape hu
      refine ⟨hb, ?_⟩
      intro v hv
      obtain rfl : u = v := Option.some.inj (hu.symm.trans hv)
      exact ih u (hm.step hpos hb hu).2 (hchunk ▸ hpos) (by rw [hchunk, hlen]; exact hfit) hr

theorem marks_exact_timeouts :
    Runs.Along step (fun s o => Marked s ∧ Honest s o) ⟨Pool.init 16 10, []⟩
      [.malloc, .malloc, .free 16, .malloc] :=
  (((marks_exact_iff 16 10 (by decide)).1.mpr (by decide)) _ _ rfl).1

/-- **A live chunk is handed out again.** Of seventeen chunks of sixteen bytes the last is freed;
the first, which is live, is what the next allocation returns. -/
theorem malloc_returns_live :
    ∃ s, Runs.run step ⟨Pool.init 16 17, []⟩ (List.replicate 17 .malloc ++ [.free 256]) = some s ∧
      0 ∈ s.live ∧ s.pool.malloc.map Prod.fst = some 0 :=
  Runs.exists_run step _ _ (fun s => 0 ∈ s.live ∧ s.pool.malloc.map Prod.fst = some 0) (by decide)

end Used
end Pool
end Lwcan
