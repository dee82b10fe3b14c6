import Lwcan.Types
import Lwcan.Pool

/-!
# Timeouts (`src/timeouts.c`)

The list of pending timeouts, ordered by deadline, whose entries live in a fixed-chunk pool. The
model is generic in the handler and argument types, as the source is in the function pointer and the
`void *`: ISO-TP and the applications arm entries of the same list.

The chain of chunks that starts at `next_timeout` is a list of records. This is exact while no
allocated chunk is handed out a second time, which is a property of the pool, not of the list.

Every entry carries a stamp, the number of entries armed before it. The source has no such field:
no function reads it, and it is there to tell two entries with one handler and argument apart.

What later proofs use of the list is how many entries of a handler and argument are `pending`:
`lwcan_timeout` adds one if a chunk is free (`pending_lwcanTimeout`), `lwcan_untimeout` removes
one if there is one (`pending_lwcanUntimeout`), and running the head removes that entry
(`pending_expire`).
-/

namespace Lwcan

/-- `MAX_TIMEOUT` -/
def maxTimeout : Nat := 0x7fffffff

/-- `TIME_LESS_THAN(time, compare_to)` -/
def timeLessThan (time compareTo : Nat) : Bool := maxTimeout < u32 ((time : Int) - compareTo)

/-- `struct lwcan_timeout`, with the address of its chunk in the pool and its stamp. -/
structure Timeout (η α : Type) where
  time : Nat
  handler : η
  arg : α
  mem : Nat
  stamp : Nat
  deriving DecidableEq, Repr

/-- The state of `timeouts.c`: `next_timeout`, `timeout_mem_pool`, and the stamp of the next
entry. -/
structure Timeouts (η α : Type) where
  nextTimeout : List (Timeout η α)
  timeoutMemPool : Pool
  armed : Nat
  deriving DecidableEq, Repr

namespace Timeouts

variable {η α : Type}

/-- `lwcan_timeouts_init` -/
def lwcanTimeoutsInit (cfg : Config) : Timeouts η α :=
  ⟨[], Pool.init cfg.timeoutSize cfg.timeoutsNum, 0⟩

/-- `timeout_malloc()` -/
abbrev timeoutMalloc (t : Timeouts η α) : Option (Nat × Pool) := t.timeoutMemPool.malloc

/-- `timeout_free(mem)` -/
abbrev timeoutFree (t : Timeouts η α) (mem : Nat) : Pool := t.timeoutMemPool.free mem

/-- The loop of `lwcan_timeout` behind the head: link the new entry after the last entry that is not
later, which is the one whose successor is later or missing. -/
def insertAfter (new : Timeout η α) : List (Timeout η α) → List (Timeout η α)
  | [] => []
  | [t] => [t, new]
  | t :: u :: ts =>
    if timeLessThan new.time u.time then t :: new :: u :: ts else t :: insertAfter new (u :: ts)

/-- Where `lwcan_timeout` links the new entry. -/
def insert (new : Timeout η α) : List (Timeout η α) → List (Timeout η α)
  | [] => [new]
  | t :: ts => if timeLessThan new.time t.time then new :: t :: ts else insertAfter new (t :: ts)

/-- `lwcan_timeout(time_ms, handler, arg)` at the time `now` -/
def lwcanTimeout (t : Timeouts η α) (now timeMs : Nat) (handler : η) (arg : α) : Timeouts η α :=
  match t.timeoutMalloc with
  | none => t
  | some (mem, pool) =>
    let new : Timeout η α := ⟨u32 ((now : Int) + timeMs), handler, arg, mem, t.armed⟩
    ⟨insert new t.nextTimeout, pool, t.armed + 1⟩

/-- One turn of the loop of `lwcan_timeouts_handler`: the head entry, unlinked and freed, if it is
due at `now`. The handler is run by the caller. -/
def expire (t : Timeouts η α) (now : Nat) : Option (Timeout η α × Timeouts η α) :=
  match t.nextTimeout with
  | [] => none
  | e :: rest =>
    if timeLessThan now e.time then none
    else some (e, { t with nextTimeout := rest, timeoutMemPool := t.timeoutFree e.mem })

variable [DecidableEq η] [DecidableEq α]

/-- The entry was armed for this handler and argument. -/
def Timeout.matches (handler : η) (arg : α) (e : Timeout η α) : Bool :=
  e.handler = handler && e.arg = arg

/-- `lwcan_untimeout(handler, arg)`: unlink and free the first matching entry. -/
def lwcanUntimeout (t : Timeouts η α) (handler : η) (arg : α) : Timeouts η α :=
  match t.nextTimeout.find? (Timeout.matches handler arg) with
  | none => t
  | some e =>
    { t with
      nextTimeout := t.nextTimeout.eraseP (Timeout.matches handler arg)
      timeoutMemPool := t.timeoutFree e.mem }

/-- How many entries are pending for a handler and argument. -/
def pending (t : Timeouts η α) (handler : η) (arg : α) : Nat :=
  t.nextTimeout.countP (Timeout.matches handler arg)

/-- `lwcan_timeout` would find a free chunk. -/
def slotFree (t : Timeouts η α) : Bool := t.timeoutMemPool.hasFree

/-! ### The list is permuted, never lost -/

omit [DecidableEq η] [DecidableEq α] in
theorem insertAfter_perm (new t : Timeout η α) (ts : List (Timeout η α)) :
    (insertAfter new (t :: ts)).Perm (new :: t :: ts) := by
  induction ts generalizing t with
  | nil => exact List.Perm.swap new t []
  | cons u ts ih =>
    unfold insertAfter
    split
    · exact List.Perm.swap new t (u :: ts)
    · exact ((ih u).cons t).trans (List.Perm.swap new t (u :: ts))

omit [DecidableEq η] [DecidableEq α] in
/-- Linking an entry keeps every other one, whatever the deadlines. -/
theorem insert_perm (new : Timeout η α) (ts : List (Timeout η α)) :
    (insert new ts).Perm (new :: ts) := by
  cases ts with
  | nil => exact List.Perm.refl _
  | cons t ts =>
    simp only [insert]
    split
    · exact List.Perm.refl _
    · exact insertAfter_perm new t ts

omit [DecidableEq η] [DecidableEq α] in
/-- `lwcan_timeout` does nothing when the pool is exhausted, and otherwise links one entry. -/
theorem lwcanTimeout_cases (t : Timeouts η α) (now timeMs : Nat) (handler : η) (arg : α) :
    (t.slotFree = false ∧ t.lwcanTimeout now timeMs handler arg = t) ∨
      ∃ mem pool, t.slotFree = true ∧ t.timeoutMemPool.malloc = some (mem, pool) ∧
        t.lwcanTimeout now timeMs handler arg =
          ⟨insert ⟨u32 ((now : Int) + timeMs), handler, arg, mem, t.armed⟩ t.nextTimeout, pool,
            t.armed + 1⟩ := by
  unfold lwcanTimeout slotFree timeoutMalloc
  rw [← Pool.malloc_isSome]
  cases h : t.timeoutMemPool.malloc with
  | none => exact Or.inl ⟨rfl, rfl⟩
  | some x => exact Or.inr ⟨x.1, x.2, rfl, rfl, rfl⟩

/-! ### Counting pending entries -/

/-- **Arming** adds one pending entry if a chunk is free. -/
theorem pending_lwcanTimeout (t : Timeouts η α) (now timeMs : Nat) (h h' : η) (a a' : α) :
    (t.lwcanTimeout now timeMs h a).pending h' a' =
      t.pending h' a' + if t.slotFree ∧ h = h' ∧ a = a' then 1 else 0 := by
  rcases lwcanTimeout_cases t now timeMs h a with ⟨hs, he⟩ | ⟨mem, pool, hs, -, he⟩
  · simp [he, hs]
  · rw [he]
    unfold pending
    rw [(insert_perm _ _).countP_eq, List.countP_cons]
    simp [hs, Timeout.matches]

/-- Cancelling drops the first matching entry from the list, if there is one. -/
theorem nextTimeout_lwcanUntimeout (t : Timeouts η α) (h : η) (a : α) :
    (t.lwcanUntimeout h a).nextTimeout = t.nextTimeout.eraseP (Timeout.matches h a) := by
  unfold lwcanUntimeout
  split
  · next hf =>
    rw [List.eraseP_of_forall_not]
    simpa [List.find?_eq_none] using hf
  · rfl

/-- **Cancelling** removes one pending entry if there is one. -/
theorem pending_lwcanUntimeout (t : Timeouts η α) (h h' : η) (a a' : α) :
    (t.lwcanUntimeout h a).pending h' a' =
      t.pending h' a' - if h = h' ∧ a = a' then 1 else 0 := by
  unfold pending
  rw [nextTimeout_lwcanUntimeout]
  induction t.nextTimeout with
  | nil => simp
  | cons e ts ih =>
    by_cases hm : Timeout.matches h a e
    · -- `e` is the entry cancelled
      rw [List.eraseP_cons_of_pos hm, List.countP_cons]
      simp only [Timeout.matches, Bool.and_eq_true, decide_eq_true_eq] at hm ⊢
      simp only [hm.1, hm.2]
      by_cases hc : h = h' ∧ a = a' <;> simp [hc]
    · rw [List.eraseP_cons_of_neg (by simpa using hm), List.countP_cons, List.countP_cons, ih]
      by_cases hc : h = h' ∧ a = a'
      · obtain ⟨rfl, rfl⟩ := hc
        simp [hm]
      · simp [hc]

/-- **Running the head** removes that entry and no other. -/
theorem pending_expire {t t' : Timeouts η α} {now : Nat} {e : Timeout η α}
    (he : t.expire now = some (e, t')) (h : η) (a : α) :
    t.pending h a = t'.pending h a + if e.handler = h ∧ e.arg = a then 1 else 0 := by
  unfold expire at he
  -- there is an entry, and it is due
  split at he
  · cases he
  · next e₀ rest hl =>
    split at he
    · cases he
    · simp only [Option.some.injEq, Prod.mk.injEq] at he
      obtain ⟨rfl, rfl⟩ := he
      unfold pending
      rw [hl, List.countP_cons]
      simp [Timeout.matches]

/-! ### What is in the list -/

omit [DecidableEq η] [DecidableEq α] in
/-- An entry is an old one, or the one just armed. -/
theorem mem_lwcanTimeout {t : Timeouts η α} {now timeMs : Nat} {h : η} {a : α} {e : Timeout η α}
    (he : e ∈ (t.lwcanTimeout now timeMs h a).nextTimeout) :
    e ∈ t.nextTimeout ∨
      e.handler = h ∧ e.arg = a ∧ e.stamp = t.armed ∧ e.time = u32 ((now : Int) + timeMs) := by
  rcases lwcanTimeout_cases t now timeMs h a with ⟨-, hc⟩ | ⟨mem, pool, -, -, hc⟩
  · exact Or.inl (hc ▸ he)
  · rw [hc] at he
    rcases List.mem_cons.mp ((insert_perm _ _).mem_iff.mp he) with rfl | he
    · exact Or.inr ⟨rfl, rfl, rfl, rfl⟩
    · exact Or.inl he

omit [DecidableEq η] [DecidableEq α] in
/-- Stamps only grow. -/
theorem armed_le_lwcanTimeout (t : Timeouts η α) (now timeMs : Nat) (h : η) (a : α) :
    t.armed ≤ (t.lwcanTimeout now timeMs h a).armed := by
  rcases lwcanTimeout_cases t now timeMs h a with ⟨-, hc⟩ | ⟨mem, pool, -, -, hc⟩
  · rw [hc]
  · rw [hc]
    exact Nat.le_succ _

omit [DecidableEq η] [DecidableEq α] in
/-- An entry that was armed was given a stamp of its own. -/
theorem armed_lt_of_mem {t : Timeouts η α} {now timeMs : Nat} {h : η} {a : α} {e : Timeout η α}
    (he : e ∈ (t.lwcanTimeout now timeMs h a).nextTimeout) (hs : e.stamp = t.armed)
    (hold : e ∉ t.nextTimeout) : e.stamp < (t.lwcanTimeout now timeMs h a).armed := by
  rcases lwcanTimeout_cases t now timeMs h a with ⟨-, hc⟩ | ⟨mem, pool, -, -, hc⟩
  · exact absurd (hc ▸ he) hold
  · rw [hc, hs]
    exact Nat.lt_succ_self _

theorem mem_of_mem_lwcanUntimeout {t : Timeouts η α} {h : η} {a : α} {e : Timeout η α}
    (he : e ∈ (t.lwcanUntimeout h a).nextTimeout) : e ∈ t.nextTimeout := by
  rw [nextTimeout_lwcanUntimeout] at he
  exact List.mem_of_mem_eraseP he

@[simp] theorem armed_lwcanUntimeout (t : Timeouts η α) (h : η) (a : α) :
    (t.lwcanUntimeout h a).armed = t.armed := by
  unfold lwcanUntimeout
  split <;> rfl

omit [DecidableEq η] [DecidableEq α] in
/-- The entry that runs was the first. -/
theorem expire_eq_some {t t' : Timeouts η α} {now : Nat} {e : Timeout η α}
    (he : t.expire now = some (e, t')) :
    t.nextTimeout = e :: t'.nextTimeout ∧ t'.armed = t.armed := by
  unfold expire at he
  split at he
  · cases he
  · next e₀ rest hl =>
    split at he
    · cases he
    · cases he
      exact ⟨hl, rfl⟩

/-- The clock can be at the time of an entry. -/
theorem exists_tick (now time : Nat) :
    ∃ ms : Nat, timeLessThan (u32 ((now : Int) + ms)) time = false := by
  refine ⟨u32 ((time : Int) - now), ?_⟩
  unfold timeLessThan maxTimeout u32
  rw [decide_eq_false_iff_not]
  omega

omit [DecidableEq η] [DecidableEq α] in
/-- **The entry in front** is due after some time. -/
theorem exists_expire {t : Timeouts η α} {e : Timeout η α} {rest : List (Timeout η α)}
    (hcons : t.nextTimeout = e :: rest) (now : Nat) :
    ∃ (ms : Nat) (t' : Timeouts η α), t.expire (u32 ((now : Int) + ms)) = some (e, t') := by
  obtain ⟨ms, hms⟩ := exists_tick now e.time
  refine ⟨ms, ?_⟩
  unfold expire
  rw [hcons]
  dsimp only
  rw [hms]
  exact ⟨_, rfl⟩

/-! ### The chunks of the entries -/

/-- Every entry lies in a chunk of the pool, and every chunk's offset fits a `uint8_t`. -/
structure SlotsOk (t : Timeouts η α) : Prop where
  pos : 0 < t.timeoutMemPool.chunk
  fits : t.timeoutMemPool.chunk * (t.timeoutMemPool.service.length - 1) < 256
  mem : ∀ e ∈ t.nextTimeout, ∃ i, i < t.timeoutMemPool.service.length ∧
    e.mem = i * t.timeoutMemPool.chunk

omit [DecidableEq η] [DecidableEq α] in
theorem SlotsOk.initial (cfg : Config) : SlotsOk (lwcanTimeoutsInit cfg : Timeouts η α) :=
  ⟨cfg.timeoutSize_pos, by simpa [lwcanTimeoutsInit, Pool.init] using cfg.timeoutPool_fits,
    fun _ h => absurd h List.not_mem_nil⟩

omit [DecidableEq η] [DecidableEq α] in
theorem SlotsOk.lwcanTimeout {t : Timeouts η α} (h : SlotsOk t) (now timeMs : Nat) (hd : η)
    (a : α) : SlotsOk (t.lwcanTimeout now timeMs hd a) := by
  rcases lwcanTimeout_cases t now timeMs hd a with ⟨-, he⟩ | ⟨mem, pool, -, hm, he⟩
  · rw [he]
    exact h
  · rw [he]
    obtain ⟨i, hi, rfl, rfl⟩ := Pool.malloc_some hm
    refine ⟨h.pos, by simpa using h.fits, fun e hmem => ?_⟩
    rcases List.mem_cons.mp ((insert_perm _ _).mem_iff.mp hmem) with rfl | hmem
    · exact ⟨i, by simpa using (List.getElem?_eq_some_iff.mp hi).1, rfl⟩
    · simpa using h.mem e hmem

omit [DecidableEq η] [DecidableEq α] in
/-- A freed chunk keeps the others' places. -/
theorem SlotsOk.remove {t : Timeouts η α} (h : SlotsOk t) {ts : List (Timeout η α)}
    (hs : ts.Sublist t.nextTimeout) (mem : Nat) :
    SlotsOk { t with nextTimeout := ts, timeoutMemPool := t.timeoutMemPool.free mem } :=
  ⟨by simpa using h.pos, by simpa using h.fits, fun e he => by simpa using h.mem e (hs.subset he)⟩

theorem SlotsOk.lwcanUntimeout {t : Timeouts η α} (h : SlotsOk t) (hd : η) (a : α) :
    SlotsOk (t.lwcanUntimeout hd a) := by
  unfold Timeouts.lwcanUntimeout
  split
  · exact h
  · exact h.remove List.eraseP_sublist _

omit [DecidableEq η] [DecidableEq α] in
theorem SlotsOk.expire {t t' : Timeouts η α} {now : Nat} {e : Timeout η α} (h : SlotsOk t)
    (he : t.expire now = some (e, t')) : SlotsOk t' := by
  unfold Timeouts.expire at he
  split at he
  · cases he
  · next e₀ rest hl =>
    split at he
    · cases he
    · cases he
      exact h.remove (hl ▸ List.sublist_cons_self _ _) _

omit [DecidableEq η] [DecidableEq α] in
/-- The chunk of an entry is free once it is given back. -/
theorem SlotsOk.hasFree_free {t : Timeouts η α} (h : SlotsOk t) {e : Timeout η α}
    (he : e ∈ t.nextTimeout) : (t.timeoutMemPool.free e.mem).hasFree := by
  obtain ⟨i, hi, hm⟩ := h.mem e he
  rw [hm]
  refine Pool.hasFree_free h.pos hi (lt_of_le_of_lt ?_ h.fits)
  rw [Nat.mul_comm]
  exact Nat.mul_le_mul_left _ (by omega)

/-- **A cancelled entry** leaves its chunk free. -/
theorem SlotsOk.slotFree_lwcanUntimeout {t : Timeouts η α} (h : SlotsOk t) {hd : η} {a : α}
    (hp : 0 < t.pending hd a) : (t.lwcanUntimeout hd a).slotFree := by
  obtain ⟨e, hmem, hmatch⟩ := List.countP_pos_iff.mp hp
  unfold Timeouts.lwcanUntimeout
  split
  · next hf => exact absurd hmatch (by simpa using List.find?_eq_none.mp hf e hmem)
  · next e' hf => exact h.hasFree_free (List.mem_of_find?_eq_some hf)

omit [DecidableEq η] [DecidableEq α] in
/-- **An entry that runs** leaves its chunk free. -/
theorem SlotsOk.slotFree_expire {t t' : Timeouts η α} {now : Nat} {e : Timeout η α} (h : SlotsOk t)
    (he : t.expire now = some (e, t')) : t'.slotFree := by
  have hmem : e ∈ t.nextTimeout := (expire_eq_some he).1 ▸ List.mem_cons_self
  unfold Timeouts.expire at he
  split at he
  · cases he
  · split at he
    · cases he
    · cases he
      exact h.hasFree_free hmem

/-! ### When the entries were armed -/

/-- Every pending entry with this argument was armed after the first `n`. -/
structure ArmedFrom (n : Nat) (a : α) (t : Timeouts η α) : Prop where
  le : n ≤ t.armed
  stamp : ∀ e ∈ t.nextTimeout, e.arg = a → n ≤ e.stamp

omit [DecidableEq η] [DecidableEq α] in
theorem ArmedFrom.lwcanTimeout {n : Nat} {a : α} {t : Timeouts η α} (h : ArmedFrom n a t)
    (now timeMs : Nat) (hd : η) (a' : α) : ArmedFrom n a (t.lwcanTimeout now timeMs hd a') := by
  rcases lwcanTimeout_cases t now timeMs hd a' with ⟨-, he⟩ | ⟨mem, pool, -, -, he⟩
  · rw [he]
    exact h
  · rw [he]
    refine ⟨Nat.le_succ_of_le h.le, fun e hmem ha => ?_⟩
    rcases List.mem_cons.mp ((insert_perm _ _).mem_iff.mp hmem) with rfl | hmem
    · exact h.le
    · exact h.stamp e hmem ha

theorem ArmedFrom.lwcanUntimeout {n : Nat} {a : α} {t : Timeouts η α} (h : ArmedFrom n a t)
    (hd : η) (a' : α) : ArmedFrom n a (t.lwcanUntimeout hd a') := by
  unfold Timeouts.lwcanUntimeout
  split
  · exact h
  · exact ⟨h.le, fun e he => h.stamp e (List.mem_of_mem_eraseP he)⟩

omit [DecidableEq η] [DecidableEq α] in
/-- An entry that runs was armed in time, and so were those behind it. -/
theorem ArmedFrom.expire {n : Nat} {a : α} {t t' : Timeouts η α} {now : Nat} {e : Timeout η α}
    (h : ArmedFrom n a t) (he : t.expire now = some (e, t')) :
    ArmedFrom n a t' ∧ (e.arg = a → n ≤ e.stamp) := by
  unfold Timeouts.expire at he
  split at he
  · cases he
  · next e₀ rest hl =>
    split at he
    · cases he
    · cases he
      exact ⟨⟨h.le, fun e he => h.stamp e (hl ▸ List.mem_cons_of_mem _ he)⟩,
        h.stamp _ (hl ▸ List.mem_cons_self)⟩

end Timeouts
end Lwcan
