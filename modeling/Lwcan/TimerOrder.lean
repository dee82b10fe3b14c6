import Lwcan.Lib.Queue
import Lwcan.Lib.Runs
import Lwcan.Timeouts

/-!
# The order of the timers

The list of `timeouts.c` under every sequence of `lwcan_timeout`, `lwcan_untimeout` and
`lwcan_timeouts_handler`, with a clock that is read modulo 2^32 and may wrap. Handlers may do all of
this themselves, so a run is a flat sequence of events: the start of a call to
`lwcan_timeouts_handler`, one turn of the innermost such call, and whatever happens between them.

`TIME_LESS_THAN` compares residues on a circle. It is the order of the true times as long as these
lie in one window shorter than 2^31 ms, and the times it is given are the deadlines of the pending
entries, the time at which an entry is armed and the time a call to `lwcan_timeouts_handler` sampled
at its start. The last one need not be the current time: a handler may run for long.

* `timeLessThan_iff` — in such a window `TIME_LESS_THAN` is the order of the true times;
* `insert_eq_enqueue` — there `lwcan_timeout` puts the new entry where a stable priority queue does;
* `Timely` — the invariant: what ran and what is pending form one queue in the order of service, and
  every entry armed is accounted for once;
* `timers_served_in_order` — what follows for every run.
-/

namespace Lwcan

/-- The value of `system_now()` at the true time `t`. -/
def systemNow (t : Nat) : Nat := u32 (t : Int)

/-- **In a window shorter than 2^31 ms** the circular comparison is the order of the true times. -/
theorem timeLessThan_iff {a b : Nat} (hab : a < b + 2147483648) (hba : b < a + 2147483648) :
    timeLessThan (systemNow a) (systemNow b) = true ↔ a < b := by
  unfold timeLessThan systemNow maxTimeout u32
  rw [decide_eq_true_eq]
  omega

namespace Timeouts

variable {η α : Type}

/-! ### Where an entry is linked -/

/-- The loop of `lwcan_timeout` skips the entries that the new one is not before. -/
theorem insertAfter_eq (new t : Timeout η α) (ts : List (Timeout η α)) :
    insertAfter new (t :: ts) =
      t :: (ts.takeWhile (fun u => !timeLessThan new.time u.time) ++
        new :: ts.dropWhile (fun u => !timeLessThan new.time u.time)) := by
  induction ts generalizing t with
  | nil => rfl
  | cons u ts ih =>
    unfold insertAfter
    by_cases h : timeLessThan new.time u.time
    · rw [if_pos h, List.takeWhile_cons_of_neg (by simp [h]),
        List.dropWhile_cons_of_neg (by simp [h])]
      rfl
    · rw [if_neg h, ih u, List.takeWhile_cons_of_pos (by simp [h]),
        List.dropWhile_cons_of_pos (by simp [h])]
      rfl

/-- `lwcan_timeout` links the new entry in front of the first one that it is before. -/
theorem insert_eq (new : Timeout η α) (ts : List (Timeout η α)) :
    insert new ts =
      ts.takeWhile (fun u => !timeLessThan new.time u.time) ++
        new :: ts.dropWhile (fun u => !timeLessThan new.time u.time) := by
  cases ts with
  | nil => rfl
  | cons t ts =>
    simp only [insert]
    by_cases h : timeLessThan new.time t.time
    · rw [if_pos h, List.takeWhile_cons_of_neg (by simp [h]),
        List.dropWhile_cons_of_neg (by simp [h])]
      rfl
    · rw [if_neg h, insertAfter_eq, List.takeWhile_cons_of_pos (by simp [h]),
        List.dropWhile_cons_of_pos (by simp [h])]
      rfl

/-- **Arming is enqueueing**, as far as the comparisons with the new entry are those of a key. -/
theorem insert_eq_enqueue {key : Timeout η α → Nat} {new : Timeout η α} {ts : List (Timeout η α)}
    (h : ∀ u ∈ ts, timeLessThan new.time u.time = true ↔ key new < key u) :
    insert new ts = Queue.enqueue key new ts := by
  rw [insert_eq]
  unfold Queue.enqueue
  induction ts with
  | nil => rfl
  | cons u ts ih =>
    have hts := ih fun v hv => h v (List.mem_cons_of_mem _ hv)
    -- the two tests are one, read from either side
    have hu : (!timeLessThan new.time u.time) = decide (key u ≤ key new) := by
      rw [Bool.eq_iff_iff, Bool.not_eq_true', decide_eq_true_eq, ← Nat.not_lt,
        ← h u List.mem_cons_self, Bool.not_eq_true]
    simp only [List.takeWhile_cons, List.dropWhile_cons, hu]
    split
    · rw [List.cons_append, hts, List.cons_append]
    · rfl

end Timeouts

/-! ### Runs -/

/-- The timers with what the source does not keep: the true time, the times at which the calls to
`lwcan_timeouts_handler` in progress sampled it (the innermost call first), the true deadline of
each entry by its stamp, the entries that ran with the time at which they did, and those
cancelled. -/
structure Timed (η α : Type) where
  timeouts : Timeouts η α
  clock : Nat
  sampled : List Nat
  deadline : Nat → Nat
  ran : List (Timeout η α × Nat)
  cancelled : List (Timeout η α)

namespace Timed

variable {η α : Type}

/-- What happens to the timers: a call to `lwcan_timeout`, `lwcan_untimeout` or
`lwcan_timeouts_handler`, a turn of the loop of the innermost call to the last, or time passing. -/
inductive Event (η α : Type)
  | timeout (timeMs : Nat) (handler : η) (arg : α)
  | untimeout (handler : η) (arg : α)
  | timeoutsHandler
  | turn
  | tick (ms : Nat)

/-- After `lwcan_timeouts_init`, at any time. -/
def start (cfg : Config) (clock : Nat) : Timed η α :=
  ⟨Timeouts.lwcanTimeoutsInit cfg, clock, [], fun _ => 0, [], []⟩

/-- The pending entries. -/
def pending (s : Timed η α) : List (Timeout η α) := s.timeouts.nextTimeout

/-- The deadline of an entry. -/
def due (s : Timed η α) (e : Timeout η α) : Nat := s.deadline e.stamp

/-- One event. A turn runs the head entry if it is due at the sampled time and makes the call return
otherwise. -/
def step [DecidableEq η] [DecidableEq α] (s : Timed η α) : Event η α → Option (Timed η α)
  | .timeout timeMs handler arg =>
    some { s with
      timeouts := s.timeouts.lwcanTimeout (systemNow s.clock) timeMs handler arg
      deadline := Function.update s.deadline s.timeouts.armed (s.clock + timeMs) }
  | .untimeout handler arg =>
    some { s with
      timeouts := s.timeouts.lwcanUntimeout handler arg
      cancelled := (s.pending.find? (Timeouts.Timeout.matches handler arg)).toList ++ s.cancelled }
  | .timeoutsHandler => some { s with sampled := s.clock :: s.sampled }
  | .turn =>
    match s.sampled with
    | [] => none
    | now :: calls =>
      match s.timeouts.expire (systemNow now) with
      | none => some { s with sampled := calls }
      | some (e, t) => some { s with timeouts := t, ran := s.ran ++ [(e, s.clock)] }
  | .tick ms => some { s with clock := s.clock + ms }

/-- The times lie in one window shorter than 2^31 ms. -/
def Within (times : List Nat) : Prop := ∀ a ∈ times, ∀ b ∈ times, a < b + 2147483648

instance (times : List Nat) : Decidable (Within times) :=
  inferInstanceAs (Decidable (∀ a ∈ times, ∀ b ∈ times, a < b + 2147483648))

/-- The current time and the pending deadlines. -/
def times (s : Timed η α) : List Nat := s.clock :: s.pending.map s.due

/-- An entry that is armed finds a free chunk. -/
def SlotFree (s : Timed η α) : Event η α → Prop
  | .timeout .. => s.timeouts.slotFree
  | _ => True

instance (s : Timed η α) : (e : Event η α) → Decidable (SlotFree s e)
  | .timeout .. => inferInstanceAs (Decidable (s.timeouts.slotFree = true))
  | .untimeout .. => inferInstanceAs (Decidable True)
  | .timeoutsHandler => inferInstanceAs (Decidable True)
  | .turn => inferInstanceAs (Decidable True)
  | .tick _ => inferInstanceAs (Decidable True)

variable [DecidableEq η] [DecidableEq α]

/-- After the event the current time and the pending deadlines lie in one window. -/
def Windowed (s : Timed η α) (e : Event η α) : Prop :=
  SlotFree s e ∧ (step s e).all fun t => Within t.times

/-- After the event the current time, the pending deadlines and the times sampled by the calls in
progress lie in one window. -/
def Sampled (s : Timed η α) (e : Event η α) : Prop :=
  SlotFree s e ∧ (step s e).all fun t => Within (t.sampled ++ t.times)

instance (s : Timed η α) (e : Event η α) : Decidable (Windowed s e) :=
  inferInstanceAs (Decidable (_ ∧ _))

instance (s : Timed η α) (e : Event η α) : Decidable (Sampled s e) :=
  inferInstanceAs (Decidable (_ ∧ _))

/-- What ran and what is pending, in the order of service. -/
def queue (s : Timed η α) : List (Timeout η α) := s.ran.map Prod.fst ++ s.pending

/-! ### The invariant -/

/-- **What ran and what is pending** is one queue in the order of service; the entries hold their
deadlines, what ran was due, no call sampled a future time, and every entry armed ran, was cancelled
or is pending, once. -/
structure Timely (s : Timed η α) : Prop where
  time : ∀ e ∈ s.pending, e.time = systemNow (s.due e)
  ordered : Queue.Ordered s.due Timeout.stamp s.queue
  due : ∀ x ∈ s.ran, s.due x.1 ≤ x.2 ∧ x.2 ≤ s.clock
  sampled : ∀ now ∈ s.sampled, now ≤ s.clock
  account : ((s.queue ++ s.cancelled).map Timeout.stamp).Perm (List.range s.timeouts.armed)

variable {s t : Timed η α}

omit [DecidableEq η] [DecidableEq α] in
theorem Timely.start (cfg : Config) (clock : Nat) : Timely (start cfg clock : Timed η α) where
  time := fun _ h => absurd h List.not_mem_nil
  ordered := List.Pairwise.nil
  due := fun _ h => absurd h List.not_mem_nil
  sampled := fun _ h => absurd h List.not_mem_nil
  account := List.Perm.refl _

omit [DecidableEq η] [DecidableEq α] in
theorem Timely.stamp_lt (h : Timely s) {e : Timeout η α} (he : e ∈ s.queue ++ s.cancelled) :
    e.stamp < s.timeouts.armed :=
  List.mem_range.mp (h.account.mem_iff.mp (List.mem_map_of_mem he))

omit [DecidableEq η] [DecidableEq α] in
/-- What ran was due by now. -/
theorem Timely.due_le_clock (h : Timely s) {e : Timeout η α} (he : e ∈ s.ran.map Prod.fst) :
    s.due e ≤ s.clock := by
  obtain ⟨x, hx, rfl⟩ := List.mem_map.mp he
  exact (h.due x hx).1.trans (h.due x hx).2

omit [DecidableEq η] [DecidableEq α] in
/-- The time kept in a new entry is its deadline's. -/
theorem u32_systemNow_add (clock timeMs : Nat) :
    u32 ((systemNow clock : Int) + timeMs) = systemNow (clock + timeMs) := by
  unfold systemNow u32
  omega

/-- What `lwcan_timeout` does when there is a free chunk. -/
theorem step_timeout {timeMs : Nat} {hd : η} {a : α} (hslot : s.timeouts.slotFree)
    (ht : step s (.timeout timeMs hd a) = some t) :
    ∃ mem pool, t = { s with
      timeouts := ⟨Timeouts.insert ⟨systemNow (s.clock + timeMs), hd, a, mem, s.timeouts.armed⟩
        s.pending, pool, s.timeouts.armed + 1⟩
      deadline := Function.update s.deadline s.timeouts.armed (s.clock + timeMs) } := by
  obtain ⟨hs, -⟩ | ⟨mem, pool, -, -, he⟩ :=
    Timeouts.lwcanTimeout_cases s.timeouts (systemNow s.clock) timeMs hd a
  · rw [hslot] at hs
    cases hs
  · refine ⟨mem, pool, ?_⟩
    rw [u32_systemNow_add] at he
    simp only [step, he] at ht
    exact (Option.some.inj ht).symm

/-- **Arming** -/
theorem Timely.timeout (h : Timely s) {timeMs : Nat} {hd : η} {a : α}
    (hC : Sampled s (.timeout timeMs hd a)) (ht : step s (.timeout timeMs hd a) = some t) :
    Timely t := by
  obtain ⟨hslot, hw⟩ := hC
  rw [ht] at hw
  have hwin : Within (t.sampled ++ t.times) := of_decide_eq_true hw
  obtain ⟨mem, pool, he⟩ := step_timeout hslot ht
  set new : Timeout η α := ⟨systemNow (s.clock + timeMs), hd, a, mem, s.timeouts.armed⟩ with hnew
  have hran : t.ran = s.ran := by rw [he]
  have hpend : t.pending = Timeouts.insert new s.pending := by rw [he]; rfl
  have hclock : t.clock = s.clock := by rw [he]
  have hcan : t.cancelled = s.cancelled := by rw [he]
  have harmed : t.timeouts.armed = s.timeouts.armed + 1 := by rw [he]
  have hdn : t.due new = s.clock + timeMs := by
    rw [he]
    exact Function.update_self ..
  -- the entries armed before keep their deadlines
  have hdue : ∀ e ∈ s.queue ++ s.cancelled, t.due e = s.due e := by
    intro e hmem
    rw [he]
    exact Function.update_of_ne (h.stamp_lt hmem).ne _ _
  have hdp : ∀ e ∈ s.pending, t.due e = s.due e := fun e hmem =>
    hdue e (List.mem_append_left _ (List.mem_append_right _ hmem))
  have hperm : t.pending.Perm (new :: s.pending) := by
    rw [hpend]
    exact Timeouts.insert_perm new s.pending
  have hmemt : ∀ e ∈ t.pending, t.due e ∈ t.sampled ++ t.times := by
    intro e hmem
    exact List.mem_append_right _ (List.mem_cons_of_mem _ (List.mem_map_of_mem hmem))
  have hnt : new ∈ t.pending := hperm.mem_iff.mpr List.mem_cons_self
  have henq : t.pending = Queue.enqueue t.due new s.pending := by
    rw [hpend]
    apply Timeouts.insert_eq_enqueue
    intro u hu
    have hut : u ∈ t.pending := hperm.mem_iff.mpr (List.mem_cons_of_mem _ hu)
    rw [h.time u hu, ← hdp u hu, hnew, ← hdn]
    exact timeLessThan_iff (hwin _ (hmemt _ hnt) _ (hmemt _ hut))
      (hwin _ (hmemt _ hut) _ (hmemt _ hnt))
  have hqueue : t.queue = Queue.enqueue t.due new s.queue := by
    unfold queue
    rw [hran, henq, Queue.enqueue_append]
    intro e hmem
    rw [hdue e (List.mem_append_left _ (List.mem_append_left _ hmem)), hdn]
    exact (h.due_le_clock hmem).trans (Nat.le_add_right _ _)
  refine ⟨?_, ?_, ?_, ?_, ?_⟩
  · intro e hmem
    rcases List.mem_cons.mp (hperm.mem_iff.mp hmem) with rfl | hmem
    · rw [hdn]
    · rw [h.time e hmem, hdp e hmem]
  · rw [hqueue]
    have hord : Queue.Ordered t.due Timeout.stamp s.queue :=
      h.ordered.congr (fun e hmem => hdue e (List.mem_append_left _ hmem)) fun _ _ => rfl
    exact hord.enqueue fun e hmem => h.stamp_lt (List.mem_append_left _ hmem)
  · rw [hran, hclock]
    intro x hx
    rw [hdue x.1 (List.mem_append_left _ (List.mem_append_left _ (List.mem_map_of_mem hx)))]
    exact h.due x hx
  · rw [hclock, he]
    exact h.sampled
  · rw [hqueue, hcan, harmed, List.range_succ]
    have hcons : ((Queue.enqueue t.due new s.queue ++ s.cancelled).map Timeout.stamp).Perm
        (s.timeouts.armed :: (s.queue ++ s.cancelled).map Timeout.stamp) :=
      ((Queue.enqueue_perm new s.queue).append_right _).map _
    exact (hcons.trans (h.account.cons _)).trans (List.perm_append_singleton _ _).symm

/-- **Cancelling** moves the earliest matching entry, if there is one, to those cancelled. -/
theorem Timely.untimeout (h : Timely s) {hd : η} {a : α} (ht : step s (.untimeout hd a) = some t) :
    Timely t := by
  have hpend : t.pending = s.pending.eraseP (Timeouts.Timeout.matches hd a) := by
    cases ht
    exact Timeouts.nextTimeout_lwcanUntimeout s.timeouts hd a
  have harmed : t.timeouts.armed = s.timeouts.armed := by
    cases ht
    show (s.timeouts.lwcanUntimeout hd a).armed = s.timeouts.armed
    unfold Timeouts.lwcanUntimeout
    split <;> rfl
  have hran : t.ran = s.ran := by cases ht; rfl
  have hdue : t.due = s.due := by cases ht; rfl
  have hclock : t.clock = s.clock := by cases ht; rfl
  have hsampled : t.sampled = s.sampled := by cases ht; rfl
  have hcan : t.cancelled =
      (s.pending.find? (Timeouts.Timeout.matches hd a)).toList ++ s.cancelled := by cases ht; rfl
  have hsub : t.pending.Sublist s.pending := by
    rw [hpend]
    exact List.eraseP_sublist
  -- what leaves the list is what joins those cancelled
  have hperm : (t.pending ++ t.cancelled).Perm (s.pending ++ s.cancelled) := by
    rw [hpend, hcan]
    cases hf : s.pending.find? (Timeouts.Timeout.matches hd a) with
    | none =>
      rw [List.eraseP_of_forall_not (by simpa [List.find?_eq_none] using hf)]
      exact List.Perm.refl _
    | some e =>
      have hord : Queue.Ordered s.due Timeout.stamp s.pending :=
        h.ordered.sublist (List.sublist_append_right _ _)
      obtain ⟨l₁, l₂, hl, he, -, -⟩ := hord.find?_before hf
      rw [he, hl, Option.toList_some, List.append_assoc, List.append_assoc]
      exact List.Perm.append_left l₁ List.perm_middle
  refine ⟨?_, ?_, ?_, ?_, ?_⟩
  · intro e he
    rw [hdue]
    exact h.time e (hsub.subset he)
  · rw [hdue]
    refine h.ordered.sublist ?_
    unfold queue
    rw [hran]
    exact hsub.append_left _
  · rw [hran, hdue, hclock]
    exact h.due
  · rw [hsampled, hclock]
    exact h.sampled
  · rw [harmed]
    refine List.Perm.trans (List.Perm.map _ ?_) h.account
    unfold queue
    rw [hran, List.append_assoc, List.append_assoc]
    exact hperm.append_left _

omit [DecidableEq η] [DecidableEq α] in
/-- A head entry that is not due ends the call; one that is due is unlinked. -/
theorem expire_cases (s : Timed η α) (now : Nat) :
    s.timeouts.expire now = none ∧ (∀ e ∈ s.pending.head?, timeLessThan now e.time) ∨
      ∃ e rest mem, s.pending = e :: rest ∧ timeLessThan now e.time = false ∧
        s.timeouts.expire now =
          some (e, { s.timeouts with nextTimeout := rest, timeoutMemPool := mem }) := by
  unfold pending Timeouts.expire
  split
  · next hl => exact Or.inl ⟨rfl, by simp [hl]⟩
  · next e rest hl =>
    rw [hl]
    by_cases h : timeLessThan now e.time
    · rw [if_pos h]
      exact Or.inl ⟨rfl, by simpa using h⟩
    · rw [if_neg h]
      exact Or.inr ⟨e, rest, _, rfl, by simpa using h, rfl⟩

/-- The times that the next turn compares lie in one window. -/
def Close (s : Timed η α) : Prop := Within (s.sampled ++ s.times)

omit [DecidableEq η] [DecidableEq α] in
/-- The head entry is compared by its true deadline. -/
theorem Timely.timeLessThan_iff (h : Timely s) (hw : Close s) {now : Nat} {e : Timeout η α}
    (hn : now ∈ s.sampled) (he : e ∈ s.pending) :
    timeLessThan (systemNow now) e.time = true ↔ now < s.due e := by
  have hn' : now ∈ s.sampled ++ s.times := List.mem_append_left _ hn
  have he' : s.due e ∈ s.sampled ++ s.times :=
    List.mem_append_right _ (List.mem_cons_of_mem _ (List.mem_map_of_mem he))
  rw [h.time e he]
  exact Lwcan.timeLessThan_iff (hw _ hn' _ he') (hw _ he' _ hn')

/-- **A turn** runs the head entry when it is due, or makes the call return. -/
theorem Timely.turn (h : Timely s) (hw : Close s) (ht : step s .turn = some t) : Timely t := by
  obtain ⟨now, calls, hs⟩ : ∃ now calls, s.sampled = now :: calls := by
    cases hs : s.sampled with
    | nil => simp [step, hs] at ht
    | cons now calls => exact ⟨now, calls, rfl⟩
  have hn : now ∈ s.sampled := hs ▸ List.mem_cons_self
  obtain ⟨he, -⟩ | ⟨e, rest, mem, hp, hlt, he⟩ := expire_cases s (systemNow now)
  · -- the call returns
    simp only [step, hs, he, Option.some.injEq] at ht
    subst ht
    exact ⟨h.time, h.ordered, h.due,
      fun m hm => h.sampled m (hs ▸ List.mem_cons_of_mem _ hm), h.account⟩
  · simp only [step, hs, he, Option.some.injEq] at ht
    subst ht
    have hmem : e ∈ s.pending := hp ▸ List.mem_cons_self
    -- the entry moves from the head of the list to the end of what ran
    have hq : (s.ran ++ [(e, s.clock)]).map Prod.fst ++ rest = s.queue := by
      unfold queue
      rw [hp, List.map_append, List.append_assoc]
      rfl
    refine ⟨?_, ?_, ?_, fun m hm => h.sampled m (hs ▸ hm), ?_⟩
    · intro e' he'
      exact h.time e' (hp ▸ List.mem_cons_of_mem _ he')
    · show Queue.Ordered s.due Timeout.stamp ((s.ran ++ [(e, s.clock)]).map Prod.fst ++ rest)
      rw [hq]
      exact h.ordered
    · intro x hx
      rcases List.mem_append.mp hx with hx | hx
      · exact h.due x hx
      · obtain rfl := List.mem_singleton.mp hx
        have hle : s.due e ≤ now := by
          rw [← Nat.not_lt, ← h.timeLessThan_iff hw hn hmem, hlt]
          exact Bool.false_ne_true
        exact ⟨hle.trans (h.sampled now hn), Nat.le_refl _⟩
    · show (((s.ran ++ [(e, s.clock)]).map Prod.fst ++ rest ++ s.cancelled).map _).Perm _
      rw [hq]
      exact h.account

omit [DecidableEq η] [DecidableEq α] in
theorem Close.start (cfg : Config) (clock : Nat) : Close (Timed.start cfg clock : Timed η α) := by
  show Within [clock]
  intro a ha b hb
  rw [List.mem_singleton.mp ha, List.mem_singleton.mp hb]
  omega

/-- What every event keeps. -/
theorem Timely.step (h : Timely s) (hw : Close s) {e : Event η α} (hC : Sampled s e)
    (ht : step s e = some t) : Timely t ∧ Close t := by
  -- the window that the step was asked for is that of the state it leads to
  have hwt : Close t := by
    have hw := hC.2
    rw [ht] at hw
    have hwin : Within (t.sampled ++ t.times) := of_decide_eq_true hw
    exact hwin
  refine ⟨?_, hwt⟩
  cases e with
  | timeout timeMs hd a => exact h.timeout hC ht
  | untimeout hd a => exact h.untimeout ht
  | timeoutsHandler =>
    cases ht
    refine ⟨h.time, h.ordered, h.due, ?_, h.account⟩
    intro now hn
    rcases List.mem_cons.mp hn with rfl | hn
    · exact Nat.le_refl _
    · exact h.sampled now hn
  | turn => exact h.turn hw ht
  | tick ms =>
    cases ht
    refine ⟨h.time, h.ordered, ?_, ?_, h.account⟩
    · intro x hx
      exact ⟨(h.due x hx).1, (h.due x hx).2.trans (Nat.le_add_right _ _)⟩
    · intro now hn
      exact (h.sampled now hn).trans (Nat.le_add_right _ _)

/-- What every run keeps. -/
theorem Timely.run (cfg : Config) (clock : Nat) {es : List (Event η α)}
    (hC : Runs.Along Timed.step Sampled (Timed.start cfg clock) es)
    (ht : Runs.run Timed.step (Timed.start cfg clock) es = some t) : Timely t ∧ Close t :=
  Runs.run_inv (I := fun s => Timely s ∧ Close s)
    (fun _ _ _ hI hC ht => hI.1.step hI.2 hC ht)
    ⟨Timely.start cfg clock, Close.start cfg clock⟩ hC ht

/-! ### The timers are a stable priority queue -/

omit [DecidableEq η] [DecidableEq α] in
/-- Where the head entry of an ordered list is not due, no entry is. -/
theorem Timely.lt_due (h : Timely s) (hw : Close s) {now : Nat} (hn : now ∈ s.sampled)
    (hhead : ∀ e ∈ s.pending.head?, timeLessThan (systemNow now) e.time) :
    ∀ e ∈ s.pending, now < s.due e := by
  intro e he
  have hord : Queue.Ordered s.due Timeout.stamp s.pending :=
    h.ordered.sublist (List.sublist_append_right _ _)
  cases hl : s.pending with
  | nil =>
    rw [hl] at he
    cases he
  | cons e₀ rest =>
    have h₀ : now < s.due e₀ :=
      (h.timeLessThan_iff hw hn (hl ▸ List.mem_cons_self)).mp (hhead e₀ (by rw [hl]; rfl))
    rw [hl] at hord he
    exact h₀.trans_le (hord.head_le he)

/-- **The timers are a stable priority queue.** In every run in which a chunk is free whenever an
entry is armed, and in which the current time, the pending deadlines and the times sampled by the
calls to `lwcan_timeouts_handler` in progress always lie in one window shorter than 2^31 ms: the
list is ordered by deadline, and by age among equal deadlines; entries ran in that order, none
before its deadline; every entry armed ran, was cancelled or is pending, exactly once; a call to
`lwcan_timeouts_handler` returns when nothing is due at the time it sampled; and `lwcan_untimeout`
removes the earliest entry with that handler and argument, if there is one, and no other. -/
theorem timers_served_in_order (cfg : Config) (clock : Nat) (es : List (Event η α))
    (hC : Runs.Along step Sampled (start cfg clock) es)
    (ht : Runs.run step (start cfg clock) es = some t) :
    Queue.Ordered t.due Timeout.stamp t.pending ∧
    Queue.Ordered t.due Timeout.stamp (t.ran.map Prod.fst) ∧
    (∀ x ∈ t.ran, t.due x.1 ≤ x.2) ∧
    ((t.ran.map Prod.fst ++ t.pending ++ t.cancelled).map Timeout.stamp).Perm
      (List.range t.timeouts.armed) ∧
    (∀ now calls u, t.sampled = now :: calls → step t .turn = some u → u.sampled = calls →
      ∀ e ∈ u.pending, now < u.due e) ∧
    ∀ hd a u, step t (.untimeout hd a) = some u →
      (∀ e ∈ t.pending, ¬(e.handler = hd ∧ e.arg = a)) ∧ u.pending = t.pending ∨
      ∃ l₁ e l₂, t.pending = l₁ ++ e :: l₂ ∧ u.pending = l₁ ++ l₂ ∧ e.handler = hd ∧ e.arg = a ∧
        ∀ e' ∈ l₁ ++ l₂, e'.handler = hd → e'.arg = a → Queue.Before t.due Timeout.stamp e e' := by
  obtain ⟨h, hw⟩ := Timely.run cfg clock hC ht
  have hord : Queue.Ordered t.due Timeout.stamp t.pending :=
    h.ordered.sublist (List.sublist_append_right _ _)
  refine ⟨hord, h.ordered.sublist (List.sublist_append_left _ _), fun x hx => (h.due x hx).1,
    h.account, ?_, ?_⟩
  · intro now calls u hs hu hret
    have hn : now ∈ t.sampled := hs ▸ List.mem_cons_self
    obtain ⟨he, hhead⟩ | ⟨e, rest, mem, hp, hlt, he⟩ := expire_cases t (systemNow now)
    · simp only [step, hs, he, Option.some.injEq] at hu
      subst hu
      exact h.lt_due hw hn hhead
    · -- a turn that runs an entry does not make the call return
      simp only [step, hs, he, Option.some.injEq] at hu
      subst hu
      exact absurd hret (List.cons_ne_self now calls)
  · intro hd a u hu
    have hpend : u.pending = t.pending.eraseP (Timeouts.Timeout.matches hd a) := by
      cases hu
      exact Timeouts.nextTimeout_lwcanUntimeout t.timeouts hd a
    cases hf : t.pending.find? (Timeouts.Timeout.matches hd a) with
    | none =>
      refine Or.inl ⟨?_, ?_⟩
      · intro e he hm
        have hno := List.find?_eq_none.mp hf e he
        simp [Timeouts.Timeout.matches, hm] at hno
      · rw [hpend, List.eraseP_of_forall_not (by simpa [List.find?_eq_none] using hf)]
    | some e =>
      obtain ⟨l₁, l₂, hl, he, hm, hfirst⟩ := hord.find?_before hf
      simp only [Timeouts.Timeout.matches, Bool.and_eq_true, decide_eq_true_eq] at hm hfirst
      exact Or.inr ⟨l₁, e, l₂, hl, hpend.trans he, hm.1, hm.2,
        fun e' he' h₁ h₂ => hfirst e' he' ⟨h₁, h₂⟩⟩

/-- Three entries armed across the wrap of the clock; two are due 5 ms later and run in the order of
arming, one is not. -/
def wrapped : List (Event Nat Nat) :=
  [.timeout 20 0 0, .timeout 3 1 0, .timeout 3 0 0, .tick 5, .timeoutsHandler, .turn, .turn, .turn]

theorem timers_served_in_order_wrapped :
    ∃ t : Timed Nat Nat, Runs.run step (start {} 4294967290) wrapped = some t ∧
      t.ran.map (fun x => x.1.stamp) = [1, 2] ∧ t.pending.map Timeout.stamp = [0] ∧
      Queue.Ordered t.due Timeout.stamp (t.ran.map Prod.fst) := by
  have hC : Runs.Along step Sampled (start {} 4294967290) wrapped := by decide +kernel
  obtain ⟨t, ht, hran, hpend⟩ := Runs.exists_run step (start {} 4294967290) wrapped
    (fun t => t.ran.map (fun x => x.1.stamp) = [1, 2] ∧ t.pending.map Timeout.stamp = [0])
    (by decide +kernel)
  exact ⟨t, ht, hran, hpend, (timers_served_in_order {} 4294967290 wrapped hC ht).2.1⟩

/-- A handler that runs for 2147483638 ms and then arms an entry 100 ms ahead. -/
def longHandler : List (Event Nat Nat) :=
  [.timeout 0 0 0, .timeoutsHandler, .turn, .tick 2147483638, .timeout 100 1 0, .turn]

/-- **The sampled time** is part of the window: an entry armed 2^31 ms after the time was sampled
runs before its deadline, although the current time and the pending deadlines are 100 ms apart. -/
theorem early_after_long_handler :
    ∃ t : Timed Nat Nat, Runs.Along step Windowed (start {} 0) longHandler ∧
      Runs.run step (start {} 0) longHandler = some t ∧ ∃ x ∈ t.ran, x.2 < t.due x.1 := by
  have hC : Runs.Along step Windowed (start {} 0) longHandler := by decide +kernel
  obtain ⟨t, ht, hearly⟩ := Runs.exists_run step (start {} 0) longHandler
    (fun t => ∃ x ∈ t.ran, x.2 < t.due x.1) (by decide +kernel)
  exact ⟨t, hC, ht, hearly⟩

end Timed
end Lwcan
