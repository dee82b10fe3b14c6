import Lwcan.Frames
import Lwcan.Lib.Gated
import Lwcan.Progress
import Lwcan.Reassembly
import Lwcan.Messages

/-!
# The frames of a message in the classic format

A message of one to 4095 bytes is one single frame, or a first frame with six bytes and consecutive
frames with seven each. Which frame carries what, and after which of them the sender waits for flow
control, depends on the message and the block size alone.

* `frames`, `taken`, `left`, `wire`, `gate` — the transfer of a message as arithmetic.
* `left_eq_zero`, `gate_bounds` — the last frame, and where flow control can be due.
* `wire_single`, `wire_first`, `wire_consecutive` — what a receiver reads from each frame.
* `Undisturbed` — what may happen to a node without hitting the flow that takes part in a transfer.
-/

namespace Lwcan
namespace Transfer

/-- How many frames a message takes -/
def frames (d : List UInt8) : Nat := if d.length ≤ 7 then 1 else 1 + d.length / 7

/-- How many bytes the first `n` frames carry -/
def taken (d : List UInt8) (n : Nat) : Nat :=
  if n = 0 then 0 else if d.length ≤ 7 then d.length else min d.length (7 * n - 1)

/-- How many bytes are left after `n` frames -/
def left (d : List UInt8) (n : Nat) : Nat := d.length - taken d n

/-- The `i`-th frame -/
def wire (pad : UInt8) (d : List UInt8) (i : Nat) : List UInt8 :=
  if d.length ≤ 7 then
    (sfType ||| UInt8.ofNat (d.length &&& 0x0F)) :: (d ++ List.replicate (7 - d.length) pad)
  else if i = 0 then
    (ffType ||| (UInt8.ofNat (d.length >>> 8) &&& 0x0F)) :: (UInt8.ofNat d.length &&& 0xFF) ::
    d.take 6
  else
    cfHeader (i % 16) :: ((d.drop (taken d i)).take 7 ++ List.replicate (7 - left d i) pad)

/-- The flow-control frame that allows more -/
def fcWire (pad : UInt8) (bs st : Nat) : List UInt8 :=
  [fcType ||| UInt8.ofNat (fsReady &&& 0x0F), UInt8.ofNat bs, UInt8.ofNat st] ++
    List.replicate 5 pad

/-- Flow control is due after `n` frames: after the first, and where a block ends before the
message. -/
def gate (bs : Nat) (d : List UInt8) (n : Nat) : Bool :=
  7 < d.length && 1 ≤ n && n < frames d && (n = 1 || !blockOpen bs ((n - 1) % 16))

section

variable {d : List UInt8} {n bs : Nat} {pad : UInt8}

theorem frames_pos (d : List UInt8) : 0 < frames d := by
  unfold frames
  split <;> omega

theorem taken_le (d : List UInt8) (n : Nat) : taken d n ≤ d.length := by
  unfold taken
  split
  · exact Nat.zero_le _
  · split
    · exact le_rfl
    · exact Nat.min_le_left ..

/-- **The last frame** is the one after which nothing is left. -/
theorem left_eq_zero (hd : d ≠ []) : left d n = 0 ↔ frames d ≤ n := by
  have hpos : 0 < d.length := List.length_pos_iff.mpr hd
  unfold left taken frames
  split
  · split <;> omega
  · split
    · omega
    · omega

theorem left_zero (d : List UInt8) : left d 0 = d.length := by simp [left, taken]

/-- What one more frame of a segmented message takes away -/
theorem left_succ (hd : 7 < d.length) (hn : 1 ≤ n) :
    left d (n + 1) = left d n - min (left d n) 7 ∧ taken d (n + 1) = taken d n + min
      (left d n) 7 := by
  unfold left taken
  simp only [show n ≠ 0 by omega, show n + 1 ≠ 0 by omega, if_false, not_le.mpr hd]
  omega

/-- Flow control is due within the message only. -/
theorem gate_bounds (bs : Nat) (d : List UInt8) (g : Nat) (h : gate bs d g) :
    1 ≤ g ∧ g < frames d := by
  simp only [gate, Bool.and_eq_true, decide_eq_true_eq] at h
  exact ⟨h.1.1.2, h.1.2⟩

theorem long_of_gate (h : gate bs d n) : 7 < d.length := by
  simp only [gate, Bool.and_eq_true, decide_eq_true_eq] at h
  exact h.1.1.1

/-- A message of one frame is short. -/
theorem eq_zero_of_short (hd : d.length ≤ 7) (hn : n < frames d) : n = 0 := by
  unfold frames at hn
  rw [if_pos hd] at hn
  omega

theorem gate_one (hd : 7 < d.length) : gate bs d 1 := by
  have : 1 < frames d := by
    unfold frames
    rw [if_neg (by omega)]
    omega
  simp [gate, hd, this]

/-- After a consecutive frame with more to come, the block decides. -/
theorem gate_block (hd : 7 < d.length) (hn : 2 ≤ n) (hlt : n < frames d) :
    gate bs d n = !blockOpen bs ((n - 1) % 16) := by
  have h₁ : 1 ≤ n := by omega
  have h₂ : n ≠ 1 := by omega
  simp [gate, hd, h₁, h₂, hlt]

/-! ### What a receiver reads -/

variable {f : CanFrame} {i : Nat}

theorem len_of_wire {w : List UInt8} (h : f.wire = w) : f.len = w.length := by
  rw [← h, CanFrame.wire, Mem.length_slice]

theorem data_of_wire {w : List UInt8} (h : f.wire = w) (hi : i < w.length) :
    f.data i = w.getD i 0 := by
  rw [← wireData_wire (by rw [len_of_wire h]; exact hi), h]
  rfl

/-- A stretch of the frame is a stretch of its bytes. -/
theorem slice_of_wire {w : List UInt8} (h : f.wire = w) {o k : Nat} (ho : o + k ≤ w.length) :
    Mem.slice f.data o k = (w.drop o).take k := by
  rw [← h, CanFrame.wire, Mem.drop_slice _ _ (by rw [len_of_wire h]; omega),
    Mem.take_slice _ _ (by rw [len_of_wire h]; omega), Nat.zero_add]

/-- **A single frame** is read with the whole message. -/
theorem wire_single (cfg : Config) (hc : cfg.canfd = false) (hd : d.length ≤ 7)
    (h : f.wire = wire pad d i) :
    f.data 0 &&& frameTypeMask = sfType ∧ isotpGetSfDl cfg f.data = d.length ∧
      Mem.slice f.data 1 d.length = d := by
  unfold wire at h
  rw [if_pos hd] at h
  -- the type and the length are in the first byte
  have h₀ : f.data 0 = sfType ||| UInt8.ofNat (d.length &&& 0x0F) := by
    rw [data_of_wire h (by simp)]
    rfl
  obtain ⟨h₁, h₂⟩ := sfHeader_classic hd
  refine ⟨by rw [h₀, h₁], ?_, ?_⟩
  · simp only [isotpGetSfDl, sfIsFd, hc, Bool.false_and, Bool.false_eq_true, if_false, h₀]
    exact h₂
  · rw [slice_of_wire h (by simp; omega)]
    simp

/-- **A first frame** is read with the length of the message and its first six bytes. -/
theorem wire_first (cfg : Config) (hc : cfg.canfd = false) (hd : 7 < d.length)
    (hl : d.length < 4096) (h : f.wire = wire pad d 0) :
    f.len = 8 ∧ f.data 0 &&& frameTypeMask = ffType ∧ isotpGetFfDl cfg f.data = d.length ∧
      Mem.slice f.data 2 6 = d.take 6 := by
  unfold wire at h
  rw [if_neg (by omega), if_pos rfl] at h
  -- six bytes of the message are in the first frame
  have htake : (d.take 6).length = 6 := by
    rw [List.length_take]
    omega
  have h₀ : f.data 0 = ffType ||| (UInt8.ofNat (d.length >>> 8) &&& 0x0F) := by
    rw [data_of_wire h (by simp)]
    rfl
  have h₁ : f.data 1 = UInt8.ofNat d.length &&& 0xFF := by
    rw [data_of_wire h (by simp)]
    rfl
  refine ⟨by rw [len_of_wire h]; simp [htake], by rw [h₀, ffHeader_type], ?_, ?_⟩
  · simp only [isotpGetFfDl, ffIsFd, hc, Bool.false_and, Bool.false_eq_true, if_false, h₀, h₁]
    exact (ffHeader_classic _).trans (Nat.mod_eq_of_lt hl)
  · rw [slice_of_wire h (by simp [htake])]
    simp [List.take_of_length_le htake.le]

/-- **A consecutive frame** is read with its sequence number and the next bytes of the message. -/
theorem wire_consecutive (hd : 7 < d.length) (hi : 1 ≤ i) (h : f.wire = wire pad d i) :
    f.len = 8 ∧ f.data 0 &&& frameTypeMask = cfType ∧ (f.data 0 &&& 0x0F).toNat = i % 16 ∧
      Mem.slice f.data 1 (min (left d i) 7) = (d.drop (taken d i)).take (min (left d i) 7) := by
  unfold wire at h
  rw [if_neg (by omega), if_neg (by omega)] at h
  -- what is left is the message without what the frames before it took
  have hleft : (d.drop (taken d i)).length = left d i := by rw [List.length_drop, left]
  have h₀ : f.data 0 = cfHeader (i % 16) := by
    rw [data_of_wire h (by simp)]
    rfl
  refine ⟨?_, by rw [h₀, cfHeader_type], by rw [h₀, cfHeader_sn, Nat.mod_mod], ?_⟩
  · rw [len_of_wire h]
    simp only [List.length_cons, List.length_append, List.length_take, List.length_replicate, hleft]
    omega
  · rw [slice_of_wire h]
    · simp only [List.drop_succ_cons, List.drop_zero]
      rw [List.take_append_of_le_length, List.take_take]
      · congr 1
        omega
      · rw [List.length_take, hleft]
        omega
    · simp only [List.length_cons, List.length_append, List.length_take, List.length_replicate,
        hleft]
      omega

/-- **A flow-control frame** is read with its block size. -/
theorem wire_fc {st : Nat} (hb : bs < 256) (h : f.wire = fcWire pad bs st) :
    f.data 0 &&& frameTypeMask = fcType ∧ (f.data 0 &&& 0x0F).toNat = fsReady ∧
      (f.data 1).toNat = bs := by
  have h₀ : f.data 0 = fcType ||| UInt8.ofNat (fsReady &&& 0x0F) := by
    rw [data_of_wire h (by simp [fcWire])]
    rfl
  have h₁ : f.data 1 = UInt8.ofNat bs := by
    rw [data_of_wire h (by simp [fcWire])]
    rfl
  rw [h₀, h₁]
  refine ⟨by decide, by decide, ?_⟩
  rw [UInt8.toNat_ofNat']
  exact Nat.mod_eq_of_lt hb

end

/-! ### The callbacks that answer a transfer -/

/-- The entry is a callback that tells the application how a message ended. -/
def isAnswer : Obs → Bool
  | .receive _ _ _ _ | .sent _ _ _ | .error _ _ _ => true
  | _ => false

/-- The callbacks by which the application was told how messages ended -/
def answers (log : List Obs) : List Obs := log.filter isAnswer

theorem answers_append (l m : List Obs) : answers (l ++ m) = answers l ++ answers m :=
  List.filter_append ..

/-- A frame that a driver accepted, with its identifier -/
def frameOf : Obs → Option (Nat × List UInt8)
  | .output _ _ canId w _ .ok => some (canId, w)
  | _ => none

/-- The frames that were handed over between two states of a log -/
def handed (before after : List Obs) : List (Nat × List UInt8) :=
  (after.drop before.length).filterMap frameOf

theorem handed_append (l m : List Obs) : handed l (l ++ m) = m.filterMap frameOf := by
  rw [handed, List.drop_left]

/-- **Quiet**: an idle flow for which nothing is pending. -/
structure Quiet (v : View) : Prop where
  state : v.flow.state = .idle
  tx : v.tx = 0
  err : v.err = 0
  confirms : v.confirms = 0
  suspended : v.suspended = none

end Transfer

/-- The frame types that go to a flow of this direction -/
def Dir.reads : Dir → UInt8 → Bool
  | .output, t => t = fcType
  | .input, t => t = sfType || t = ffType || t = cfType

/-- A call that leaves a flow and the setup of the node alone: no other send on the same pcb, and no
release of the buffer that is being filled. -/
def Call.undisturbed (s : Node) (k : FlowId) : Call → Prop
  | .isotpSend pcb _ _ => pcb ≠ some k.1
  | .isotpReceived pcb buffer =>
    pcb = some k.1 → (s.flow (k.1, .input)).reassembling → buffer ≠ s.head (k.1, .input)
  | .lwcanTimeout _ _ _ | .lwcanUntimeout _ _ => True
  | .isotpNew | .isotpBind _ _ | .isotpRemove _ | .isotpSetCallbacks _ _ _ _ _
  | .isotpSetCallbackArg _ _ | .canifAdd _ _ _ | .canifRemove _ => False

instance (s : Node) (k : FlowId) : (c : Call) → Decidable (c.undisturbed s k)
  | .isotpSend _ _ _ | .isotpReceived _ _ => by unfold Call.undisturbed; infer_instance
  | .lwcanTimeout _ _ _ | .lwcanUntimeout _ _ => isTrue True.intro
  | .isotpNew | .isotpBind _ _ | .isotpRemove _ | .isotpSetCallbacks _ _ _ _ _
  | .isotpSetCallbackArg _ _ | .canifAdd _ _ _ | .canifRemove _ => isFalse id

namespace Node

/-- **Undisturbed.** What may happen to a node while a flow of it takes part in a transfer, besides
that its peer's frames arrive: its timeout does not expire, the driver accepts its frames and
confirms them once and with `ERROR_OK`, a timer chunk is free when one is needed, and nobody else
sends it frames. -/
def Undisturbed (s : Node) (k : FlowId) : Event → Prop
  | .call c => c.undisturbed s k
  | .input canif frame _ =>
    s.findPcb canif frame = some k.1 → k.2.reads (frame.data 0 &&& frameTypeMask) = false
  | .timer _ ret => s.due ≠ some (errorHandler k.2, .pcb k.1) ∧
    (s.due = some (outputHandler k.2, .pcb k.1) → ret = .ok)
  | .sent k' err => k' = k → k ∈ s.confirms ∧ err = .ok ∧ s.timeouts.slotFree
  | .resume => s.concerns k .resume → s.timeouts.slotFree
  | .tick _ => True

instance (s : Node) (k : FlowId) : (e : Event) → Decidable (s.Undisturbed k e)
  | .call c => inferInstanceAs (Decidable (c.undisturbed s k))
  | .input _ _ _ | .sent _ _ | .resume => by unfold Undisturbed; infer_instance
  | .timer _ _ => inferInstanceAs (Decidable (_ ∧ _))
  | .tick _ => isTrue True.intro

variable {cfg : Config} {s s' : Node} {k : FlowId} {e : Event}

theorem SameSetup.canif (h : SameSetup s s') (p : Nat) : s'.canif p = s.canif p := by
  unfold Node.canif
  rw [h.canifs, h.proj IsotpPcb.ifIndex fun _ => rfl]

/-- What leaves a flow undisturbed leaves the setup alone. -/
theorem SameSetup.undisturbed (hu : s.Undisturbed k e) (hst : Node.step cfg s e = some s') :
    SameSetup s s' := by
  obtain ⟨-, rfl⟩ := step_eq_some.mp hst
  by_cases hc : ∃ c, e = .call c
  · obtain ⟨c, rfl⟩ := hc
    cases c with
    | isotpNew | isotpBind | isotpRemove | isotpSetCallbacks | isotpSetCallbackArg | canifAdd
    | canifRemove => exact hu.elim
    | isotpSend pcb data g => exact (Prims.refl.isotpSend pcb data g).sameSetup
    | isotpReceived pcb buffer => exact (Prims.refl.isotpReceived pcb buffer).sameSetup
    | lwcanTimeout | lwcanUntimeout => exact ⟨rfl, rfl, rfl, fun _ => rfl⟩
  · exact SameSetup.next s fun c h => hc ⟨c, h⟩

/-! ### A frame comes to its turn -/

variable (cfg) in
/-- The entry that is due runs, with a driver that takes its frame, and leaves the list. -/
theorem step_front {e : Timeout Handler Ptr} {timeouts : Timeouts Handler Ptr}
    (hn : s.suspended = none) (hex : s.timeouts.expire s.now = some (e, timeouts)) :
    ∃ t, Node.step cfg s (.timer ⟨0, 0, 0, fun _ => 0⟩ .ok) = some t ∧ t.timeouts = timeouts ∧
      t.suspended = none := by
  refine ⟨({ s with timeouts } : Node).runHandler cfg e.handler e.arg ⟨0, 0, 0, fun _ => 0⟩ .ok, ?_,
    runHandler_timeouts .., ?_⟩
  · refine step_eq_some.mpr
      ⟨⟨Option.isNone_iff_eq_none.mpr hn, Option.isSome_iff_exists.mpr ⟨_, hex⟩⟩, ?_⟩
    unfold next
    dsimp only
    rw [hex]
  · rw [runHandler_suspended]
    exact hn

variable (cfg k) in
/-- **What is pending for a flow comes to its turn**, unless its peer's time is running: time
passes, the entries in front are run with drivers that take their frames, and nothing disturbs the
flow. -/
theorem exists_due (hn : s.suspended = none)
    (htx : s.timeouts.pending (outputHandler k.2) (.pcb k.1) ≠ 0)
    (herr : s.timeouts.pending (errorHandler k.2) (.pcb k.1) = 0) :
    ∃ es t, Runs.run (Node.step cfg) s es = some t ∧ Runs.Along (Node.step cfg)
      (Undisturbed · k) s es ∧ t.suspended = none ∧ t.due = some (outputHandler k.2, .pcb k.1) := by
  -- by induction on the entries that are pending
  generalize hl : s.timeouts.nextTimeout.length = n
  induction n generalizing s with
  | zero =>
    rw [Timeouts.pending, List.length_eq_zero_iff.mp hl] at htx
    exact absurd rfl htx
  | succ n ih =>
    obtain ⟨e, rest, hcons⟩ := List.exists_cons_of_length_eq_add_one hl
    obtain ⟨ms, timeouts, hex⟩ := Timeouts.exists_expire hcons s.now
    have htick : Node.step cfg s (.tick ms) = some { s with now := u32 ((s.now : Int) + ms) } := rfl
    have hdue : ({ s with now := u32 ((s.now : Int) + ms) } : Node).due = some (e.handler, e.arg) :=
      congrArg (Option.map _) hex
    by_cases hmine : e.handler = outputHandler k.2 ∧ e.arg = .pcb k.1
    · rw [hmine.1, hmine.2] at hdue
      refine ⟨[.tick ms], _, Runs.run_cons.mpr ⟨_, htick, rfl⟩, ⟨True.intro, fun _ _ => True.intro⟩,
        hn, hdue⟩
    · -- the entry of another one runs, and is gone
      have hother : ¬(e.handler = errorHandler k.2 ∧ e.arg = .pcb k.1) := by
        intro he
        have hcount := Timeouts.pending_expire hex (errorHandler k.2) (.pcb k.1)
        rw [herr, if_pos he] at hcount
        omega
      obtain ⟨t, hst, htimeouts, hsus⟩ :=
        step_front cfg (s := { s with now := u32 ((s.now : Int) + ms) }) hn hex
      have hpending : ∀ h, ¬(e.handler = h ∧ e.arg = .pcb k.1) →
          t.timeouts.pending h (.pcb k.1) = s.timeouts.pending h (.pcb k.1) := by
        intro h hne
        rw [htimeouts, Timeouts.pending_expire hex, if_neg hne, Nat.add_zero]
      have hlen : t.timeouts.nextTimeout.length = n := by
        have hlen := congrArg List.length (Timeouts.expire_eq_some hex).1
        rw [hl, List.length_cons] at hlen
        rw [htimeouts]
        exact (Nat.succ.inj hlen).symm
      obtain ⟨es, u, hrun, halong, hsus', hdue'⟩ := ih (s := t) hsus (by rwa [hpending _ hmine])
        (by rwa [hpending _ hother]) hlen
      refine ⟨.tick ms :: .timer ⟨0, 0, 0, fun _ => 0⟩ .ok :: es, u,
        Runs.run_cons.mpr ⟨_, htick, Runs.run_cons.mpr ⟨_, hst, hrun⟩⟩, ⟨True.intro, ?_⟩, hsus',
          hdue'⟩
      rintro _ htick'
      obtain rfl := Option.some.inj (htick.symm.trans htick')
      refine ⟨⟨?_, fun _ => rfl⟩, ?_⟩
      · rw [hdue]
        exact fun heq => hother (Prod.mk.inj (Option.some.inj heq))
      · rintro _ hst'
        obtain rfl := Option.some.inj (hst.symm.trans hst')
        exact halong

/-- The confirmations that leave a flow undisturbed are owed. -/
theorem Undisturbed.owed (hu : s.Undisturbed k e) (err : Lwcanerr) (he : e = .sent k err) :
    k ∈ s.confirms := by
  subst he
  exact (hu rfl).1

end Node
end Lwcan
