import Lwcan.Transfer
import Lwcan.Wakeup

/-!
# The receiving end of a transfer

A flow that was idle when the first frame of a message came, that is sent the frames of the message
in order, and that nothing disturbs, is where the receiver of `Lwcan.Gated` is: `ReceiverAt` ties
each of its fields to the number of frames received and to what it is about to do. `receive_single`,
`receive_first`, `receive_consecutive` and `ReceiverAt.undisturbed` say that it moves as that
receiver does.
-/

namespace Lwcan
namespace Transfer

/-- The state of a flow that has received `m` frames -/
def receiverState (m : Nat) : Gated.Receiver → IsotpState
  | .ready => if m = 0 then .idle else .waitCf
  | .asked | .done => .idle
  | .due | .out => .txFc

/-- **The message so far**: its buffer is at the head, the bytes of the first `m` frames are in it,
and the flow expects what comes next. -/
structure Holding (cfg : Config) (d : List UInt8) (m : Nat) (v : View) : Prop where
  chain : ∃ b buf rest, v.chain = (b, buf) :: rest ∧ buf.length = d.length ∧
    Mem.slice buf.data 0 (taken d m) = d.take (taken d m)
  remaining : v.flow.remainingData = left d m
  sn : v.flow.cfSn = m % 16
  fs : v.flow.fs = fsReady
  bs : v.flow.bs = u8 cfg.receiveBs
  st : v.flow.st = u8 cfg.receiveSt

/-- What is suspended while the application is asked -/
def Asked (p : Nat) (d : List UInt8) (f : Option Suspended) : Prop :=
  ∃ frame b, f = some (.receivedFf p frame b d.length) ∧ ∃ pad, frame.wire = wire pad d 0

/-- **The receiving end** of the transfer of `d`, with `m` frames received; `before` are the answers
that were made before. -/
structure ReceiverAt (cfg : Config) (p : Nat) (arg : Ptr) (d : List UInt8) (before : List Obs)
    (m : Nat) (ph : Gated.Receiver) (v : View) : Prop where
  suspended : if ph = .asked then Asked p d v.suspended else v.suspended = none
  tx : v.tx = if ph = .due then 1 else 0
  err : v.err = if ph = .ready ∧ m ≠ 0 then 1 else 0
  confirms : v.confirms = if ph = .out then 1 else 0
  state : v.flow.state = receiverState m ph
  message : 1 ≤ m → ph ≠ .asked → ph ≠ .done → Holding cfg d m v
  answers : ∃ l, answers v.log = before ++ l ∧
    if ph = .done then ∃ b, l = [.receive p arg b d] else l = []

namespace ReceiverAt

open Node

variable {cfg : Config} {s : Node} {p m : Nat} {arg : Ptr} {d : List UInt8} {before : List Obs}
  {ph : Gated.Receiver} {e : Event} {v v' w : View} {pad : UInt8} {f : CanFrame} {g : Grant}
  {canif : Nat}

/-- An idle flow is ready for the first frame. -/
theorem start (h : Quiet v) : ReceiverAt cfg p arg d (Transfer.answers v.log) 0 .ready v :=
  ⟨h.suspended, h.tx, h.err, h.confirms, h.state, fun h => absurd h (by decide),
    [], (List.append_nil _).symm, rfl⟩

/-- Nothing is answered before the message is whole. -/
theorem answers_eq (h : ReceiverAt cfg p arg d before m ph v) (hp : ph ≠ .done) :
    Transfer.answers v.log = before := by
  obtain ⟨l, hans, hl⟩ := h.answers
  rw [if_neg hp] at hl
  rw [hans, hl, List.append_nil]

/-- **The first frame** is stored, and flow control is due. -/
theorem ffStore (p : Nat) (arg : Ptr) (hc : cfg.canfd = false) (hd : 7 < d.length)
    (hl : d.length < 4096)
    (hf : f.wire = wire pad d 0) (hs : v.suspended = none) (ht : v.tx = 0) (he : v.err = 0)
    (hco : v.confirms = 0) (ha : Transfer.answers v.log = before) {b : Nat} {buf : LwcanBuffer}
    (hb : buf.length = d.length) :
    ReceiverAt cfg p arg d before 1 .due (v.ffStore cfg p f b buf true) ∧
      ∃ l, (v.ffStore cfg p f b buf true).log = v.log ++ l ∧ l.filterMap frameOf = [] := by
  obtain ⟨hlen, -, -, hdata⟩ := wire_first cfg hc hd hl hf
  have hoff : View.ffOffset cfg f.data = 2 := by simp [View.ffOffset, ffIsFd, hc, ffDataOffset]
  -- the first frame carries six bytes
  have htaken : taken d 1 = 6 := by
    unfold taken
    rw [if_neg (by decide), if_neg (by omega)]
    omega
  have hfits : firstFits cfg f buf.length := by
    unfold firstFits
    omega
  rw [View.ffStore_eq (by omega) hfits]
  simp only [hoff, hlen]
  refine
    ⟨⟨hs, ?_, he, hco, rfl, fun _ _ _ => ⟨⟨b, _, _, rfl, hb, ?_⟩, ?_, rfl, rfl, rfl, rfl⟩, [], ?_,
    rfl⟩, _, rfl, rfl⟩
  · show v.tx + 1 = 1
    omega
  · rw [htaken, ← hdata]
    show Mem.slice (Mem.blit buf.data 0 (fun i => f.data (2 + i)) 6) 0 6 = _
    rw [Mem.slice_blit_self]
    exact Mem.slice_congr fun i _ => by rw [Nat.zero_add]
  · show buf.length - 6 = left d 1
    rw [left, htaken, hb]
  · show Transfer.answers (v.log ++ _) = _
    rw [answers_append, ha]
    rfl

/-- A single frame is handed over at once. -/
theorem receive_single (hc : cfg.canfd = false) (hd : d ≠ []) (hshort : d.length ≤ 7)
    (hrec : (s.pcb p).receive = true) (harg : (s.pcb p).callbackArg = arg)
    (h : ReceiverAt cfg p arg d before 0 .ready (s.view (p, .input))) (hf : f.wire = wire pad d 0)
    (hg : g.granted) (hst : InputStep cfg s p (s.view (p, .input)) (.input canif f g) v') :
    ReceiverAt cfg p arg d before 1 .done v' ∧
      ∃ l, v'.log = (s.view (p, .input)).log ++ l ∧ l.filterMap frameOf = [] := by
  obtain ⟨htype, hdl, hdata⟩ := wire_single cfg hc hshort hf
  have hne : d.length ≠ 0 := fun h0 => hd (List.length_eq_zero_iff.mp h0)
  cases hst with
  | sfMemory hp ht hs hg' => exact absurd ⟨by rwa [hdl], hg⟩ hg'
  | ffMemory hp ht | ffMemoryCallback hp ht | ff hp ht | ffCallback hp ht | cfWrong hp ht
  | cfLast hp ht | cf hp ht | block hp ht =>
    -- the first byte says that it is a single frame
    rw [htype] at ht
    exact absurd ht (by decide)
  | @sf _ _ _ b buf hp ht hs hb hbl hn =>
    rw [hdl] at hbl
    have hoff : (if sfIsFd cfg f.data then fdSfDataOffset else sfDataOffset) = 1 := by
      simp [sfIsFd, hc, sfDataOffset]
    have hbytes : LwcanBuffer.bytes { buf with
        data := Mem.blit buf.data 0 (fun i => f.data (1 + i)) buf.length } = d := by
      rw [LwcanBuffer.bytes, Mem.slice_blit_self, hbl]
      exact (Mem.slice_congr fun i _ => by rw [Nat.zero_add]).trans hdata
    unfold View.deliver View.storeSf View.store
    simp only [hoff, View.push, View.emit, List.modifyHead_cons, hrec, if_true]
    refine ⟨⟨h.suspended, h.tx, h.err, h.confirms, h.state, fun _ _ hp => absurd rfl hp,
      [.receive p arg b d], ?_, b, rfl⟩, _, by simp only [List.append_assoc]; rfl, rfl⟩
    rw [harg, hbytes, answers_append, answers_append, answers_append, h.answers_eq (by rintro ⟨⟩)]
    simp [Transfer.answers, isAnswer]

/-- **The first frame** of a segmented message opens it, and the application may be asked. -/
theorem receive_first (hc : cfg.canfd = false) (hd : 7 < d.length) (hl : d.length < 4096)
    (h : ReceiverAt cfg p arg d before 0 .ready (s.view (p, .input))) (hf : f.wire = wire pad d 0)
    (hg : g.granted) (hslot : s.timeouts.slotFree)
    (hst : InputStep cfg s p (s.view (p, .input)) (.input canif f g) v') :
    (ReceiverAt cfg p arg d before 1 .asked v' ∨ ReceiverAt cfg p arg d before 1 .due v') ∧
      ∃ l, v'.log = (s.view (p, .input)).log ++ l ∧ l.filterMap frameOf = [] := by
  obtain ⟨hlen, htype, hdl, hdata⟩ := wire_first cfg hc hd hl hf
  have hans := h.answers_eq (by rintro ⟨⟩)
  cases hst with
  | sfMemory hp ht | sf hp ht | cfWrong hp ht | cfLast hp ht | cf hp ht | block hp ht =>
    -- the first byte says that it is a first frame
    rw [htype] at ht
    exact absurd ht (by decide)
  | ffMemory hp ht hs hg' | ffMemoryCallback hp ht hs hg' =>
    -- both blocks were granted
    exact absurd ⟨by rw [hdl]; omega, hg⟩ hg'
  | ff hp ht hs hb hbl hn hg' hr =>
    rw [hslot]
    rw [hdl] at hbl
    obtain ⟨h₁, h₂⟩ := ffStore p arg hc hd hl hf h.suspended h.tx h.err h.confirms
      hans hbl
    exact ⟨Or.inr h₁, h₂⟩
  | @ffCallback _ _ _ b hp ht hs hn hg' =>
    refine ⟨Or.inl ⟨⟨f, b, by rw [hdl], pad, hf⟩, h.tx, h.err, h.confirms, hs,
      fun _ hp => absurd rfl hp, [], ?_, rfl⟩, _, rfl, rfl⟩
    show Transfer.answers (_ ++ [_]) = _
    rw [answers_append, hans]
    rfl

/-- A consecutive frame in sequence adds its bytes to the message. -/
theorem store_next (hd : 7 < d.length) (hl : d.length < 4096) (h1 : 1 ≤ m) (h : Holding cfg d m v)
    (hf : f.wire = wire pad d m)
    (hw : w = (({ v with err := v.err - 1 } : View).emit (.consecutive p f.wire)).storeCf p f.data
      f.len) :
    ∃ b buf rest l, buf.length = d.length ∧
      Mem.slice buf.data 0 (taken d (m + 1)) = d.take (taken d (m + 1)) ∧
        l.filterMap frameOf = [] ∧ Transfer.answers l = [] ∧
          w = { v with
            err := v.err - 1
            flow := { v.flow with remainingData := left d (m + 1) }
            chain := (b, buf) :: rest
            log := v.log ++ l } := by
  obtain ⟨hlen, -, -, hdata⟩ := wire_consecutive hd h1 hf
  obtain ⟨b, buf, rest, hc, hbl, hbytes⟩ := h.chain
  obtain ⟨hleft, htaken⟩ := left_succ (n := m) hd h1
  have hle := taken_le d m
  -- the frame fills up what is left, seven bytes at most
  have hcount : View.cfCount v.flow.remainingData f.len = min (left d m) 7 := by
    rw [View.cfCount_eq (by omega) (by omega), hlen, h.remaining]
  have hsum : left d m + taken d m = d.length := by
    unfold left
    omega
  have hrem := h.remaining
  have hc' : (({ v with err := v.err - 1 } : View).emit (.consecutive p f.wire)).chain =
      (b, buf) :: rest := hc
  rw [View.storeCf_eq hc' (by omega) (by show v.flow.remainingData ≤ _; omega)
    (by show View.cfCount v.flow.remainingData _ ≤ v.flow.remainingData; omega)] at hw
  have hoff : buf.length - v.flow.remainingData = taken d m := by omega
  refine ⟨b, { buf with
      data := Mem.blit buf.data (taken d m) (fun i => f.data (cfDataOffset + i))
        (min (left d m) 7) },
    rest, [.consecutive p f.wire, .store p (taken d m) (min (left d m) 7) buf.length], hbl, ?_, rfl,
      rfl,
    ?_⟩
  · rw [htaken, Mem.slice_add, Mem.slice_blit_below _ _ _ (by omega), hbytes, Nat.zero_add,
      Mem.slice_blit_self, List.take_add, ← hdata]
    congr 1
    exact Mem.slice_congr fun i _ => by simp [cfDataOffset]
  · rw [hw]
    simp only [View.emit, List.append_assoc, List.cons_append, List.nil_append, hcount, hoff]
    rw [hrem, hleft]

/-- The message with the bytes of one more frame -/
theorem next_message (h : Holding cfg d m v) {b : Nat} {buf : LwcanBuffer}
    {rest : List (Nat × LwcanBuffer)} (hbl : buf.length = d.length)
    (hbytes : Mem.slice buf.data 0 (taken d (m + 1)) = d.take (taken d (m + 1)))
    (hw : w.chain = (b, buf) :: rest) (state : IsotpState)
    (hfl : w.flow = { v.flow with
      remainingData := left d (m + 1), cfSn := nextSn v.flow.cfSn, fs := fsReady, state :=
        state }) :
    Holding cfg d (m + 1) w := by
  refine ⟨⟨b, buf, rest, hw, hbl, hbytes⟩, ?_, ?_, ?_, ?_, ?_⟩
  all_goals rw [hfl]
  · show nextSn v.flow.cfSn = _
    rw [h.sn, nextSn_mod]
  · exact h.bs
  · exact h.st

/-- The block decides what follows a consecutive frame. -/
theorem gate_eq (hd : 7 < d.length) (h1 : 1 ≤ m) (hlt : m + 1 < frames d) (h : Holding cfg d m v) :
    gate (u8 cfg.receiveBs) d (m + 1) = !blockOpen v.flow.bs v.flow.cfSn := by
  rw [gate_block hd (by omega) hlt, Nat.add_sub_cancel, h.sn, h.bs]

/-- **The last frame** makes the message whole, and it is handed over. -/
theorem receive_last (h : ReceiverAt cfg p arg d before m .ready v) (hm : m ≠ 0) {pcb : IsotpPcb}
    (hrec : pcb.receive = true) (harg : pcb.callbackArg = arg) {b : Nat} {buf : LwcanBuffer}
    {rest : List (Nat × LwcanBuffer)} {l : List Obs} (hbl : buf.length = d.length)
    (hbytes : Mem.slice buf.data 0 (taken d (m + 1)) = d.take (taken d (m + 1)))
    (hfr : l.filterMap frameOf = []) (hal : Transfer.answers l = []) (hleft : left d (m + 1) = 0)
    (hw : w = { v with
      err := v.err - 1
      flow := { v.flow with remainingData := left d (m + 1) }
      chain := (b, buf) :: rest
      log := v.log ++ l }) :
    ReceiverAt cfg p arg d before (m + 1) .done ((w.setState .idle).deliver pcb p) ∧
      ∃ l, ((w.setState .idle).deliver pcb p).log = v.log ++ l ∧ l.filterMap frameOf = [] := by
  -- nothing is left, so what is stored is the whole message
  have hall : taken d (m + 1) = d.length := by
    have := taken_le d (m + 1)
    unfold left at hleft
    omega
  have hwhole : buf.bytes = d := by
    rw [LwcanBuffer.bytes, hbl, ← hall, hbytes, hall, List.take_length]
  have herr : v.err = 1 := by rw [h.err, if_pos ⟨rfl, hm⟩]
  subst hw
  unfold View.deliver
  simp only [View.setState, View.setFlow, hrec, if_true]
  refine ⟨⟨h.suspended, h.tx, ?_, h.confirms, rfl, fun _ _ hp => absurd rfl hp,
    [.receive p arg b d], ?_, b, rfl⟩, l ++ [.receive p arg b d], ?_, ?_⟩
  · show v.err - 1 = 0
    omega
  · show Transfer.answers ((_ ++ l) ++ [_]) = _
    rw [answers_append, answers_append, h.answers_eq (by rintro ⟨⟩), hal, harg, hwhole,
      List.append_nil]
    rfl
  · show (_ ++ l) ++ [_] = _
    rw [List.append_assoc, harg, hwhole]
  · rw [List.filterMap_append, hfr]
    rfl

/-- **A frame within a block**: the next one is awaited. -/
theorem receive_next (h : ReceiverAt cfg p arg d before m .ready v) (hm : m ≠ 0)
    (hmsg : Holding cfg d m v) {b : Nat} {buf : LwcanBuffer} {rest : List (Nat × LwcanBuffer)}
    {l : List Obs} (hbl : buf.length = d.length)
    (hbytes : Mem.slice buf.data 0 (taken d (m + 1)) = d.take (taken d (m + 1)))
    (hal : Transfer.answers l = []) (hw : w = { v with
      err := v.err - 1
      flow := { v.flow with remainingData := left d (m + 1) }
      chain := (b, buf) :: rest
      log := v.log ++ l }) :
    ReceiverAt cfg p arg d before (m + 1) .ready
      ((w.setFlow { w.flow with cfSn := nextSn v.flow.cfSn, state := .waitCf }).armError true) := by
  have herr : v.err = 1 := by rw [h.err, if_pos ⟨rfl, hm⟩]
  subst hw
  refine ⟨h.suspended, h.tx, ?_, h.confirms, rfl, fun _ _ _ => ?_, [], ?_, rfl⟩
  · show v.err - 1 + 1 = 1
    omega
  · refine next_message hmsg hbl hbytes rfl .waitCf ?_
    rw [← hmsg.fs]
    rfl
  · show Transfer.answers (_ ++ l) = _
    rw [answers_append, h.answers_eq (by rintro ⟨⟩), hal]

/-- **The last frame of a block**: flow control is due. -/
theorem receive_block (h : ReceiverAt cfg p arg d before m .ready v) (hm : m ≠ 0)
    (hmsg : Holding cfg d m v) {b : Nat} {buf : LwcanBuffer} {rest : List (Nat × LwcanBuffer)}
    {l : List Obs} (hbl : buf.length = d.length)
    (hbytes : Mem.slice buf.data 0 (taken d (m + 1)) = d.take (taken d (m + 1)))
    (hal : Transfer.answers l = []) (hw : w = { v with
      err := v.err - 1
      flow := { v.flow with remainingData := left d (m + 1) }
      chain := (b, buf) :: rest
      log := v.log ++ l }) :
    ReceiverAt cfg p arg d before (m + 1) .due
      ((w.setFlow
        { w.flow with cfSn := nextSn v.flow.cfSn, fs := fsReady, state := .txFc }).armOutput
        true) := by
  have herr : v.err = 1 := by rw [h.err, if_pos ⟨rfl, hm⟩]
  have htx : v.tx = 0 := h.tx
  subst hw
  refine ⟨h.suspended, ?_, ?_, h.confirms, rfl, fun _ _ _ => ?_, [], ?_, rfl⟩
  · show v.tx + 1 = 1
    omega
  · show v.err - 1 = 0
    omega
  · exact next_message hmsg hbl hbytes rfl .txFc rfl
  · show Transfer.answers (_ ++ l) = _
    rw [answers_append, h.answers_eq (by rintro ⟨⟩), hal]

/-- **A consecutive frame in sequence**: the message goes on, flow control is due, or the message is
whole and handed over. -/
theorem receive_consecutive (hs : Sound s) (hd : 7 < d.length) (hl : d.length < 4096) (h1 : 1 ≤ m)
    (hm : m < frames d) (hrec : (s.pcb p).receive = true) (harg : (s.pcb p).callbackArg = arg)
    (h : ReceiverAt cfg p arg d before m .ready (s.view (p, .input))) (hf : f.wire = wire pad d m)
    (hst : InputStep cfg s p (s.view (p, .input)) (.input canif f g) v') :
    (∃ r, r ≠ .asked ∧ Gated.Arrives (frames d) (gate (u8 cfg.receiveBs) d) (m + 1) r ∧
        ReceiverAt cfg p arg d before (m + 1) r v') ∧
      ∃ l, v'.log = (s.view (p, .input)).log ++ l ∧ l.filterMap frameOf = [] := by
  obtain ⟨-, htype, hsn, -⟩ := wire_consecutive hd h1 hf
  have hmsg := h.message h1 (by rintro ⟨⟩) (by rintro ⟨⟩)
  have hne : d ≠ [] := List.ne_nil_of_length_pos (by omega)
  have hm0 : m ≠ 0 := by omega
  have herr : (s.view (p, .input)).err = 1 := by rw [h.err, if_pos ⟨rfl, hm0⟩]
  have hslot := hs.slotAfterCancel (k := (p, .input)) (by omega)
  -- nothing is left exactly after the last frame
  have hzero : left d (m + 1) = 0 ↔ m + 1 = frames d := by
    rw [left_eq_zero hne]
    omega
  -- the frame is a consecutive one, and has the number that is due
  cases hst with
  | sfMemory hp ht | sf hp ht | ffMemory hp ht | ffMemoryCallback hp ht | ff hp ht
  | ffCallback hp ht =>
    rw [htype] at ht
    exact absurd ht (by decide)
  | cfWrong hp ht hs' hn => exact absurd (hmsg.sn.trans hsn.symm) hn
  | cfLast hp ht hs' hn hw hr =>
    obtain ⟨b, buf, rest, l, hbl, hbytes, hfr, hal, rfl⟩ := store_next hd hl h1 hmsg hf hw
    have hleft : left d (m + 1) = 0 := hr
    -- the message is complete and goes to the application
    obtain ⟨h₁, h₂⟩ := h.receive_last hm0 hrec harg hbl hbytes hfr hal hleft rfl
    exact ⟨⟨.done, (by rintro ⟨⟩), by rw [Gated.Arrives, if_pos (hzero.mp hleft)], h₁⟩, h₂⟩
  | cf hp ht hs' hn hw hr hb =>
    obtain ⟨b, buf, rest, l, hbl, hbytes, hfr, hal, rfl⟩ := store_next hd hl h1 hmsg hf hw
    have hnot : m + 1 ≠ frames d := fun hf => hr (hzero.mpr hf)
    -- the block goes on: the next frame is waited for
    have hgate : gate (u8 cfg.receiveBs) d (m + 1) = false := by
      rw [gate_eq hd h1 (by omega) hmsg]
      simpa using hb
    rw [hslot]
    refine ⟨⟨.ready, (by rintro ⟨⟩), ?_, h.receive_next hm0 hmsg hbl hbytes hal rfl⟩, l, rfl, hfr⟩
    rw [Gated.Arrives, if_neg hnot, hgate]
    rfl
  | block hp ht hs' hn hw hr hb =>
    obtain ⟨b, buf, rest, l, hbl, hbytes, hfr, hal, rfl⟩ := store_next hd hl h1 hmsg hf hw
    have hnot : m + 1 ≠ frames d := fun hf => hr (hzero.mpr hf)
    -- the block is over: the flow control is due
    have hgate : gate (u8 cfg.receiveBs) d (m + 1) = true := by
      rw [gate_eq hd h1 (by omega) hmsg]
      simpa using hb
    rw [hslot]
    refine ⟨⟨.due, (by rintro ⟨⟩), ?_, h.receive_block hm0 hmsg hbl hbytes hal rfl⟩, l, rfl, hfr⟩
    rw [Gated.Arrives, if_neg hnot, if_pos hgate]
    exact Or.inr rfl

theorem ph_of_tx (h : ReceiverAt cfg p arg d before m ph v) (ht : 0 < v.tx) : ph = .due := by
  by_contra hne
  rw [h.tx, if_neg hne] at ht
  exact absurd ht (by decide)

theorem ph_of_confirms (h : ReceiverAt cfg p arg d before m ph v) (ht : 0 < v.confirms) :
    ph = .out := by
  by_contra hne
  rw [h.confirms, if_neg hne] at ht
  exact absurd ht (by decide)

/-- What is suspended is the question put to the application. -/
theorem asked (h : ReceiverAt cfg p arg d before m ph v) {x : Suspended}
    (hs : v.suspended = some x) :
    ph = .asked ∧ ∃ frame b, x = .receivedFf p frame b d.length ∧
      ∃ pad, frame.wire = wire pad d 0 := by
  have hsus := h.suspended
  split at hsus
  · next hp =>
    obtain ⟨frame, b, hx, hw⟩ := hsus
    rw [hs] at hx
    exact ⟨hp, frame, b, Option.some.inj hx, hw⟩
  · rw [hsus] at hs
    cases hs

/-- The application releases a buffer that was handed to it. -/
theorem release (h : ReceiverAt cfg p arg d before m ph v) {b : Nat}
    (hb : v.flow.reassembling → v.flow.buffer.head? ≠ some b)
    (hch : v.flow.buffer.head? = v.chain.head?.map Prod.fst) :
    ReceiverAt cfg p arg d before m ph
      { v with
        flow := { v.flow with buffer := v.flow.buffer.erase b }
        chain := v.chain.eraseP (·.1 = b)
        log := v.log ++ [.released p b] } := by
  refine ⟨h.suspended, h.tx, h.err, h.confirms, h.state, fun h1 h2 h3 => ?_, ?_⟩
  · have hm := h.message h1 h2 h3
    obtain ⟨b', buf, rest, hc, hbl, hbytes⟩ := hm.chain
    -- the message is under reassembly, so its buffer is not the one released
    have hre : v.flow.reassembling = true := by
      have hst := h.state
      cases ph with
      | ready =>
        rw [receiverState, if_neg (by omega)] at hst
        simp [IsotpFlow.reassembling, hst]
      | due | out => simp [IsotpFlow.reassembling, hst, receiverState, hm.fs]
      | asked => exact absurd rfl h2
      | done => exact absurd rfl h3
    have hne : b' ≠ b := by
      rintro rfl
      exact hb hre (by rw [hch, hc]; rfl)
    refine ⟨⟨b', buf, rest.eraseP (·.1 = b), ?_, hbl, hbytes⟩, hm.remaining, hm.sn, hm.fs, hm.bs,
      hm.st⟩
    show v.chain.eraseP _ = _
    rw [hc, List.eraseP_cons_of_neg (by simpa using hne)]
  · obtain ⟨l, hans, hl⟩ := h.answers
    refine ⟨l, ?_, hl⟩
    show Transfer.answers (v.log ++ [_]) = _
    rw [answers_append, hans]
    exact List.append_nil _

/-- **Flow control is handed over.** -/
theorem output (h : ReceiverAt cfg p arg d before m .due v) (h1 : 1 ≤ m) {canif timeout : Nat} :
    ReceiverAt cfg p arg d before m .out
      (View.accepted { v with tx := v.tx - 1 } (p, .input) canif f timeout) := by
  have hmsg := h.message h1 (by rintro ⟨⟩) (by rintro ⟨⟩)
  have htx : v.tx = 1 := h.tx
  have hco : v.confirms = 0 := h.confirms
  refine ⟨h.suspended, ?_, h.err, ?_, h.state,
    fun _ _ _ => ⟨hmsg.chain, hmsg.remaining, hmsg.sn, hmsg.fs, hmsg.bs, hmsg.st⟩, [], ?_, rfl⟩
  · show v.tx - 1 = 0
    omega
  · show v.confirms + 1 = 1
    omega
  · show Transfer.answers (_ ++ [_]) = _
    rw [answers_append, h.answers_eq (by rintro ⟨⟩)]
    simp [Transfer.answers, isAnswer]

/-- **Flow control is confirmed**: the next frame is awaited. -/
theorem confirm (h : ReceiverAt cfg p arg d before m .out v) (h1 : 1 ≤ m) {pcb : IsotpPcb}
    (hw : InputSwitch pcb p true { v with confirms := v.confirms - 1 } v') :
    ReceiverAt cfg p arg d before m .ready v' ∧ v'.log = v.log := by
  have hmsg := h.message h1 (by rintro ⟨⟩) (by rintro ⟨⟩)
  have herr : v.err = 0 := h.err
  have hco : v.confirms = 1 := h.confirms
  have hstate : v.flow.state = .txFc := h.state
  cases hw with
  | skip hs =>
    have hs' : v.flow.state = .idle ∨ v.flow.state = .waitCf := hs
    rcases hs' with hs' | hs' <;> rw [hstate] at hs' <;> cases hs'
  | abort hs hf => exact absurd hmsg.fs hf
  | ready hs hf =>
    refine ⟨⟨h.suspended, h.tx, ?_, ?_, ?_,
      fun _ _ _ => ⟨hmsg.chain, hmsg.remaining, hmsg.sn, hmsg.fs, hmsg.bs, hmsg.st⟩, [], ?_, rfl⟩,
        rfl⟩
    · show v.err + 1 = _
      rw [herr, if_pos ⟨rfl, by omega⟩]
    · show v.confirms - 1 = 0
      omega
    · show IsotpState.waitCf = receiverState m .ready
      rw [receiverState, if_neg (by omega)]
    · rw [List.append_nil]
      exact h.answers_eq (by rintro ⟨⟩)

/-- **What happens to the receiving end** if nothing disturbs it: the application answers, the
flow control is handed over, or the driver confirms it; or a buffer is released, which changes
nothing. -/
theorem undisturbed (hc : cfg.canfd = false) (hl : d.length < 4096) (hcanif : s.canif p ≠ none)
    (h : ReceiverAt cfg p arg d before m ph (s.view (p, .input)))
    (hok : Gated.ReceiverOk (frames d) (gate (u8 cfg.receiveBs) d) m ph) (hm1 : ph = .asked → m = 1)
    (hu : s.Undisturbed (p, .input) e) (hst : InputStep cfg s p (s.view (p, .input)) e v') :
    ∃ l, v'.log = (s.view (p, .input)).log ++ l ∧
      (s.concerns (p, .input) e = false ∧ ReceiverAt cfg p arg d before m ph v' ∧
          l.filterMap frameOf = [] ∨
        ph = .asked ∧ ReceiverAt cfg p arg d before m .due v' ∧ l.filterMap frameOf = [] ∨
        ph = .due ∧ ReceiverAt cfg p arg d before m .out v' ∧ l.filterMap frameOf =
          [((s.pcb p).txId, fcWire cfg.paddingByte (u8 cfg.receiveBs) (u8 cfg.receiveSt))] ∨
        ph = .out ∧ ReceiverAt cfg p arg d before m .ready v' ∧ l.filterMap frameOf = []) := by
  have hnoinput : ∀ {canif frame g}, e = .input canif frame g →
      s.findPcb canif frame = some p → Dir.input.reads (frame.data 0 &&& frameTypeMask) =
        false := by
    rintro canif frame g rfl hp
    exact hu hp
  cases hst with
  -- no frame of the peer is for this flow
  | sfMemory hp ht | sf hp ht | ffMemory hp ht | ffMemoryCallback hp ht | ff hp ht
  | ffCallback hp ht | cfWrong hp ht | cfLast hp ht | cf hp ht | block hp ht =>
    have := hnoinput rfl hp
    simp [Dir.reads, ht] at this
  | new => exact hu.elim
  | reject hf hcan hs ht hr => exact absurd (hu.2 (fires_iff.mp hf)) hr
  | expire hf => exact absurd (fires_iff.mp hf) hu.1
  | refuse hsn herr => exact absurd (hu rfl).2.1 herr
  | resumeFfMemory hsn =>
    obtain ⟨-, frame, b, hx, -⟩ := h.asked (view_suspended (k := (p, .input)) hsn rfl)
    cases hx
  | resume hsn =>
    obtain ⟨-, frame, b, hx, -⟩ := h.asked (view_suspended (k := (p, .input)) hsn rfl)
    cases hx
  -- the handler runs while flow control is due, and finds the interface
  | skip hf hsk ht =>
    obtain rfl := h.ph_of_tx ht
    have hstate : (s.view (p, .input)).flow.state = .txFc := h.state
    rcases hsk with hsk | hsk | hsk
    · exact absurd hsk hcanif
    · rw [hstate] at hsk
      cases hsk
    · rw [hstate] at hsk
      cases hsk
  | @resumeFf frame b buf hsn hb =>
    obtain ⟨rfl, frame', b', hx, pad, hw⟩ := h.asked (view_suspended (k := (p, .input)) hsn rfl)
    obtain rfl := hm1 rfl
    have hgate : gate (u8 cfg.receiveBs) d 1 := hok
    have hslot : s.timeouts.slotFree = true := hu (by simp [concerns, hsn, Suspended.flow])
    have hans := h.answers_eq (by rintro ⟨⟩)
    simp only [Suspended.receivedFf.injEq, true_and] at hx
    obtain ⟨rfl, -, hbl⟩ := hx
    obtain ⟨h₁, l, h₂, h₃⟩ := ffStore p arg
      (v := { s.view (p, .input) with suspended := none }) hc
      (long_of_gate hgate) hl hw rfl h.tx h.err h.confirms hans (b := b) hbl
    rw [hslot]
    exact ⟨l, h₂, Or.inr (Or.inl ⟨rfl, h₁, h₃⟩)⟩
  | output hf hcan hs ht =>
    obtain rfl := h.ph_of_tx ht
    have h1 := (gate_bounds _ _ _ hok).1
    have hmsg := h.message h1 (by rintro ⟨⟩) (by rintro ⟨⟩)
    refine ⟨_, rfl, Or.inr (Or.inr (Or.inl ⟨rfl, h.output h1, ?_⟩))⟩
    simp only [List.filterMap_cons, frameOf, isotpFillFc_canId, isotpFillFc_wire, hmsg.fs, hmsg.bs,
      hmsg.st]
    rfl
  | confirm hsn hw =>
    obtain ⟨hmem, -, hslot⟩ := hu rfl
    have hpos : 0 < (s.view (p, .input)).confirms := List.count_pos_iff.mpr hmem
    obtain rfl := h.ph_of_confirms hpos
    rw [hslot] at hw
    obtain ⟨h₁, h₂⟩ := h.confirm (gate_bounds _ _ _ hok).1 hw
    exact ⟨[], by rw [h₂, List.append_nil], Or.inr (Or.inr (Or.inr ⟨rfl, h₁, rfl⟩))⟩
  | @release b =>
    refine ⟨_, rfl, Or.inl ⟨rfl, h.release (fun hr => ?_) ?_, rfl⟩⟩
    · exact fun hh => hu rfl hr hh.symm
    · show (s.flow (p, .input)).buffer.head? = ((s.flow (p, .input)).buffer.map _).head?.map _
      rw [List.head?_map, Option.map_map]
      exact Option.map_id'.symm

end ReceiverAt
end Transfer
end Lwcan
