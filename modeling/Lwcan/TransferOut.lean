import Lwcan.Transfer
import Lwcan.Wakeup

/-!
# The sending end of a transfer

A flow that was idle when `isotp_send` accepted a message of up to 4095 bytes, and that nothing
disturbs since, is where the sender of `Lwcan.Gated` is: `SenderAt` ties each of its fields to the
number of frames handed over and to what it is about to do. `SenderAt.undisturbed` and
`SenderAt.proceed` say that it moves as that sender does.
-/

namespace Lwcan
namespace Transfer

/-- The state in which the `i`-th frame is handed over -/
def frameState (d : List UInt8) (i : Nat) : IsotpState :=
  if d.length ≤ 7 then .txSf else if i = 0 then .txFf else .txCf

/-- The state of a flow that has handed `n` frames over -/
def senderState (d : List UInt8) (n : Nat) : Gated.Sender → IsotpState
  | .due => frameState d n
  | .out => frameState d (n - 1)
  | .wait => .waitFc
  | .done => .idle

/-- `cf_sn` while the `i`-th frame is due: `isotp_send` sets it to 1 before the first frame. -/
def snAt (i : Nat) : Nat := if i = 0 then 1 else i % 16

theorem frameState_sends (d : List UInt8) (i : Nat) : (frameState d i).sends := by
  unfold frameState
  split
  · rfl
  · split <;> rfl

/-- **The sending end** of the transfer of `d`, with `n` frames handed over; `before` are the
answers that were made before. -/
structure SenderAt (p : Nat) (arg : Ptr) (d : List UInt8) (bs : Nat) (before : List Obs) (n : Nat)
    (ph : Gated.Sender) (v : View) : Prop where
  suspended : v.suspended = none
  tx : v.tx = if ph = .due then 1 else 0
  err : v.err = if ph = .wait then 1 else 0
  confirms : v.confirms = if ph = .out then 1 else 0
  state : v.flow.state = senderState d n ph
  sn : 7 < d.length → ph ≠ .done → v.flow.cfSn = snAt (if ph = .out then n - 1 else n)
  bs : 2 ≤ n ∨ n = 1 ∧ ph = .due → v.flow.bs = bs
  message : ph ≠ .done → ∃ buf, v.headBuffer = some buf ∧ buf.bytes = d ∧
    v.flow.remainingData = left d n
  answers : answers v.log = before ++ if ph = .done then [.sent p arg d.length] else []

namespace SenderAt

open Node

variable {cfg : Config} {s : Node} {p n bs : Nat} {arg : Ptr} {d : List UInt8} {before : List Obs}
  {ph : Gated.Sender} {e : Event} {v v' : View} {pad : UInt8}

/-- **`isotp_send`** puts an idle flow at the start. -/
theorem start (hc : cfg.canfd = false) (h : Quiet v) {b : Nat} {buf : LwcanBuffer}
    (hb : buf.bytes = d) :
    SenderAt p arg d bs (Transfer.answers v.log) 0 .due
      ((({ v with
        flow := View.sendFlow cfg v.flow b d
        chain := (b, buf) :: v.chain }.emit (.send p d)).armOutput true)) := by
  have hmax : sfMax cfg = 7 := by simp [sfMax, hc, canMaxDlen, sfDataOffset]
  -- `isotp_send` sets up the counters of a segmented message only
  have hsend : View.sendFlow cfg v.flow b d =
      if 7 < d.length then
        { v.flow with
          buffer := b :: v.flow.buffer
          remainingData := d.length
          state := .txFf
          cfSn := 1
          nWft := u8 cfg.nWft }
      else
        { v.flow with
          buffer := b :: v.flow.buffer, remainingData := d.length, state := .txSf } := by
    rw [View.sendFlow, hmax]
  refine ⟨h.suspended, ?_, h.err, h.confirms, ?_, fun hl _ => ?_, fun hn => ?_, fun _ => ?_, ?_⟩
  · show v.tx + 1 = 1
    rw [h.tx]
  · show (View.sendFlow cfg v.flow b d).state = frameState d 0
    rw [hsend, frameState]
    split
    · rw [if_neg (by omega), if_pos rfl]
    · rw [if_pos (by omega)]
  · show (View.sendFlow cfg v.flow b d).cfSn = 1
    rw [hsend, if_pos hl]
  · omega
  · refine ⟨buf, rfl, hb, ?_⟩
    show (View.sendFlow cfg v.flow b d).remainingData = left d 0
    rw [hsend, left_zero]
    split <;> rfl
  · show Transfer.answers (v.log ++ [_]) = _
    rw [answers_append]
    rfl

section Fill

variable {buf : LwcanBuffer} {fl : IsotpFlow} {f : CanFrame}

/-- A single frame carries the whole message. -/
theorem fill_single (hc : cfg.canfd = false) (hshort : buf.bytes.length ≤ 7)
    (hrem : fl.remainingData = buf.bytes.length) :
    (isotpFillSf cfg (some buf) fl f).1 = { fl with remainingData := left buf.bytes 1 } ∧
      (isotpFillSf cfg (some buf) fl f).2.wire = wire cfg.paddingByte buf.bytes 0 := by
  have hlen : buf.bytes.length = buf.length := Mem.length_slice ..
  obtain ⟨h₁, h₂⟩ := isotpFillSf_classic buf fl f hc (by omega)
  constructor
  · rw [h₁]
    simp [left, taken, hshort]
  · rw [h₂, hrem, wire, if_pos hshort, hlen, LwcanBuffer.bytes]
    simp [sfHeader, hc]

/-- The first frame carries the first six bytes. -/
theorem fill_first (hc : cfg.canfd = false) (hlong : 7 < buf.bytes.length)
    (hl : buf.bytes.length < 4096) (hrem : fl.remainingData = buf.bytes.length) :
    (isotpFillFf cfg (some buf) fl f).1 = { fl with remainingData := left buf.bytes 1 } ∧
      (isotpFillFf cfg (some buf) fl f).2.wire = wire cfg.paddingByte buf.bytes 0 := by
  have hlen : buf.bytes.length = buf.length := Mem.length_slice ..
  have hmax : sfMax cfg = 7 := by simp [sfMax, hc, canMaxDlen, sfDataOffset]
  have hff : ffMax cfg = 6 := by simp [ffMax, maxDlen, ffOffset, hc, canMaxDlen, ffDataOffset]
  obtain ⟨h₁, h₂⟩ := isotpFillFf_eq cfg buf fl f (by omega) (by omega)
  constructor
  · rw [h₁, hrem, hff]
    congr 1
    unfold left taken
    rw [if_neg (by decide), if_neg (by omega)]
    omega
  · rw [h₂, hrem, hff, wire, if_neg (by omega), if_pos rfl]
    simp only [ffHeader, hc, Bool.false_eq_true, if_false, List.cons_append, List.nil_append]
    rw [LwcanBuffer.bytes, Mem.take_slice _ _ (by omega)]

/-- A consecutive frame carries up to seven bytes of what is left. -/
theorem fill_consecutive (hc : cfg.canfd = false) (hlong : 7 < buf.bytes.length)
    (hl : buf.bytes.length < 4096) (h0 : n ≠ 0) (hrem : fl.remainingData = left buf.bytes n)
    (hpos : left buf.bytes n ≠ 0) (hsn : fl.cfSn = n % 16) :
    (isotpFillCf cfg (some buf) fl f).1 = { fl with remainingData := left buf.bytes (n + 1) } ∧
      (isotpFillCf cfg (some buf) fl f).2.wire = wire cfg.paddingByte buf.bytes n := by
  have hlen : buf.bytes.length = buf.length := Mem.length_slice ..
  have hle : fl.remainingData ≤ buf.length := by
    rw [hrem, ← hlen]
    exact Nat.sub_le _ _
  obtain ⟨h₁, h₂⟩ := isotpFillCf_eq cfg buf fl f hle (by omega)
  have hfl : dataFrameLen cfg fl.remainingData = 8 := by simp [dataFrameLen, hc, canMaxDlen]
  have hcf : cfMax cfg fl.remainingData = min (left buf.bytes n) 7 := by
    rw [cfMax, hfl, hrem]
    rfl
  obtain ⟨hleft, -⟩ := left_succ (n := n) hlong (by omega)
  have htaken := taken_le buf.bytes n
  -- what has been taken is what is no longer left
  have hrest : buf.length - fl.remainingData = taken buf.bytes n := by
    rw [hrem, left]
    omega
  have hdrop : buf.bytes.drop (taken buf.bytes n) =
      Mem.slice buf.data (taken buf.bytes n) (left buf.bytes n) := by
    show (Mem.slice buf.data 0 buf.length).drop _ = _
    rw [Mem.drop_slice _ _ (by omega), Nat.zero_add, left, hlen]
  constructor
  · rw [h₁, hcf, hrem, hleft]
  · rw [h₂, hsn, hcf, hrest, hfl, wire, if_neg (by omega), if_neg h0]
    congr 2
    · rw [hdrop]
      by_cases hseven : left buf.bytes n ≤ 7
      · rw [Nat.min_eq_left hseven, List.take_of_length_le (by rw [Mem.length_slice]; exact hseven)]
      · rw [Nat.min_eq_right (by omega), Mem.take_slice _ _ (by omega)]
    · congr 1
      unfold cfDataOffset
      omega

end Fill

/-- The frame that is due is the next one of the message. -/
theorem fill (hc : cfg.canfd = false) (hd : d ≠ []) (hl : d.length < 4096)
    (h : SenderAt p arg d bs before n .due v) (hn : n < frames d) {f : CanFrame}
    {filled : IsotpFlow × CanFrame} {t : Nat}
    (hfl : isotpFill cfg v.headBuffer v.flow f = some (filled, t)) :
    filled.1 = { v.flow with remainingData := left d (n + 1) } ∧
      filled.2.wire = wire cfg.paddingByte d n ∧ filled.2.canId = f.canId := by
  obtain ⟨buf, hbuf, rfl, hrem⟩ := h.message (by decide)
  have hst : v.flow.state = frameState buf.bytes n := h.state
  have hpos : left buf.bytes n ≠ 0 := fun h0 => absurd ((left_eq_zero hd).mp h0) (by omega)
  -- the state says which frame it is, and so does its place in the message
  unfold frameState at hst
  split at hst
  · next hshort =>
    obtain rfl := eq_zero_of_short hshort hn
    rw [left_zero] at hrem hpos
    simp only [isotpFill, hst, hbuf, Option.some.injEq, Prod.mk.injEq] at hfl
    obtain ⟨rfl, -⟩ := hfl
    obtain ⟨h₁, h₂⟩ := fill_single (f := f) hc hshort hrem
    exact ⟨h₁, h₂, isotpFillSf_canId _⟩
  · next hlong =>
    rw [not_le] at hlong
    split at hst
    · next h0 =>
      subst h0
      rw [left_zero] at hrem
      simp only [isotpFill, hst, hbuf, Option.some.injEq, Prod.mk.injEq] at hfl
      obtain ⟨rfl, -⟩ := hfl
      obtain ⟨h₁, h₂⟩ := fill_first (f := f) hc hlong hl hrem
      exact ⟨h₁, h₂, isotpFillFf_canId _⟩
    · next h0 =>
      have hsn : v.flow.cfSn = n % 16 := by
        have := h.sn hlong (by decide)
        rwa [if_neg (by decide), snAt, if_neg h0] at this
      simp only [isotpFill, hst, hbuf, Option.some.injEq, Prod.mk.injEq] at hfl
      obtain ⟨rfl, -⟩ := hfl
      obtain ⟨h₁, h₂⟩ := fill_consecutive (f := f) hc hlong hl h0 hrem hpos hsn
      exact ⟨h₁, h₂, isotpFillCf_canId _⟩

/-- Nothing is answered before the message is sent. -/
theorem answers_eq (h : SenderAt p arg d bs before n ph v) (hp : ph ≠ .done) :
    Transfer.answers v.log = before := by
  rw [h.answers, if_neg hp, List.append_nil]

/-- **A frame is handed over.** -/
theorem output (hc : cfg.canfd = false) (hd : d ≠ []) (hl : d.length < 4096)
    (h : SenderAt p arg d bs before n .due v) (hn : n < frames d) {f : CanFrame}
    {filled : IsotpFlow × CanFrame} {t canif : Nat}
    (hfl : isotpFill cfg v.headBuffer v.flow f = some (filled, t)) :
    SenderAt p arg d bs before (n + 1) .out
      (({ v with tx := v.tx - 1 }.setFlow filled.1).accepted (p, .output) canif filled.2 t) := by
  obtain ⟨h₁, -, -⟩ := h.fill hc hd hl hn hfl
  obtain ⟨buf, hbuf, hbytes, -⟩ := h.message (by decide)
  have htx : v.tx = 1 := h.tx
  have hco : v.confirms = 0 := h.confirms
  refine ⟨h.suspended, ?_, h.err, ?_, ?_, fun hlong _ => ?_, fun hb => ?_,
    fun _ => ⟨buf, hbuf, hbytes, ?_⟩, ?_⟩
  · show v.tx - 1 = 0
    omega
  · show v.confirms + 1 = 1
    omega
  · show filled.1.state = _
    rw [h₁]
    exact h.state
  · show filled.1.cfSn = _
    rw [h₁]
    exact h.sn hlong (by decide)
  · show filled.1.bs = _
    rw [h₁]
    refine h.bs ?_
    -- the peer's block size is known from the first flow control on
    rcases hb with hb | ⟨-, hb⟩
    · rcases Nat.lt_or_ge n 2 with hlt | hge
      · exact Or.inr ⟨by omega, rfl⟩
      · exact Or.inl hge
    · cases hb
  · show filled.1.remainingData = _
    rw [h₁]
  · show Transfer.answers (v.log ++ [_]) = _
    rw [answers_append, h.answers_eq (by decide)]
    simp [Transfer.answers, isAnswer]

/-- What a flow in `ISOTP_TX_CF` knows when its frame is confirmed -/
theorem at_consecutive (h : SenderAt p arg d bs before n .out v) (hs : v.flow.state = .txCf) :
    7 < d.length ∧ 2 ≤ n ∧ v.flow.cfSn = (n - 1) % 16 ∧ v.flow.bs = bs := by
  have hst : v.flow.state = frameState d (n - 1) := h.state
  rw [hst, frameState] at hs
  split at hs
  · cases hs
  · split at hs
    · cases hs
    · have hlong : 7 < d.length := by omega
      have hsn := h.sn hlong (by decide)
      rw [if_pos rfl, snAt, if_neg (by omega)] at hsn
      exact ⟨hlong, by omega, hsn, h.bs (Or.inl (by omega))⟩

/-- The sequence number that follows -/
theorem nextSn_eq {sn : Nat} (hn : 2 ≤ n) (h : sn = (n - 1) % 16) : nextSn sn = snAt n := by
  rw [h, nextSn_mod, snAt, if_neg (by omega), Nat.sub_add_cancel (by omega)]

/-- Nothing is left exactly after the last frame. -/
theorem left_iff (h : SenderAt p arg d bs before n .out v) (hd : d ≠ []) (hn : n ≤ frames d) :
    v.flow.remainingData = 0 ↔ n = frames d := by
  obtain ⟨buf, -, -, hrem⟩ := h.message (by decide)
  rw [hrem, left_eq_zero hd]
  omega

/-- The block decides what follows a consecutive frame. -/
theorem gate_eq (h : SenderAt p arg d bs before n .out v) (hs : v.flow.state = .txCf)
    (hlt : n < frames d) : gate bs d n = !blockOpen v.flow.bs v.flow.cfSn := by
  obtain ⟨hlong, h2, hsn, hbs⟩ := h.at_consecutive hs
  rw [gate_block hlong h2 hlt, hsn, hbs]

/-- **The last frame is confirmed**: the message is given back and announced. -/
theorem complete (h : SenderAt p arg d bs before n .out v) {len : Nat} (hlen : len = d.length) :
    SenderAt p arg d bs before n .done
      ((View.removeHead { v with confirms := v.confirms - 1 }).setState .idle
        |>.emit (.sent p arg len)) := by
  have hco : v.confirms = 1 := h.confirms
  refine ⟨h.suspended, h.tx, h.err, ?_, rfl, fun _ hp => absurd rfl hp, fun hb => ?_,
    fun hp => absurd rfl hp, ?_⟩
  · show v.confirms - 1 = 0
    omega
  · rcases hb with hb | ⟨-, hb⟩
    · exact h.bs (Or.inl hb)
    · cases hb
  · show Transfer.answers (v.log ++ [_]) = _
    rw [answers_append, h.answers_eq (by decide), hlen]
    rfl

/-- **The first frame is confirmed**: flow control is awaited. -/
theorem confirm_first (h : SenderAt p arg d bs before 1 .out v) :
    SenderAt p arg d bs before 1 .wait
      ((View.setState { v with confirms := v.confirms - 1 } .waitFc).emit (.waitFc p)
        |>.armError true) := by
  obtain ⟨buf, hbuf, hbytes, hrem⟩ := h.message (by decide)
  have hco : v.confirms = 1 := h.confirms
  have herr : v.err = 0 := h.err
  refine ⟨h.suspended, h.tx, ?_, ?_, rfl, fun hl _ => ?_, fun hb => ?_,
    fun _ => ⟨buf, hbuf, hbytes, hrem⟩, ?_⟩
  · show v.err + 1 = 1
    omega
  · show v.confirms - 1 = 0
    omega
  · show v.flow.cfSn = 1
    exact h.sn hl (by decide)
  · rcases hb with hb | ⟨-, hb⟩
    · omega
    · cases hb
  · show Transfer.answers (v.log ++ [_]) = _
    rw [answers_append, h.answers_eq (by decide)]
    rfl

/-- **A consecutive frame is confirmed within a block**: the next one is due. -/
theorem confirm_next (h : SenderAt p arg d bs before n .out v) (hs : v.flow.state = .txCf) :
    SenderAt p arg d bs before n .due
      ((View.setFlow { v with confirms := v.confirms - 1 }
        { v.flow with cfSn := nextSn v.flow.cfSn, state := .txCf }).armOutput true) := by
  obtain ⟨buf, hbuf, hbytes, hrem⟩ := h.message (by decide)
  obtain ⟨hlong, h2, hsn, hbs⟩ := h.at_consecutive hs
  have hco : v.confirms = 1 := h.confirms
  have htx : v.tx = 0 := h.tx
  refine ⟨h.suspended, ?_, h.err, ?_, ?_, fun _ _ => ?_, fun _ => hbs,
    fun _ => ⟨buf, hbuf, hbytes, hrem⟩, ?_⟩
  · show v.tx + 1 = 1
    omega
  · show v.confirms - 1 = 0
    omega
  · show IsotpState.txCf = frameState d n
    rw [frameState, if_neg (by omega), if_neg (by omega)]
  · show nextSn v.flow.cfSn = snAt n
    exact nextSn_eq h2 hsn
  · show Transfer.answers v.log = _
    rw [h.answers_eq (by decide)]
    exact (List.append_nil _).symm

/-- **The last frame of a block is confirmed**: flow control is awaited. -/
theorem confirm_block (h : SenderAt p arg d bs before n .out v) (hs : v.flow.state = .txCf) :
    SenderAt p arg d bs before n .wait
      ((View.setFlow { v with confirms := v.confirms - 1 }
        { v.flow with cfSn := nextSn v.flow.cfSn, state := .waitFc }).emit (.waitFc p)
          |>.armError true) := by
  obtain ⟨buf, hbuf, hbytes, hrem⟩ := h.message (by decide)
  obtain ⟨hlong, h2, hsn, hbs⟩ := h.at_consecutive hs
  have hco : v.confirms = 1 := h.confirms
  have herr : v.err = 0 := h.err
  refine ⟨h.suspended, h.tx, ?_, ?_, rfl, fun _ _ => ?_, fun _ => hbs,
    fun _ => ⟨buf, hbuf, hbytes, hrem⟩, ?_⟩
  · show v.err + 1 = 1
    omega
  · show v.confirms - 1 = 0
    omega
  · show nextSn v.flow.cfSn = snAt n
    exact nextSn_eq h2 hsn
  · show Transfer.answers (v.log ++ [_]) = _
    rw [answers_append, h.answers_eq (by decide)]
    rfl

/-- **A frame is confirmed.** -/
theorem confirm (hd : d ≠ []) (h : SenderAt p arg d bs before n .out v) (h1 : 1 ≤ n)
    (hn : n ≤ frames d) {pcb : IsotpPcb} (hsent : pcb.sent = true) (harg : pcb.callbackArg = arg)
    (hw : OutputSwitch pcb p true { v with confirms := v.confirms - 1 } v') :
    SenderAt p arg d bs before n (Gated.onward (frames d) (gate bs d) n) v' ∧
      ∃ l, v'.log = v.log ++ l ∧ l.filterMap frameOf = [] := by
  have hst : v.flow.state = frameState d (n - 1) := h.state
  have hlast := h.left_iff hd hn
  -- which frame was confirmed decides what comes next: the end, a wait for flow control, the next
  -- frame
  cases hw with
  | skip hs =>
    -- a flow with a frame on the bus is in a state that sends
    have hs' : v.flow.state = .idle ∨ v.flow.state = .waitFc := hs
    have := frameState_sends d (n - 1)
    rcases hs' with hs' | hs' <;> rw [← hst, hs'] at this <;> cases this
  | complete hs =>
    obtain ⟨buf, hbuf, hbytes, -⟩ := h.message (by decide)
    -- the sent callback is told the length of the buffer, which is that of the message
    have hcap : View.capacity { v with confirms := v.confirms - 1 } = d.length := by
      show v.headBuffer.elim 0 LwcanBuffer.length = d.length
      rw [hbuf, ← hbytes, LwcanBuffer.bytes, Mem.length_slice]
      rfl
    have hs' : v.flow.state = .txSf ∨ v.flow.state = .txCf ∧ v.flow.remainingData = 0 := hs
    have hfin : n = frames d := by
      rcases hs' with hs' | ⟨-, hs'⟩
      · -- a single frame is the whole message
        have hshort : d.length ≤ 7 := by
          by_contra hlong
          rw [hst, frameState, if_neg hlong] at hs'
          split at hs' <;> cases hs'
        have hone : frames d = 1 := if_pos hshort
        omega
      · exact hlast.mp hs'
    rw [show Gated.onward (frames d) (gate bs d) n = .done from hfin ▸ Gated.onward_self, hsent,
      harg]
    exact ⟨h.complete hcap, _, rfl, rfl⟩
  | ff hs =>
    have hs' : v.flow.state = .txFf := hs
    -- the first frame is the first of several
    have hfirst : 7 < d.length ∧ n = 1 := by
      rw [hst, frameState] at hs'
      split at hs'
      · cases hs'
      · split at hs'
        · exact ⟨by omega, by omega⟩
        · cases hs'
    obtain ⟨hlong, rfl⟩ := hfirst
    have hgate : gate bs d 1 = true := gate_one hlong
    rw [Gated.onward_of_gate (gate_bounds bs d 1 hgate).2 hgate]
    exact ⟨h.confirm_first, _, rfl, rfl⟩
  | cf hs hr hb =>
    -- the block goes on
    have hlt : n < frames d := lt_of_le_of_ne hn fun hf => hr (hlast.mpr hf)
    have hgate : gate bs d n = false := by
      rw [h.gate_eq hs hlt]
      simpa using hb
    rw [Gated.onward_of_not_gate hlt hgate]
    exact ⟨h.confirm_next hs, [], (List.append_nil _).symm, rfl⟩
  | block hs hr hb =>
    -- the block is at its end
    have hlt : n < frames d := lt_of_le_of_ne hn fun hf => hr (hlast.mpr hf)
    have hgate : gate bs d n = true := by
      rw [h.gate_eq hs hlt]
      simpa using hb
    rw [Gated.onward_of_gate hlt hgate]
    exact ⟨h.confirm_block hs, _, rfl, rfl⟩

/-- **Flow control with `FS_READY`** lets the sender go on. -/
theorem proceed (h : SenderAt p arg d bs before n .wait v) (hg : gate bs d n) {f : CanFrame}
    (hb : (f.data 1).toNat = bs) :
    SenderAt p arg d bs before n .due
      (({ v with err := v.err - 1 }.emit (.flowControl p fsReady (f.data 1).toNat
          (f.data 2).toNat)).setFlow
        { v.flow with
          fs := fsReady
          bs := (f.data 1).toNat
          st := if stMsRangeMax < (f.data 2).toNat then 1 else (f.data 2).toNat
          state := .txCf }
        |>.armOutput true) := by
  obtain ⟨buf, hbuf, hbytes, hrem⟩ := h.message (by decide)
  have htx : v.tx = 0 := h.tx
  have herr : v.err = 1 := h.err
  refine ⟨h.suspended, ?_, ?_, h.confirms, ?_, fun hl _ => h.sn hl (by decide), fun _ => hb,
    fun _ => ⟨buf, hbuf, hbytes, hrem⟩, ?_⟩
  · show v.tx + 1 = 1
    omega
  · show v.err - 1 = 0
    omega
  · -- only a segmented message has gates
    have hlong := long_of_gate hg
    have h1 := (gate_bounds bs d n hg).1
    show IsotpState.txCf = frameState d n
    rw [frameState, if_neg (by omega), if_neg (by omega)]
  · show Transfer.answers (v.log ++ [_]) = _
    rw [answers_append, h.answers_eq (by decide)]
    rfl

theorem ph_of_tx (h : SenderAt p arg d bs before n ph v) (ht : 0 < v.tx) : ph = .due := by
  by_contra hne
  rw [h.tx, if_neg hne] at ht
  exact absurd ht (by decide)

theorem ph_of_confirms (h : SenderAt p arg d bs before n ph v) (ht : 0 < v.confirms) :
    ph = .out := by
  by_contra hne
  rw [h.confirms, if_neg hne] at ht
  exact absurd ht (by decide)

theorem ph_of_waitFc (h : SenderAt p arg d bs before n ph v) (hs : v.flow.state = .waitFc) :
    ph = .wait := by
  have hst := h.state
  rw [hs] at hst
  cases ph with
  | wait => rfl
  | done => cases hst
  | due =>
    have := frameState_sends d n
    rw [← show _ = frameState d n from hst] at this
    cases this
  | out =>
    have := frameState_sends d (n - 1)
    rw [← show _ = frameState d (n - 1) from hst] at this
    cases this

/-- **What happens to the sending end** if nothing disturbs it: it hands the next frame over, or the
driver confirms the last one. -/
theorem undisturbed (hc : cfg.canfd = false) (hd : d ≠ []) (hl : d.length < 4096)
    (hsent : (s.pcb p).sent = true) (harg : (s.pcb p).callbackArg = arg) (hcanif : s.canif p ≠ none)
    (h : SenderAt p arg d bs before n ph (s.view (p, .output))) (hn : n ≤ frames d)
    (hok : Gated.SenderOk (frames d) (gate bs d) n ph) (hu : s.Undisturbed (p, .output) e)
    (hst : OutputStep cfg s p (s.view (p, .output)) e v') :
    ∃ l, v'.log = (s.view (p, .output)).log ++ l ∧
      (ph = .due ∧ SenderAt p arg d bs before (n + 1) .out v' ∧
          l.filterMap frameOf = [((s.pcb p).txId, wire cfg.paddingByte d n)] ∨
        ph = .out ∧ SenderAt p arg d bs before n (Gated.onward (frames d) (gate bs d) n) v' ∧
          l.filterMap frameOf = []) := by
  have hns : s.suspended ≠ some (.isotpSent (p, .output)) := by
    intro hsus
    have := h.suspended
    rw [view_suspended (k := (p, .output)) hsus rfl] at this
    cases this
  cases hst with
  | send => exact absurd rfl hu
  | new => exact hu.elim
  -- the handler runs while a frame is due, and finds the interface
  | skip hf hsk ht =>
    obtain rfl := h.ph_of_tx ht
    have hsends := frameState_sends d n
    rw [← show (s.flow (p, .output)).state = frameState d n from h.state] at hsends
    rcases hsk with hsk | hsk | hsk
    · exact absurd hsk hcanif
    · rw [show (s.flow (p, .output)).state = _ from hsk] at hsends
      cases hsends
    · rw [show (s.flow (p, .output)).state = _ from hsk] at hsends
      cases hsends
  | output hf hcan ht hfl =>
    obtain rfl := h.ph_of_tx ht
    obtain ⟨-, hwire, hid⟩ := h.fill hc hd hl hok hfl
    refine ⟨_, rfl, Or.inl ⟨rfl, h.output hc hd hl hok hfl, ?_⟩⟩
    simp [frameOf, hwire, hid, address]
  | reject hf hcan ht hfl hr =>
    exact absurd (hu.2 (fires_iff.mp hf)) hr
  | expire hf => exact absurd (fires_iff.mp hf) hu.1
  | confirm hsn hw =>
    obtain ⟨hmem, -, hslot⟩ := hu rfl
    have hpos : 0 < (s.view (p, .output)).confirms := List.count_pos_iff.mpr hmem
    obtain rfl := h.ph_of_confirms hpos
    rw [hslot] at hw
    obtain ⟨h₁, l, h₂, h₃⟩ := h.confirm hd hok hn hsent harg hw
    exact ⟨l, h₂, Or.inr ⟨rfl, h₁, h₃⟩⟩
  | refuse hsn herr => exact absurd (hu rfl).2.1 herr
  | resume hsn => exact absurd hsn hns
  -- no flow control is for this flow
  | wait hp hs hf hw ht =>
    have := hu hp
    simp [Dir.reads, ht] at this
  | abort hp hs hf hr ht =>
    have := hu hp
    simp [Dir.reads, ht] at this
  | proceed hp hs hf ht =>
    have := hu hp
    simp [Dir.reads, ht] at this

/-- **The flow-control frame that is awaited** arrives. -/
theorem receive_fc (hs : Sound s) (hb : bs < 256) {canif : Nat} {f : CanFrame} {g : Grant}
    {st : Nat} (h : SenderAt p arg d bs before n ph (s.view (p, .output)))
    (hok : Gated.SenderOk (frames d) (gate bs d) n ph) (hf : f.wire = fcWire pad bs st)
    (hst : OutputStep cfg s p (s.view (p, .output)) (.input canif f g) v') :
    ph = .wait ∧ SenderAt p arg d bs before n .due v' ∧
      ∃ l, v'.log = (s.view (p, .output)).log ++ l ∧ l.filterMap frameOf = [] := by
  obtain ⟨-, hready, hbs⟩ := wire_fc hb hf
  cases hst with
  | wait hp hw hf' =>
    rw [hready] at hf'
    cases hf'
  | abort hp hw hf' hr => exact absurd hready hr
  | proceed hp hw hf' ht =>
    obtain rfl := h.ph_of_waitFc hw
    have herr : 0 < (s.view (p, .output)).err := by
      rw [h.err]
      decide
    rw [hs.slotAfterCancel herr]
    exact ⟨rfl, h.proceed hok hbs, _, rfl, rfl⟩

end SenderAt
end Transfer
end Lwcan
