import Lwcan.Truthful

/-!
# Frames show nothing but the message

The frame that is handed to a driver is a local variable, and its memory holds whatever was there
before. Four functions fill it: they write a header byte by byte, copy a stretch of the message
behind it and pad the rest, each with its own count of how much of which.

`Clean` says that this is enough: whatever the frame and the memory behind the buffer hold, the same
bytes go out, each of the header, the message or padding. It needs `remaining_data` to be no more
than the buffer holds, and one function does not keep that: `isotp_fill_ff` takes a full frame's
bytes off without asking whether so many are left. A first frame that is filled a second time may
find fewer, and the next consecutive frame is read from beyond the buffer.

* `Holds` — what the filling of a frame relies on, and `Holds.clean` that it is enough.
* `Backed` — the invariant: a flow that is sending has a buffer that holds what is left.
* `frames_clean` — every frame is clean in every run in which no first frame wraps `remaining_data`
  and the frames received fit.
* `firstFrameFits_of_outside` — so it is where nothing is sent inside the error callback of a failed
  confirmation.
-/

namespace Lwcan

/-! ### One frame -/

section Frame

variable {cfg : Config} {buf : LwcanBuffer} {flow : IsotpFlow} {f f' : CanFrame} {n : Nat}

/-- The header of a flow-control frame -/
def fcHeader (flow : IsotpFlow) : List UInt8 :=
  [fcType ||| UInt8.ofNat (flow.fs &&& 0x0F), UInt8.ofNat flow.bs, UInt8.ofNat flow.st]

/-- The frame that the flow fills in its state, from `f` -/
def fillFrame (cfg : Config) (flow : IsotpFlow) (buf : LwcanBuffer) (f : CanFrame) : CanFrame :=
  match flow.state with
  | .txSf => (isotpFillSf cfg (some buf) flow f).2
  | .txFf => (isotpFillFf cfg (some buf) flow f).2
  | .txCf => (isotpFillCf cfg (some buf) flow f).2
  | .txFc => isotpFillFc cfg flow f
  | .idle | .waitFc | .waitCf => f

/-- The header of that frame -/
def frameHeader (cfg : Config) (flow : IsotpFlow) : List UInt8 :=
  match flow.state with
  | .txSf => sfHeader cfg flow.remainingData
  | .txFf => ffHeader cfg flow.remainingData
  | .txCf => [cfHeader flow.cfSn]
  | .txFc => fcHeader flow
  | .idle | .waitFc | .waitCf => []

theorem fillFrame_sf (hs : flow.state = .txSf) :
    fillFrame cfg flow buf f = (isotpFillSf cfg (some buf) flow f).2 := by
  rw [fillFrame, hs]

theorem fillFrame_ff (hs : flow.state = .txFf) :
    fillFrame cfg flow buf f = (isotpFillFf cfg (some buf) flow f).2 := by
  rw [fillFrame, hs]

theorem fillFrame_cf (hs : flow.state = .txCf) :
    fillFrame cfg flow buf f = (isotpFillCf cfg (some buf) flow f).2 := by
  rw [fillFrame, hs]

theorem fillFrame_fc (hs : flow.state = .txFc) : fillFrame cfg flow buf f =
    isotpFillFc cfg flow f := by
  rw [fillFrame, hs]

/-- **A frame shows nothing but the message.** -/
structure Clean (cfg : Config) (flow : IsotpFlow) (buf : LwcanBuffer) : Prop where
  /-- Whatever the frame held before, length and data are the same. -/
  same : ∀ f f', (fillFrame cfg flow buf f).len = (fillFrame cfg flow buf f').len ∧
    (fillFrame cfg flow buf f).wire = (fillFrame cfg flow buf f').wire
  /-- The bytes are those of the header, a stretch of the message, and padding. -/
  made : ∃ o n k, o + n ≤ buf.length ∧ ∀ f, (fillFrame cfg flow buf f).wire =
    (frameHeader cfg flow ++ Mem.slice buf.data o n ++ List.replicate k cfg.paddingByte).take
      (fillFrame cfg flow buf f).len
  /-- Nothing is written behind the data array. -/
  writes : ∀ f i, maxDlen cfg ≤ i → (fillFrame cfg flow buf f).data i = f.data i
  /-- Nothing is read behind the buffer. -/
  reads : ∀ buf' : LwcanBuffer, buf'.length = buf.length →
    (∀ i < buf.length, buf'.data i = buf.data i) →
      ∀ f, fillFrame cfg flow buf' f = fillFrame cfg flow buf f

/-- The frames agree from byte `n` on. -/
def CanFrame.Untouched (n : Nat) (f f' : CanFrame) : Prop := ∀ i, n ≤ i → f'.data i = f.data i

namespace CanFrame.Untouched

theorem refl (n : Nat) (f : CanFrame) : Untouched n f f := fun _ _ => rfl

theorem set (h : Untouched n f f') {k : Nat} (hk : k < n) (b : UInt8) :
    Untouched n f (f'.set k b) :=
  fun i hi => (Function.update_of_ne (hk.trans_le hi).ne' _ _).trans (h i hi)

theorem orAt (h : Untouched n f f') {k : Nat} (hk : k < n) (b : UInt8) :
    Untouched n f (f'.orAt k b) := h.set hk _

theorem addPadding (h : Untouched n f f') {off num : Nat} (hn : off + num ≤ n) :
    Untouched n f (f'.addPadding cfg off num) := by
  intro i hi
  rw [addPadding_data, Mem.blit_of_le _ _ (hn.trans hi)]
  exact h i hi

theorem copyFromOffset (h : Untouched n f f') {off num o : Nat} (hn : off + num ≤ n) :
    Untouched n f (f'.copyFromOffset off (some buf) num o) := by
  intro i hi
  rw [copyFromOffset_data]
  unfold lwcanBufferCopyFromOffset
  dsimp only
  split
  · -- `lwcan_buffer_copy_from` refuses to copy nothing
    exact h i hi
  · dsimp only
    rw [Mem.blit_of_le _ _ (hn.trans hi)]
    exact h i hi

end CanFrame.Untouched

theorem le_maxDlen (cfg : Config) : 8 ≤ maxDlen cfg := by
  unfold maxDlen
  split <;> decide

theorem dataFrameLen_le_maxDlen (cfg : Config) (n : Nat) : dataFrameLen cfg n ≤ maxDlen cfg := by
  have hle := dataFrameLen_le cfg n
  unfold dataFrameLen maxDlen at *
  split
  · next hc =>
    rw [if_pos hc] at hle
    exact hle
  · exact le_rfl

theorem sfOffset_add_sfMax (cfg : Config) : sfOffset cfg + sfMax cfg = maxDlen cfg := by
  unfold sfOffset sfMax maxDlen
  split <;> rfl

/-- The length and the type of a frame -/
theorem untouched_type (cfg : Config) (n : Nat) (f : CanFrame) (b : UInt8) :
    CanFrame.Untouched (maxDlen cfg) f ({ f with len := dataFrameLen cfg n }.set 0 b) := by
  have hm := le_maxDlen cfg
  exact CanFrame.Untouched.set (CanFrame.Untouched.refl _ _) (by omega) b

/-- The header stays inside the array. -/
theorem untouched_sfHead (cfg : Config) (n : Nat) (f : CanFrame) :
    CanFrame.Untouched (maxDlen cfg) f (sfHead cfg n f) := by
  have hm := le_maxDlen cfg
  have hzero := untouched_type cfg n f sfType
  unfold sfHead
  dsimp only
  split
  · exact hzero.set (by omega) _
  · exact hzero.orAt (by omega) _

theorem untouched_ffHead (cfg : Config) (n : Nat) (f : CanFrame) :
    CanFrame.Untouched (maxDlen cfg) f (ffHead cfg n f) := by
  have hm := le_maxDlen cfg
  have hzero := untouched_type cfg n f ffType
  unfold ffHead
  dsimp only
  split
  · exact ((((hzero.set (by omega) _).set (by omega) _).set (by omega) _).set (by omega) _).set
      (by omega) _
  · exact (hzero.orAt (by omega) _).set (by omega) _

theorem untouched_cfHead (cfg : Config) (n sn : Nat) (f : CanFrame) :
    CanFrame.Untouched (maxDlen cfg) f (cfHead cfg n sn f) := by
  have hm := le_maxDlen cfg
  have hzero := untouched_type cfg n f cfType
  exact hzero.orAt (by omega) _

/-- A copy from inside a buffer reads nothing behind it. -/
theorem CanFrame.copyFromOffset_congr {buf' : LwcanBuffer} {off num o : Nat}
    (ho : o + num ≤ buf.length) (h : ∀ i < buf.length, buf'.data i = buf.data i) :
    f.copyFromOffset off (some buf') num o = f.copyFromOffset off (some buf) num o := by
  unfold copyFromOffset lwcanBufferCopyFromOffset
  dsimp only
  split
  · rfl
  · congr 1
    exact Mem.blit_congr fun i hi => h _ (by omega)

/-- A buffer with this byte in the memory behind it -/
def LwcanBuffer.before (buf : LwcanBuffer) (b : UInt8) : LwcanBuffer :=
  { buf with data := fun i => if i < buf.length then buf.data i else b }

/-! ### The four functions -/

/-- **What the filling of a frame relies on**: the buffer holds what is left, a single frame has
room for it, and a first frame is filled from a message that needs one. -/
structure Holds (cfg : Config) (flow : IsotpFlow) (buf : LwcanBuffer) : Prop where
  left : flow.remainingData ≤ buf.length
  length : buf.length < 4294967296
  single : flow.state = .txSf → flow.remainingData ≤ sfMax cfg
  first : flow.state = .txFf → sfMax cfg < buf.length

/-- The wire is as long as the frame. -/
theorem CanFrame.wire_take {l : List UInt8} (hn : f.len = n) (h : f.wire = l) :
    f.wire = l.take n := by
  rw [← h, List.take_of_length_le]
  rw [wire, Mem.length_slice, hn]

/-- The wire is enough, if the length is always the same. -/
theorem Clean.of_wire (len o n k : Nat) (hlen : ∀ f, (fillFrame cfg flow buf f).len = len)
    (hn : o + n ≤ buf.length)
    (hwire : ∀ f, (fillFrame cfg flow buf f).wire =
      (frameHeader cfg flow ++ Mem.slice buf.data o n ++ List.replicate k cfg.paddingByte).take len)
    (hwrites : ∀ f, CanFrame.Untouched (maxDlen cfg) f (fillFrame cfg flow buf f))
    (hreads : ∀ buf' : LwcanBuffer, buf'.length = buf.length →
      (∀ i < buf.length, buf'.data i = buf.data i) →
        ∀ f, fillFrame cfg flow buf' f = fillFrame cfg flow buf f) : Clean cfg flow buf := by
  refine ⟨fun f f' => ⟨(hlen f).trans (hlen f').symm, (hwire f).trans (hwire f').symm⟩,
    ⟨o, n, k, hn, fun f => ?_⟩, hwrites, hreads⟩
  rw [hlen f]
  exact hwire f

/-- **A single frame** is clean, also where it ends before its data does. -/
theorem Holds.clean_sf (h : Holds cfg flow buf) (hs : flow.state = .txSf) : Clean cfg flow buf := by
  have hleft := h.left
  have hmax := h.single hs
  have hroom := sfOffset_add_sfMax cfg
  have hle := dataFrameLen_le_maxDlen cfg flow.remainingData
  refine Clean.of_wire (dataFrameLen cfg flow.remainingData) 0 flow.remainingData
    (dataFrameLen cfg flow.remainingData - (sfOffset cfg + flow.remainingData)) (fun f => ?_)
    (by omega) (fun f => ?_) (fun f => ?_) (fun buf' hl hd f => ?_)
  · rw [fillFrame_sf hs, isotpFillSf_len]
  · rw [fillFrame_sf hs, frameHeader, hs]
    exact isotpFillSf_wire
  · -- the message fits the array even where it does not fit the frame
    have hcopy : CanFrame.Untouched (maxDlen cfg) f
        ((sfHead cfg flow.remainingData f).copyFromOffset
        (sfOffset cfg) (some buf) flow.remainingData 0) :=
      (untouched_sfHead cfg flow.remainingData f).copyFromOffset (by omega)
    rw [fillFrame_sf hs, isotpFillSf_frame]
    dsimp only
    split
    · next hlt =>
      -- padding ends where the frame does
      refine hcopy.addPadding ?_
      rw [CanFrame.copyFromOffset_len, sfHead_len] at hlt ⊢
      omega
    · exact hcopy
  · rw [fillFrame_sf hs, fillFrame_sf hs, isotpFillSf_frame, isotpFillSf_frame,
      CanFrame.copyFromOffset_congr (by omega) hd]

/-- **A first frame** is clean, however much is left: it is full, and the message fills it. -/
theorem Holds.clean_ff (h : Holds cfg flow buf) (hs : flow.state = .txFf) : Clean cfg flow buf := by
  have hfirst := h.first hs
  have hlt := ffMax_lt_sfMax cfg
  have hge := le_dataFrameLen cfg flow.remainingData
  have hoff := (ffOffset_le cfg).2
  have hle := dataFrameLen_le_maxDlen cfg flow.remainingData
  unfold ffMax at hlt
  have hlen : ∀ f, (fillFrame cfg flow buf f).len = dataFrameLen cfg flow.remainingData := by
    intro f
    rw [fillFrame_ff hs, isotpFillFf_len]
  -- the buffer is longer than a single frame's data, hence than a first frame's
  refine Clean.of_wire (dataFrameLen cfg flow.remainingData) 0
    (dataFrameLen cfg flow.remainingData - ffOffset cfg) 0 hlen (by omega) (fun f => ?_)
    (fun f => ?_) (fun buf' hl hd f => ?_)
  · rw [List.replicate_zero, List.append_nil]
    refine CanFrame.wire_take (hlen f) ?_
    rw [fillFrame_ff hs, frameHeader, hs]
    exact isotpFillFf_wire
  · rw [fillFrame_ff hs, isotpFillFf_frame]
    exact (untouched_ffHead cfg _ f).copyFromOffset (by omega)
  · rw [fillFrame_ff hs, fillFrame_ff hs, isotpFillFf_frame, isotpFillFf_frame,
      CanFrame.copyFromOffset_congr (by omega) hd]

/-- **A consecutive frame** is clean: it is read from where the frames before have stopped. -/
theorem Holds.clean_cf (h : Holds cfg flow buf) (hs : flow.state = .txCf) : Clean cfg flow buf := by
  have hleft := h.left
  have hmax := cfMax_le cfg flow.remainingData
  have hoff : cfDataOffset = 1 := rfl
  have hge := le_dataFrameLen cfg flow.remainingData
  have hle := dataFrameLen_le_maxDlen cfg flow.remainingData
  -- the difference does not wrap, which is what `remaining_data` must be bounded for
  have hsource : ∀ b : LwcanBuffer, b.length = buf.length →
      cfSource (some b) flow.remainingData = buf.length - flow.remainingData := by
    intro b hb
    rw [cfSource, Option.elim_some, hb]
    exact u32_sub h.left h.length
  have hlen : ∀ f, (fillFrame cfg flow buf f).len = dataFrameLen cfg flow.remainingData := by
    intro f
    rw [fillFrame_cf hs, isotpFillCf_len]
  refine Clean.of_wire (dataFrameLen cfg flow.remainingData) (buf.length - flow.remainingData)
    (cfMax cfg flow.remainingData)
    (dataFrameLen cfg flow.remainingData - cfDataOffset - cfMax cfg flow.remainingData) hlen
    (by omega) (fun f => ?_) (fun f => ?_) (fun buf' hl hd f => ?_)
  · refine CanFrame.wire_take (hlen f) ?_
    rw [fillFrame_cf hs, frameHeader, hs, isotpFillCf_wire, hsource buf rfl]
    rfl
  · rw [fillFrame_cf hs, isotpFillCf_frame]
    dsimp only
    split
    · next hlt =>
        exact ((untouched_cfHead cfg _ _ f).copyFromOffset (by omega)).addPadding (by omega)
    · exact (untouched_cfHead cfg _ _ f).copyFromOffset (by omega)
  · -- the length is the same, so the frame is read from the same offset
    rw [fillFrame_cf hs, fillFrame_cf hs, isotpFillCf_frame, isotpFillCf_frame, hsource buf' hl,
      hsource buf rfl]
    dsimp only
    split
    · rw [CanFrame.copyFromOffset_congr (by omega) hd]
    · rw [CanFrame.copyFromOffset_congr (by omega) hd]

/-- **A flow-control frame** is clean: it reads no buffer. -/
theorem clean_fc (hs : flow.state = .txFc) : Clean cfg flow buf := by
  have hm := le_maxDlen cfg
  refine Clean.of_wire canMaxDlen 0 0 5 (fun f => ?_) (Nat.zero_le _) (fun f => ?_) (fun f => ?_)
    (fun buf' _ _ f => ?_)
  · rw [fillFrame_fc hs]
    rfl
  · rw [fillFrame_fc hs, frameHeader, hs, isotpFillFc_wire, Mem.slice_zero, List.append_nil,
      List.take_of_length_le]
    · rfl
    · simp [fcHeader, canMaxDlen]
  · -- three bytes are written, the first of them twice, and five are padded
    have htype : CanFrame.Untouched (maxDlen cfg) f ({ f with len := canMaxDlen }.set 0 fcType) :=
      CanFrame.Untouched.set (CanFrame.Untouched.refl _ _) (by omega) _
    have hstatus := htype.orAt (by omega : 0 < maxDlen cfg) (UInt8.ofNat (flow.fs &&& 0x0F))
    have hbs := hstatus.set (by omega : 1 < maxDlen cfg) (UInt8.ofNat flow.bs)
    have hst := hbs.set (by omega : 2 < maxDlen cfg) (UInt8.ofNat flow.st)
    rw [fillFrame_fc hs]
    exact hst.addPadding hm
  · rw [fillFrame_fc hs, fillFrame_fc hs]

end Frame

/-! ### The invariant -/

/-- There is a full frame's worth left when a first frame is filled. -/
def FullFirstFrame (cfg : Config) (flow : IsotpFlow) : Prop :=
  flow.state = .txFf → dataFrameLen cfg flow.remainingData - ffOffset cfg ≤ flow.remainingData

instance (cfg : Config) (flow : IsotpFlow) : Decidable (FullFirstFrame cfg flow) :=
  inferInstanceAs (Decidable (_ → _))

/-- **A flow that is sending has a buffer** that holds what is left. -/
def Backed (cfg : Config) (v : View) : Prop :=
  v.flow.state ≠ .idle → ∃ buf, v.headBuffer = some buf ∧ Holds cfg v.flow buf

section Flow

variable {cfg : Config} {s s' : Node} {v v' w : View} {buf : LwcanBuffer} {flow : IsotpFlow}
  {p : Nat} {e : Event}

/-- The states in which the frame that is due begins a message -/
def IsotpState.opens : IsotpState → Bool
  | .txSf | .txFf => true
  | .idle | .txCf | .txFc | .waitFc | .waitCf => false

/-- A later state of the same message, with no more left of it -/
theorem Holds.of_le (h : Holds cfg flow buf) {flow' : IsotpFlow}
    (hr : flow'.remainingData ≤ flow.remainingData)
    (hs : flow'.state = flow.state ∨ flow'.state.opens = false) : Holds cfg flow' buf := by
  refine ⟨hr.trans h.left, h.length, fun hsf => ?_, fun hff => ?_⟩
  · obtain hs | hs := hs
    · exact hr.trans (h.single (hs ▸ hsf))
    · rw [hsf] at hs
      cases hs
  · obtain hs | hs := hs
    · exact h.first (hs ▸ hff)
    · rw [hff] at hs
      cases hs

/-- **Filling a frame** leaves no more than there was, unless a first frame takes more than is
left. -/
theorem Holds.fill (h : Holds cfg flow buf) (hfit : FullFirstFrame cfg flow)
    {b : Option LwcanBuffer} {f : CanFrame} {filled : IsotpFlow × CanFrame} {n : Nat}
    (hfl : isotpFill cfg b flow f = some (filled, n)) : Holds cfg filled.1 buf := by
  have hlen : flow.remainingData < 4294967296 := h.left.trans_lt h.length
  refine h.of_le ?_ (Or.inl (isotpFill_state hfl))
  unfold isotpFill at hfl
  cases hs : flow.state with
  | idle | txFc | waitFc | waitCf =>
    rw [hs] at hfl
    cases hfl
  | txSf =>
    -- `remaining_data -= remaining_data`
    rw [hs] at hfl
    obtain ⟨rfl, -⟩ := Prod.mk.inj (Option.some.inj hfl)
    exact (u32_self_sub _).le.trans (Nat.zero_le _)
  | txFf =>
    -- the one subtraction that may wrap
    rw [hs] at hfl
    obtain ⟨rfl, -⟩ := Prod.mk.inj (Option.some.inj hfl)
    rw [isotpFillFf_flow b (hfit hs) hlen]
    exact Nat.sub_le _ _
  | txCf =>
    rw [hs] at hfl
    obtain ⟨rfl, -⟩ := Prod.mk.inj (Option.some.inj hfl)
    rw [isotpFillCf_flow b hlen]
    exact Nat.sub_le _ _

namespace Backed

theorem of_idle (h : v.flow.state = .idle) : Backed cfg v := fun hni => absurd h hni

theorem initial : Backed cfg View.initial := of_idle rfl

/-- A step that keeps the buffer and puts the flow into a state in which no new message begins. -/
theorem keep (h : Backed cfg v) (hni : v.flow.state ≠ .idle) (hb : w.headBuffer = v.headBuffer)
    (hr : w.flow.remainingData ≤ v.flow.remainingData)
    (hs : w.flow.state = v.flow.state ∨ w.flow.state.opens = false) : Backed cfg w := by
  intro _
  obtain ⟨buf, hbuf, hh⟩ := h hni
  exact ⟨buf, hb.trans hbuf, hh.of_le hr hs⟩

theorem outputSwitch (h : Backed cfg v) {pcb : IsotpPcb} {slot : Bool}
    (hw : OutputSwitch pcb p slot v v') : Backed cfg v' := by
  cases hw with
  | skip => exact h
  | complete =>
    -- the last frame is confirmed: the buffer goes with the state
    refine of_idle ?_
    rw [View.emitIf_flow]
    rfl
  | ff hs => exact h.keep (by rw [hs]; decide) rfl le_rfl (Or.inr rfl)
  | cf hs => exact h.keep (by rw [hs]; decide) rfl le_rfl (Or.inr rfl)
  | block hs => exact h.keep (by rw [hs]; decide) rfl le_rfl (Or.inr rfl)

/-- **Every transition of an output flow** keeps a buffer behind what is left, as long as no first
frame takes more than that. -/
theorem step (h : Backed cfg v)
    (hfit : ∀ frame, e = .timer frame .ok → s.Fires .isotpOutFlowOutput p → s.canif p ≠ none →
      FullFirstFrame cfg v.flow) (hst : OutputStep cfg s p v e v') : Backed cfg v' := by
  cases hst with
  | @send d g b buf hs hd hl hg hb hbl hbb =>
    -- the new buffer is as long as the message, all of which is left
    refine fun _ => ⟨buf, rfl, ?_⟩
    show Holds cfg (View.sendFlow cfg v.flow b d) buf
    unfold View.sendFlow
    split
    · next hlong => exact ⟨hbl.ge, hbl ▸ hl, by rintro ⟨⟩, fun _ => hbl ▸ hlong⟩
    · next hshort => exact ⟨hbl.ge, hbl ▸ hl, fun _ => not_lt.mp hshort, by rintro ⟨⟩⟩
  | skip => exact h
  | @output frame canif filled n hf hc ht hfl =>
    have hni : v.flow.state ≠ .idle := by
      intro hs
      simp [isotpFill, hs] at hfl
    obtain ⟨buf, hbuf, hh⟩ := h hni
    -- the buffer stays, and the frame takes no more than is left
    exact fun _ => ⟨buf, hbuf, hh.fill (hfit frame rfl hf (by rw [hc]; rintro ⟨⟩)) hfl⟩
  -- the error paths give the buffer up and leave an idle flow
  | reject | expire | abort => exact of_idle (View.fail_state ..)
  | confirm _ hw =>
    have h' : Backed cfg { v with confirms := v.confirms - 1 } := h
    exact h'.outputSwitch hw
  | refuse => exact of_idle (by rw [View.refused_flow])
  | resume _ hw =>
    have h' : Backed cfg { v with suspended := none } := h
    exact h'.outputSwitch hw
  | wait _ hs => exact h.keep (by rw [hs]; decide) rfl le_rfl (Or.inl rfl)
  | proceed _ hs => exact h.keep (by rw [hs]; decide) rfl le_rfl (Or.inr rfl)
  | new => exact of_idle rfl

end Backed

end Flow

namespace Node

variable {cfg : Config} {s s' : Node} {p : Nat} {e : Event} {es es' : List Event}

/-- The pcb whose next frame is due -/
def dueFrame (s : Node) : Option Nat :=
  match s.due with
  | some (.isotpOutFlowOutput, .pcb p) => some p
  | _ => none

theorem dueFrame_eq_some : s.dueFrame = some p ↔ s.Fires .isotpOutFlowOutput p := by
  rw [fires_iff, dueFrame]
  constructor
  · intro h
    split at h
    · next q hd =>
      obtain rfl : q = p := Option.some.inj h
      exact hd
    · cases h
  · intro h
    rw [h]

/-- **No first frame wraps `remaining_data`.** When one is handed over that the driver accepts, as
many bytes are left as it carries. -/
def FirstFrameFits (cfg : Config) (s : Node) : Event → Prop
  | .timer _ .ok => ∀ p ∈ s.dueFrame, s.canif p ≠ none → FullFirstFrame cfg (s.flow (p, .output))
  | _ => True

instance (cfg : Config) (s : Node) : (e : Event) → Decidable (FirstFrameFits cfg s e)
  | .timer _ .ok => inferInstanceAs (Decidable (∀ p ∈ s.dueFrame, s.canif p ≠ none →
      FullFirstFrame cfg (s.flow (p, .output))))
  | .timer _ .arg | .timer _ .canif | .timer _ .canifMax | .timer _ .lowLevelIf | .timer _ .memory
  | .timer _ .transmitTimeout | .timer _ .receiveTimeout | .timer _ .inprogress | .timer _ .aborted
  | .timer _ .connect | .timer _ (.driver _)
  | .call _ | .input _ _ _ | .sent _ _ | .resume | .tick _ => isTrue True.intro

/-- **Every frame that a pcb may fill now is clean**: with the buffer at the head of its output
flow, and with any buffer for the flow control of its input flow. -/
structure FillsClean (cfg : Config) (s : Node) (p : Nat) : Prop where
  output : (s.flow (p, .output)).state ∈ [IsotpState.txSf, .txFf, .txCf] →
    ∃ buf, s.headBuffer (p, .output) = some buf ∧ Clean cfg (s.flow (p, .output)) buf
  input : (s.flow (p, .input)).state = .txFc → ∀ buf, Clean cfg (s.flow (p, .input)) buf

theorem fillsClean_of_backed (h : Backed cfg (s.view (p, .output))) : FillsClean cfg s p := by
  refine ⟨fun hs => ?_, fun hs buf => clean_fc hs⟩
  have hni : (s.flow (p, .output)).state ≠ .idle := by
    intro hi
    rw [hi] at hs
    simp at hs
  obtain ⟨buf, hbuf, hh⟩ := h hni
  rw [view_headBuffer] at hbuf
  refine ⟨buf, hbuf, ?_⟩
  simp only [List.mem_cons, List.not_mem_nil, or_false] at hs
  obtain hs | hs | hs := hs
  · exact hh.clean_sf hs
  · exact hh.clean_ff hs
  · exact hh.clean_cf hs

/-- What the frames of a node rest on: a sound state, and buffers behind its output flows -/
structure BacksAll (cfg : Config) (s : Node) : Prop where
  sound : Sound s
  backed : ∀ p, Backed cfg (s.view (p, .output))

theorem BacksAll.initial (cfg : Config) : BacksAll cfg (lwcanInit cfg) := by
  refine ⟨Sound.initial cfg, fun p => ?_⟩
  rw [view_lwcanInit]
  exact Backed.initial

theorem BacksAll.step (h : BacksAll cfg s) (hC : FirstFrameFits cfg s e)
    (hst : Node.step cfg s e = some s') : BacksAll cfg s' := by
  refine ⟨h.sound.step hst, fun p => ?_⟩
  obtain heq | hmove := (h.sound.moves hst).output p
  · rw [heq]
    exact h.backed p
  · refine (h.backed p).step (fun frame he hf hcan => ?_) hmove
    subst he
    exact hC p (dueFrame_eq_some.mpr hf) hcan

theorem fillsClean_run (hr : Run cfg es s) (hf : RunAlong cfg (FirstFrameFits cfg) es) (p : Nat) :
    FillsClean cfg s p :=
  fillsClean_of_backed ((Runs.run_inv (fun _ _ _ hi hC hst => BacksAll.step hi hC hst)
    (BacksAll.initial cfg) hf hr).backed p)

/-- **Frames show nothing but the message**, in every run in which no first frame that a driver
accepts takes more bytes than are left, and in which the frames received fit: none of them is copied
over a buffer that is sent from. -/
theorem frames_clean (hr : Run cfg es s) (hf : RunAlong cfg (FirstFrameFits cfg) es)
    (hc : RunAlong cfg (Confined cfg) es) : (∀ p, FillsClean cfg s p) ∧ CopiesInside s :=
  ⟨fillsClean_run hr hf, Confined.copiesInside hr hc⟩

/-- A message of eight bytes whose consecutive frame is due, and one under reassembly -/
def consecutiveDue : List Event :=
  lastHandedOver.dropLast ++ [.input 0 firstFrame ⟨some 5, some 6, fun _ => 0⟩]

/-- The last two bytes of the message and a flow control go out clean. -/
theorem frames_clean_consecutiveDue : ∃ s, Run Config.classic consecutiveDue s ∧
    (s.flow (0, .output)).state = .txCf ∧ (s.flow (0, .input)).state = .txFc ∧
    FillsClean Config.classic s 0 ∧ CopiesInside s := by
  obtain ⟨s, hr, hout, hin⟩ := exists_run Config.classic consecutiveDue
    (fun s => (s.flow (0, .output)).state = .txCf ∧ (s.flow (0, .input)).state = .txFc) (by decide)
  obtain ⟨hclean, hinside⟩ := frames_clean hr (by decide) (by decide)
  exact ⟨s, hr, hout, hin, hclean 0, hinside⟩

/-- A single frame fails, another is sent inside its error callback, and a message of eight bytes
when that has been reported. The frame that is still due from before hands the first frame over once
more. -/
def twiceDue : List Event := failedFrame ++ [sendAgain, .resume,
  .call (.isotpSend (some 0) (some eightBytes) ⟨some 1, some 2, fun _ => 0⟩),
  .timer ⟨0, 0, 0, fun _ => 0⟩ .ok, .timer ⟨0, 0, 0, fun _ => 0⟩ .ok, .sent (0, .output) .ok,
  .input 0 readyFrame ⟨none, none, fun _ => 0⟩]

/-- **A frame shows what lies behind the message.** The first frame was filled twice, so the eight
bytes are said to have 4294967292 left, and the consecutive frame is read from offset 12 on. -/
theorem frames_leak : ¬∀ (cfg : Config) (es : List Event) (s : Node) (p : Nat), Run cfg es s →
    RunAlong cfg KeepsPcbs es → RunAlong cfg ConfirmsAccepted es → RunAlong cfg (Confined cfg) es →
      FillsClean cfg s p := by
  intro h
  obtain ⟨s, hr, hs, hne⟩ := exists_run Config.classic twiceDue
    (fun s => (s.flow (0, .output)).state = .txCf ∧ (s.headBuffer (0, .output)).all fun buf =>
      (fillFrame Config.classic (s.flow (0, .output)) (buf.before 0) ⟨0, 0, 0, fun _ => 0⟩).wire ≠
        (fillFrame Config.classic (s.flow (0, .output)) (buf.before 1) ⟨0, 0, 0, fun _ => 0⟩).wire)
    (by decide)
  obtain ⟨buf, hbuf, hclean⟩ := (h _ _ s 0 hr (by decide) (by decide) (by decide)).output
    (by rw [hs]; simp)
  rw [hbuf, Option.all_some, decide_eq_true_iff] at hne
  -- what lies behind the buffer makes no difference to a clean frame
  have hreads : ∀ b f, fillFrame Config.classic (s.flow (0, .output)) (buf.before b) f =
      fillFrame Config.classic (s.flow (0, .output)) buf f :=
    fun b f => hclean.reads (buf.before b) rfl (fun i hi => if_pos hi) f
  exact hne (by rw [hreads, hreads])

/-! ### Where nothing is sent inside the callback -/

/-- A first frame that is due has the whole message to carry the front of. -/
theorem fullFirstFrame_of_sends (hb : AtMostOne (s.view (p, .output)))
    (hsends : Sends cfg (s.view (p, .output))) (hf : s.Fires .isotpOutFlowOutput p) :
    FullFirstFrame cfg (s.flow (p, .output)) := by
  intro hs
  obtain ⟨e, timeouts, he, hh, ha⟩ := hf
  obtain ⟨ht, -⟩ := view_popOutput (d := .output) he hh ha
  have hni : (s.view (p, .output)).flow.state ≠ .idle := hb.ne_idle_of_tx ht
  obtain ⟨m, buf, hact⟩ := hsends.active hni
  have hseg : m.Segmented cfg := hact.segmented.mp (by rw [view_flow, hs]; decide)
  have hfl : isotpFill cfg (s.view (p, .output)).headBuffer (s.view (p, .output)).flow
      ⟨0, 0, 0, fun _ => 0⟩ = some (isotpFillFf cfg (s.view (p, .output)).headBuffer
        (s.view (p, .output)).flow ⟨0, 0, 0, fun _ => 0⟩, cfg.nAs) := by
    rw [isotpFill, view_flow, hs]
  -- it is the first time, so all of the message is left
  obtain ⟨-, hrem, -⟩ := hsends.firstFrame hact ht hs hfl
  rw [view_flow] at hrem
  have hle := dataFrameLen_le_maxDlen cfg (s.flow (p, .output)).remainingData
  have hlt := ffMax_lt_sfMax cfg
  unfold Sending.Segmented at hseg
  unfold ffMax at hlt
  omega

/-- **No first frame wraps `remaining_data`** where the driver confirms what it accepts, nothing
is sent inside the error callback of a failed confirmation, and new connections find nothing
pending. -/
theorem firstFrameFits_of_outside (h : RunAlong cfg (fun s e => ConfirmsAccepted s e ∧
    SendsOutside s e ∧ NewIsClean cfg s e) es) : RunAlong cfg (FirstFrameFits cfg) es := by
  have hinv := Runs.along_inv (I := fun s => Sound s ∧ ∀ p, AtMostOne (s.view (p, .output)) ∧
    Sends cfg (s.view (p, .output))) (fun s e t hI hC hst => ?_) ?_ h
  · refine Runs.Along.mono hinv fun s e hI => ?_
    unfold FirstFrameFits
    split
    · exact fun p hp _ => fullFirstFrame_of_sends (hI.2 p).1 (hI.2 p).2 (dueFrame_eq_some.mp hp)
    · trivial
  · -- one transition, or none
    refine ⟨hI.1.step hst, fun p => ?_⟩
    obtain heq | hmove := (hI.1.moves hst).output p
    · rw [heq]
      exact hI.2 p
    · exact paced_step hC.1 hC.2.1 hC.2.2 (hI.2 p).1 (hI.2 p).2 hmove
  · refine ⟨Sound.initial cfg, fun p => ?_⟩
    rw [view_lwcanInit]
    exact ⟨AtMostOne.initial, Sends.initial⟩

/-! ### Two runs -/

/-- A driver is handed the identifier and the wire. -/
theorem canifOutput_congr {k : FlowId} {canif timeout : Nat} {f f' : CanFrame} {ret : Lwcanerr}
    (hid : f.canId = f'.canId) (hw : f.wire = f'.wire) :
    s.canifOutput k canif f timeout ret = s.canifOutput k canif f' timeout ret := by
  unfold canifOutput
  rw [hid, hw]

theorem isotpOutFlowOutput_frame (h : FillsClean cfg s p) (f f' : CanFrame) (ret : Lwcanerr) :
    s.isotpOutFlowOutput cfg (.pcb p) f ret = s.isotpOutFlowOutput cfg (.pcb p) f' ret := by
  -- the wires agree, and so do those that the buffer at the head gives
  have hwire : (s.flow (p, .output)).state ∈ [IsotpState.txSf, .txFf, .txCf] →
      ∃ buf, s.headBuffer (p, .output) = some buf ∧ ∀ g g',
        (fillFrame cfg (s.flow (p, .output)) buf g).wire =
          (fillFrame cfg (s.flow (p, .output)) buf g').wire := by
    intro hs
    obtain ⟨buf, hbuf, hclean⟩ := h.output hs
    exact ⟨buf, hbuf, fun g g' => (hclean.same g g').2⟩
  unfold isotpOutFlowOutput
  dsimp only
  split
  · rfl
  · split
    · next hs =>
      -- a single frame leaves nothing, whatever it was filled from
      obtain ⟨buf, hbuf, hw⟩ := hwire (by rw [hs]; simp)
      simp only [fillFrame_sf hs] at hw
      rw [hbuf]
      refine canifOutput_congr ?_ (hw _ _)
      rw [isotpFillSf_canId, isotpFillSf_canId]
      rfl
    · next hs =>
      obtain ⟨buf, hbuf, hw⟩ := hwire (by rw [hs]; simp)
      simp only [fillFrame_ff hs] at hw
      rw [hbuf]
      simp only [isotpFillFf_left]
      refine canifOutput_congr ?_ (hw _ _)
      rw [isotpFillFf_canId, isotpFillFf_canId]
      rfl
    · next hs =>
      obtain ⟨buf, hbuf, hw⟩ := hwire (by rw [hs]; simp)
      simp only [fillFrame_cf hs] at hw
      rw [hbuf]
      simp only [isotpFillCf_left]
      refine canifOutput_congr ?_ (hw _ _)
      rw [isotpFillCf_canId, isotpFillCf_canId]
      rfl
    · rfl

theorem isotpInFlowOutput_frame (h : FillsClean cfg s p) (f f' : CanFrame) (ret : Lwcanerr) :
    s.isotpInFlowOutput cfg (.pcb p) f ret = s.isotpInFlowOutput cfg (.pcb p) f' ret := by
  unfold isotpInFlowOutput
  dsimp only
  split
  · rfl
  · split
    · next hs =>
      have hw := ((h.input hs {}).same (s.address cfg p f) (s.address cfg p f')).2
      simp only [fillFrame_fc hs] at hw
      refine canifOutput_congr ?_ hw
      rw [isotpFillFc_canId, isotpFillFc_canId]
      rfl
    · rfl

/-- **A step does not depend on what a frame held before.** -/
theorem step_frame (h : ∀ p, FillsClean cfg s p) (f f' : CanFrame) (ret : Lwcanerr) :
    step cfg s (.timer f ret) = step cfg s (.timer f' ret) := by
  have hnext : s.next cfg (.timer f ret) = s.next cfg (.timer f' ret) := by
    unfold next
    dsimp only
    split
    · rfl
    · next e timeouts _ =>
      -- taking the entry off the list changes no flow and no buffer
      have hclean : ∀ p, FillsClean cfg ({ s with timeouts } : Node) p :=
        fun p => ⟨(h p).1, (h p).2⟩
      obtain ⟨t, handler, arg, m, st⟩ := e
      cases handler with
      | isotpOutFlowOutput =>
        cases arg with
        | pcb p => exact isotpOutFlowOutput_frame (hclean p) f f' ret
        | null | user => rfl
      | isotpInFlowOutput =>
        cases arg with
        | pcb p => exact isotpInFlowOutput_frame (hclean p) f f' ret
        | null | user => rfl
      -- the other handlers fill no frame
      | isotpOutputErrorHandler | isotpInputErrorHandler | user => rfl
  unfold step
  rw [hnext]
  rfl

/-- Two events that differ in what the frame held before at most -/
inductive SameButFrame : Event → Event → Prop
  | timer (f f' : CanFrame) (ret : Lwcanerr) : SameButFrame (.timer f ret) (.timer f' ret)
  | same (e : Event) : SameButFrame e e

/-- **Two runs** that differ in what the frames held before lead to the same state, with the same
frames in its log. -/
theorem run_frames (hr : Run cfg es s) (hf : RunAlong cfg (FirstFrameFits cfg) es)
    (he : List.Forall₂ SameButFrame es es') : Run cfg es' s := by
  have hstep : ∀ s s' e e' t, (s = s' ∧ BacksAll cfg s) → SameButFrame e e' →
      FirstFrameFits cfg s e → step cfg s e = some t →
        ∃ t', step cfg s' e' = some t' ∧ t = t' ∧ BacksAll cfg t := by
    rintro s _ e e' t ⟨rfl, hb⟩ hE hC hst
    refine ⟨t, ?_, rfl, hb.step hC hst⟩
    cases hE with
    | timer f f' ret =>
      rw [← step_frame (fun p => fillsClean_of_backed (hb.backed p)) f f' ret]
      exact hst
    | same => exact hst
  obtain ⟨s', hr', rfl, -⟩ := Runs.run_related hstep ⟨rfl, BacksAll.initial cfg⟩ he hf hr
  exact hr'

end Node
end Lwcan
