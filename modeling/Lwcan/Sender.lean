import Lwcan.Frames
import Lwcan.Messages
import Lwcan.Pending

/-!
# The sender keeps to the message

A sender is at the mercy of its peer's flow control, of its driver and of time. Whatever these do,
the frames it hands over are a first frame and consecutive frames that carry the message from front
to back.

* `sending` — the message accepted last, and what has been done for it, as the log tells it.
* `Stream` — the frames of a segmented message, and the stretches of it that they carry.
* `Sends` — the invariant: state, `remaining_data`, `cf_sn` and `n_wft` agree with what was handed
  over.
* `sends_safely` — every reachable state, and every step that ends a message.
-/

namespace Lwcan

open Monitor

/-- A message accepted for sending, and what was done for it. -/
structure Sending where
  data : List UInt8
  /-- The frames handed to the driver -/
  frames : List (List UInt8)
  /-- The driver took each of them. -/
  taken : Bool
  /-- The peer has allowed consecutive frames since they were last awaited. -/
  ready : Bool
  /-- The WAIT frames received -/
  waits : Nat
  /-- The sent and error callbacks made -/
  callbacks : List Obs

namespace Sending

/-- The message accepted last, after an entry of the log -/
def step (cur : Option Sending) : Obs → Option Sending
  | .send _ d => some ⟨d, [], true, false, 0, []⟩
  | .output _ _ _ w _ ret => cur.map fun m =>
    { m with frames := m.frames ++ [w], taken := m.taken && ret = .ok }
  | .flowControl _ fs _ _ => cur.map fun m =>
    { m with ready := fs = fsReady, waits := if fs = fsWait then m.waits + 1 else m.waits }
  | .waitFc _ => cur.map fun m => { m with ready := false }
  | .sent p arg n => cur.map fun m => { m with callbacks := m.callbacks ++ [.sent p arg n] }
  | .error k arg err => cur.map fun m => { m with callbacks := m.callbacks ++ [.error k arg err] }
  | _ => cur

/-- The message needs more than a single frame. -/
def Segmented (cfg : Config) (m : Sending) : Prop := sfMax cfg < m.data.length

end Sending

/-- The message accepted last, and what was done for it -/
def sending (log : List Obs) : Option Sending := log.foldl Sending.step none

theorem sending_append (l l' : List Obs) : sending (l ++ l') = l'.foldl Sending.step (sending l) :=
  List.foldl_append

/-- **The frames of a segmented message** of `n` bytes, and the stretches of it that they carry: a
first frame, then consecutive frames, of which the `i`-th bears the sequence number `i mod 16`. -/
inductive Stream (cfg : Config) (n : Nat) : List (List UInt8) → List (List UInt8) → Prop
  | nil : Stream cfg n [] []
  | ff (x : List UInt8) (hx : x ≠ []) : Stream cfg n [ffHeader cfg n ++ x] [x]
  | cf {ws xs : List (List UInt8)} (h : Stream cfg n ws xs) (hw : ws ≠ []) (x : List UInt8)
      (hx : x ≠ []) (k : Nat) :
    Stream cfg n
      (ws ++ [cfHeader (ws.length % 16) :: (x ++ List.replicate k cfg.paddingByte)]) (xs ++ [x])

/-- Without frames nothing is carried. -/
theorem Stream.eq_nil {cfg : Config} {n : Nat} {ws xs : List (List UInt8)} (h : Stream cfg n ws xs)
    (hw : ws = []) : xs = [] := by
  cases h with
  | nil => rfl
  | ff => simp at hw
  | cf => simp at hw

/-- A frame may be handed over: it is the first of its message, or the peer has allowed more. -/
def Permitted (cfg : Config) (cur : Option Sending) (o : Obs) : Prop :=
  ∀ k canif id w t ret, o = .output k canif id w t ret →
    ∃ m ∈ cur, m.Segmented cfg → m.frames ≠ [] → m.ready

/-- Where the sender is in its message: which frame is due, or which was handed over last. -/
def Position (v : View) (m : Sending) : Prop :=
  match v.flow.state with
  | .txFf => v.flow.cfSn = 1 ∧ (0 < v.tx → m.frames = []) ∧
    (0 < v.confirms → m.frames.length = 1 ∧ v.flow.remainingData ≠ 0)
  | .waitFc => v.flow.cfSn = m.frames.length % 16 ∧ m.frames ≠ [] ∧ v.flow.remainingData ≠ 0
  | .txCf => m.ready ∧
    (0 < v.tx → v.flow.cfSn = m.frames.length % 16 ∧ m.frames ≠ [] ∧ v.flow.remainingData ≠ 0) ∧
    (0 < v.confirms → v.flow.cfSn = (m.frames.length - 1) % 16 ∧ 2 ≤ m.frames.length)
  | _ => True

/-- **While a message is being sent** its buffer is at the head of the flow, and no callback has
been made. -/
structure Active (cfg : Config) (v : View) (m : Sending) (buf : LwcanBuffer) : Prop where
  current : sending v.log = some m
  head : v.headBuffer = some buf
  bytes : buf.bytes = m.data
  length : m.data.length < 4294967296
  silent : m.callbacks = []
  taken : m.taken
  segmented : v.flow.state ≠ .txSf ↔ m.Segmented cfg
  waits : v.flow.state ≠ .txSf → m.waits + v.flow.nWft = u8 cfg.nWft
  position : Position v m

/-- **The invariant of the sender** -/
structure Sends (cfg : Config) (v : View) : Prop where
  permitted : AtEach Sending.step (Permitted cfg) none v.log
  stream : ∀ m, sending v.log = some m → m.Segmented cfg →
    ∃ xs, Stream cfg m.data.length m.frames xs ∧ xs.flatten <+: m.data ∧
      (v.flow.state ≠ .idle → xs.flatten.length + v.flow.remainingData = m.data.length)
  ended : v.flow.state = .idle → ∀ m, sending v.log = some m → m.callbacks.length ≤ 1
  active : v.flow.state ≠ .idle → ∃ m buf, Active cfg v m buf

/-- A prefix, and the bytes that come next -/
theorem prefix_extend {α : Type*} {l d : List α} (h : l <+: d) (n : Nat) :
    l ++ (d.drop l.length).take n <+: d := by
  obtain ⟨t, rfl⟩ := h
  rw [List.drop_left]
  exact (List.prefix_append_right_inj l).mpr (List.take_prefix n t)

namespace Sends

open Node

variable {cfg : Config} {s : Node} {p : Nat} {e : Event} {v v' w : View} {m : Sending}
  {buf : LwcanBuffer}

theorem initial : Sends cfg View.initial :=
  ⟨trivial, by rintro _ ⟨⟩, by rintro _ _ ⟨⟩, fun h => absurd rfl h⟩

/-- Filling a frame changes `remaining_data` only. -/
theorem isotpFill_flow {b : Option LwcanBuffer} {fl : IsotpFlow} {f : CanFrame}
    {filled : IsotpFlow × CanFrame} {n : Nat} (h : isotpFill cfg b fl f = some (filled, n)) :
    filled.1 = { fl with remainingData := filled.1.remainingData } := by
  unfold isotpFill at h
  split at h
  · cases h
    rfl
  · cases h
    rfl
  · cases h
    unfold isotpFillCf
    simp only
    split <;> rfl
  · cases h

/-- **The first frame** of a message: nothing was handed over before. -/
theorem firstFrame (h : Sends cfg v) (ha : Active cfg v m buf) (ht : 0 < v.tx)
    (hs : v.flow.state = .txFf) {f : CanFrame} {filled : IsotpFlow × CanFrame} {n : Nat}
    (hfl : isotpFill cfg v.headBuffer v.flow f = some (filled, n)) :
    m.frames = [] ∧ v.flow.remainingData = m.data.length ∧
      filled.1.remainingData = m.data.length - ffMax cfg ∧
      filled.2.wire = ffHeader cfg m.data.length ++ m.data.take (ffMax cfg) := by
  have hseg : m.Segmented cfg := ha.segmented.mp (by rw [hs]; decide)
  have hpos := ha.position
  unfold Position at hpos
  rw [hs] at hpos
  -- the frame is still due, so it is the first
  have hnil : m.frames = [] := hpos.2.1 ht
  obtain ⟨xs, hxs, -, hsize⟩ := h.stream m ha.current hseg
  obtain rfl := hxs.eq_nil hnil
  have hrem : v.flow.remainingData = m.data.length := by
    simpa using hsize (by rw [hs]; decide)
  have hlt := ffMax_lt_sfMax cfg
  unfold Sending.Segmented at hseg
  -- `isotp_fill_ff` copies from the front of the buffer, which holds the message
  obtain ⟨h₁, h₂⟩ := isotpFillFf_eq cfg buf v.flow f
    (by rw [hrem]; exact hseg) (by rw [hrem]; exact ha.length)
  simp only [isotpFill, hs, ha.head, Option.some.injEq, Prod.mk.injEq] at hfl
  obtain ⟨rfl, -⟩ := hfl
  refine ⟨hnil, hrem, by rw [h₁, hrem], ?_⟩
  have hlen : m.data.length = buf.length := by
    rw [← ha.bytes, LwcanBuffer.bytes, Mem.length_slice]
  rw [h₂, hrem, ← ha.bytes, LwcanBuffer.bytes, Mem.take_slice _ _ (by omega), Mem.length_slice]

/-- **A consecutive frame**: the bytes after those handed over. -/
theorem consecutiveFrame (h : Sends cfg v) (ha : Active cfg v m buf) (ht : 0 < v.tx)
    (hs : v.flow.state = .txCf) {f : CanFrame} {filled : IsotpFlow × CanFrame} {n : Nat}
    (hfl : isotpFill cfg v.headBuffer v.flow f = some (filled, n)) :
    v.flow.remainingData ≠ 0 ∧ v.flow.remainingData ≤ m.data.length ∧
      filled.1.remainingData = v.flow.remainingData - cfMax cfg v.flow.remainingData ∧
      filled.2.wire = cfHeader v.flow.cfSn ::
        ((m.data.drop (m.data.length - v.flow.remainingData)).take
          (cfMax cfg v.flow.remainingData) ++
          List.replicate (dataFrameLen cfg v.flow.remainingData - cfDataOffset -
            cfMax cfg v.flow.remainingData) cfg.paddingByte) := by
  have hseg : m.Segmented cfg := ha.segmented.mp (by rw [hs]; decide)
  have hpos := ha.position
  unfold Position at hpos
  rw [hs] at hpos
  obtain ⟨-, -, hrem⟩ := hpos.2.1 ht
  obtain ⟨xs, -, -, hsize⟩ := h.stream m ha.current hseg
  have hsize := hsize (by rw [hs]; decide)
  have hlen : m.data.length = buf.length := by
    rw [← ha.bytes, LwcanBuffer.bytes, Mem.length_slice]
  -- `remaining_data` is what the frames before have left
  have hle : v.flow.remainingData ≤ buf.length := by omega
  have hmax := cfMax_le cfg v.flow.remainingData
  obtain ⟨h₁, h₂⟩ := isotpFillCf_eq cfg buf v.flow f hle
    (by rw [← hlen]; exact ha.length)
  simp only [isotpFill, hs, ha.head, Option.some.injEq, Prod.mk.injEq] at hfl
  obtain ⟨rfl, -⟩ := hfl
  refine ⟨hrem, by omega, by rw [h₁], ?_⟩
  -- it copies from where they stopped
  rw [h₂, ← ha.bytes, LwcanBuffer.bytes, Mem.length_slice, Mem.drop_slice _ _ (by omega),
    Mem.take_slice _ _ (by omega), Nat.zero_add]

/-- **The next frame** continues the message. -/
theorem handOver (h : Sends cfg v) (ha : Active cfg v m buf) (ht : 0 < v.tx) {f : CanFrame}
    {filled : IsotpFlow × CanFrame} {n : Nat}
    (hfl : isotpFill cfg v.headBuffer v.flow f = some (filled, n)) (hm : m.Segmented cfg) :
    (m.frames ≠ [] → m.ready) ∧
      (v.flow.state = .txFf → m.frames = [] ∧ filled.1.remainingData ≠ 0) ∧
      ∃ xs, Stream cfg m.data.length (m.frames ++ [filled.2.wire]) xs ∧ xs.flatten <+: m.data ∧
        xs.flatten.length + filled.1.remainingData = m.data.length := by
  have hpos := ha.position
  have hni : v.flow.state ≠ .idle := by
    intro hs
    simp [isotpFill, hs] at hfl
  obtain ⟨xs, hxs, hpre, hsize⟩ := h.stream m ha.current hm
  have hsize := hsize hni
  have hlt := ffMax_lt_sfMax cfg
  have hgt := ffMax_pos cfg
  unfold Sending.Segmented at hm
  unfold Position at hpos
  cases hs : v.flow.state with
  | txSf => exact absurd hs (ha.segmented.mpr hm)
  -- nothing is filled in these states
  | idle | txFc | waitCf | waitFc => simp [isotpFill, hs] at hfl
  | txFf =>
    obtain ⟨hnil, -, hrem, hwire⟩ := h.firstFrame ha ht hs hfl
    -- the first frame is full, since the message is longer
    have hxl : (m.data.take (ffMax cfg)).length = ffMax cfg := by
      rw [List.length_take]
      omega
    rw [hnil, hrem, hwire]
    refine ⟨fun hne => absurd rfl hne, fun _ => ⟨rfl, by omega⟩, [m.data.take (ffMax cfg)],
      .ff _ (List.ne_nil_of_length_pos (by omega)), ?_, ?_⟩
    · simpa using List.take_prefix _ _
    · simp only [List.flatten_cons, List.flatten_nil, List.append_nil, hxl]
      omega
  | txCf =>
    rw [hs] at hpos
    obtain ⟨hready, hdue, -⟩ := hpos
    obtain ⟨hsn, hne, -⟩ := hdue ht
    obtain ⟨hrem, hle, hrem', hwire⟩ := h.consecutiveFrame ha ht hs hfl
    have hmax := cfMax_le cfg v.flow.remainingData
    have hpos' := cfMax_pos cfg hrem
    -- there is something left, and this frame takes as much of it as it has room for
    have hxl : ((m.data.drop xs.flatten.length).take (cfMax cfg v.flow.remainingData)).length =
        cfMax cfg v.flow.remainingData := by
      rw [List.length_take, List.length_drop]
      omega
    rw [hrem', hwire, hsn, show m.data.length - v.flow.remainingData = xs.flatten.length by omega]
    refine ⟨fun _ => hready, by rintro ⟨⟩, _,
      hxs.cf hne _ (List.ne_nil_of_length_pos (by omega)) _, ?_, ?_⟩
    · rw [List.flatten_append]
      simpa using prefix_extend hpre _
    · simp only [List.flatten_append, List.length_append, List.flatten_cons, List.flatten_nil,
        List.append_nil, hxl]
      omega

/-- The frames handed over carry a prefix of the message. -/
theorem stream_prefix (h : Sends cfg v) (hcur : sending v.log = some m) (hm : m.Segmented cfg) :
    ∃ xs, Stream cfg m.data.length m.frames xs ∧ xs.flatten <+: m.data := by
  obtain ⟨xs, h₁, h₂, -⟩ := h.stream m hcur hm
  exact ⟨xs, h₁, h₂⟩

/-! ### Reaching a state -/

/-- A transition within a message -/
theorem of_active (m : Sending) (buf : LwcanBuffer)
    (hp : AtEach Sending.step (Permitted cfg) none w.log) (ha : Active cfg w m buf)
    (hs : w.flow.state ≠ .idle)
    (hstream : m.Segmented cfg → ∃ xs, Stream cfg m.data.length m.frames xs ∧
      xs.flatten <+: m.data ∧ xs.flatten.length + w.flow.remainingData = m.data.length) :
    Sends cfg w := by
  refine ⟨hp, fun m' hm' hseg => ?_, fun h => absurd h hs, fun _ => ⟨m, buf, ha⟩⟩
  rw [ha.current] at hm'
  cases hm'
  obtain ⟨xs, h₁, h₂, h₃⟩ := hstream hseg
  exact ⟨xs, h₁, h₂, fun _ => h₃⟩

/-- A transition that ends the message -/
theorem finish (h : Sends cfg v) (hcur : sending v.log = some m) {l : List Obs} {n : Sending}
    (hl : w.log = v.log ++ l) (hs : w.flow.state = .idle)
    (hp : AtEach Sending.step (Permitted cfg) (some m) l)
    (hm : l.foldl Sending.step (some m) = some n) (hcb : n.callbacks.length ≤ 1)
    (hstream : n.Segmented cfg →
      ∃ xs, Stream cfg n.data.length n.frames xs ∧ xs.flatten <+: n.data) : Sends cfg w := by
  have hcur' : sending w.log = some n := by rw [hl, sending_append, hcur, hm]
  refine ⟨?_, fun m₁ hm₁ hseg => ?_, fun _ m₁ hm₁ => ?_, fun hni => absurd hs hni⟩
  · rw [hl]
    refine AtEach.append.mpr ⟨h.permitted, ?_⟩
    change AtEach _ _ (sending v.log) l
    rwa [hcur]
  · -- what the log says now is the message with the new entries
    rw [hcur'] at hm₁
    cases hm₁
    obtain ⟨xs, h₁, h₂⟩ := hstream hseg
    exact ⟨xs, h₁, h₂, fun hni => absurd hs hni⟩
  · rw [hcur'] at hm₁
    cases hm₁
    exact hcb

/-- A transition that changes neither the flow nor its buffers nor its log -/
theorem same (h : Sends cfg v) (hl : w.log = v.log) (hf : w.flow = v.flow) (hc : w.chain = v.chain)
    (ht : w.tx ≤ v.tx) (hco : w.confirms ≤ v.confirms) : Sends cfg w := by
  refine
    ⟨by rw [hl]; exact h.permitted, by rw [hl, hf]; exact h.stream, by rw [hl, hf]; exact h.ended,
    fun hs => ?_⟩
  obtain ⟨m, buf, ha⟩ := h.active (by rwa [← hf])
  refine ⟨m, buf, by rw [hl]; exact ha.current, ?_, ha.bytes, ha.length, ha.silent, ha.taken,
    by rw [hf]; exact ha.segmented, by rw [hf]; exact ha.waits, ?_⟩
  · rw [← ha.head, View.headBuffer, View.headBuffer, hc]
  · have hpos := ha.position
    unfold Position at hpos ⊢
    rw [hf]
    split
    · next hst =>
      rw [hst] at hpos
      exact ⟨hpos.1, fun h => hpos.2.1 (by omega), fun h => hpos.2.2 (by omega)⟩
    · next hst =>
      rw [hst] at hpos
      exact hpos
    · next hst =>
      rw [hst] at hpos
      exact ⟨hpos.1, fun h => hpos.2.1 (by omega), fun h => hpos.2.2 (by omega)⟩
    · trivial

/-- An entry of the log that is not a frame is always permitted. -/
theorem permitted_emit (h : AtEach Sending.step (Permitted cfg) none v.log) {o : Obs}
    (ho : ∀ k c i w t r, o ≠ .output k c i w t r) :
    AtEach Sending.step (Permitted cfg) none (v.log ++ [o]) :=
  AtEach.append.mpr ⟨h, fun k c i w t r he => absurd he (ho k c i w t r), trivial⟩

/-- **The error paths** end the message, with no more than the error callback. -/
theorem giveUp (h : Sends cfg v) (hcur : sending v.log = some m) {l : List Obs} {n : Sending}
    {k : FlowId} {b : Option Nat} {c : Bool} {arg : Ptr} {err : Lwcanerr}
    (hl : w.log = v.log ++ (l ++ .dropped k b :: if c then [.error k arg err] else []))
    (hs : w.flow.state = .idle) (hp : AtEach Sending.step (Permitted cfg) (some m) l)
    (hm : l.foldl Sending.step (some m) = some n) (hcb : n.callbacks = [])
    (hstream : n.Segmented cfg →
      ∃ xs, Stream cfg n.data.length n.frames xs ∧ xs.flatten <+: n.data) : Sends cfg w := by
  -- neither entry is a frame
  have hquiet : ∀ cur, AtEach Sending.step (Permitted cfg) cur
      (.dropped k b :: if c then [.error k arg err] else []) := fun cur => by
    refine ⟨by rintro _ _ _ _ _ _ ⟨⟩, AtEach.of_forall fun o ho cur k c i w t r he => ?_⟩
    subst he
    split at ho
    · cases List.mem_singleton.mp ho
    · cases ho
  cases c with
  | true =>
    exact h.finish hcur (n := { n with callbacks := n.callbacks ++ [.error k arg err] }) hl hs
      (AtEach.append.mpr ⟨hp, hquiet _⟩) (by rw [List.foldl_append, hm]; rfl)
      (by simp [hcb]) hstream
  | false =>
    exact h.finish hcur hl hs (AtEach.append.mpr ⟨hp, hquiet _⟩)
      (by rw [List.foldl_append, hm]; rfl) (by simp [hcb]) hstream

/-! ### Transitions -/

/-- **The confirmation of a frame** -/
theorem outputSwitch (h : Sends cfg v) (hb : AtMostOne v) (hc : 0 < v.confirms) {pcb : IsotpPcb}
    {slot : Bool} (hw : OutputSwitch pcb p slot { v with confirms := v.confirms - 1 } v') :
    Sends cfg v' := by
  obtain ⟨h₁, h₂, h₃, h₄, hsends⟩ := hb.of_confirms_pos hc
  have hni : v.flow.state ≠ .idle := by
    intro hs
    rw [hs] at hsends
    cases hsends
  obtain ⟨m, buf, ha⟩ := h.active hni
  have hpos := ha.position
  unfold Position at hpos
  -- the confirmation changes nothing of what was handed over
  have hstream : v.flow.state ≠ .txSf → ∃ xs, Stream cfg m.data.length m.frames xs ∧
      xs.flatten <+: m.data ∧ xs.flatten.length + v.flow.remainingData = m.data.length :=
    fun hseg => by
      obtain ⟨xs, h₁, h₂, h₃⟩ := h.stream m ha.current (ha.segmented.mp hseg)
      exact ⟨xs, h₁, h₂, h₃ hni⟩
  cases hw with
  | skip => exact h.same rfl rfl rfl le_rfl (Nat.sub_le ..)
  | complete =>
    unfold View.emitIf
    split
    · exact h.finish ha.current rfl rfl ⟨by rintro _ _ _ _ _ _ ⟨⟩, trivial⟩ rfl
        (by simp [ha.silent]) (h.stream_prefix (m := m) ha.current)
    · exact h.finish ha.current (List.append_nil _).symm rfl trivial rfl (by simp [ha.silent])
        (h.stream_prefix (m := m) ha.current)
  | ff hs =>
    -- `sent_ff`: the next frame bears the number one, and flow control comes first
    change v.flow.state = .txFf at hs
    rw [hs] at hpos
    obtain ⟨hsn, -, hone⟩ := hpos
    obtain ⟨hlen, hrem⟩ := hone hc
    have hseg : v.flow.state ≠ .txSf := by rw [hs]; decide
    refine of_active { m with ready := false } buf
      (permitted_emit h.permitted (by rintro _ _ _ _ _ _ ⟨⟩)) ?_ (by rintro ⟨⟩)
      fun _ => hstream hseg
    refine ⟨?_, ha.head, ha.bytes, ha.length, ha.silent, ha.taken,
      iff_of_true (by rintro ⟨⟩) (ha.segmented.mp hseg), fun _ => ha.waits hseg, ?_, ?_, hrem⟩
    · show sending (v.log ++ [_]) = _
      rw [sending_append, ha.current]
      rfl
    · show v.flow.cfSn = m.frames.length % 16
      rw [hsn, hlen]
    · show m.frames ≠ []
      exact List.ne_nil_of_length_pos (by omega)
  | cf hs hr hopen =>
    -- `sent_cf` within a block: the next frame is due at once
    change v.flow.state = .txCf at hs
    rw [hs] at hpos
    obtain ⟨hready, -, hlast⟩ := hpos
    obtain ⟨hsn, hlen⟩ := hlast hc
    have hseg : v.flow.state ≠ .txSf := by rw [hs]; decide
    refine of_active m buf h.permitted ?_ (by rintro ⟨⟩)
      fun _ => hstream hseg
    refine ⟨ha.current, ha.head, ha.bytes, ha.length, ha.silent, ha.taken,
      iff_of_true (by rintro ⟨⟩) (ha.segmented.mp hseg), fun _ => ha.waits hseg, hready,
      fun _ => ⟨?_, List.ne_nil_of_length_pos (by omega), hr⟩, fun hpos => ?_⟩
    · show nextSn v.flow.cfSn = _
      rw [hsn, nextSn_mod]
      congr 1
      omega
    · change 0 < v.confirms - 1 at hpos
      omega
  | block hs hr hclosed =>
    change v.flow.state = .txCf at hs
    rw [hs] at hpos
    obtain ⟨hready, -, hlast⟩ := hpos
    obtain ⟨hsn, hlen⟩ := hlast hc
    have hseg : v.flow.state ≠ .txSf := by rw [hs]; decide
    refine of_active { m with ready := false } buf
      (permitted_emit h.permitted (by rintro _ _ _ _ _ _ ⟨⟩)) ?_ (by rintro ⟨⟩)
      fun _ => hstream hseg
    refine ⟨?_, ha.head, ha.bytes, ha.length, ha.silent, ha.taken,
      iff_of_true (by rintro ⟨⟩) (ha.segmented.mp hseg), fun _ => ha.waits hseg, ?_,
      List.ne_nil_of_length_pos (by show 0 < m.frames.length; omega), hr⟩
    · show sending (v.log ++ [_]) = _
      rw [sending_append, ha.current]
      rfl
    · show nextSn v.flow.cfSn = m.frames.length % 16
      rw [hsn, nextSn_mod]
      congr 1
      omega

/-- **A message accepted** for sending -/
theorem sendMessage (h : Sends cfg v) (hb : AtMostOne v) (hs : v.flow.state = .idle)
    {d : List UInt8} {b : Nat} (hl : d.length < 4294967296) (hbb : buf.bytes = d) (slot : Bool) :
    Sends cfg ((({ v with
      flow := View.sendFlow cfg v.flow b d
      chain := (b, buf) :: v.chain }.emit (.send p d)).armOutput slot)) := by
  obtain ⟨-, -, hconf⟩ := hb.of_idle hs
  have hcur : sending (v.log ++ [.send p d]) = some ⟨d, [], true, false, 0, []⟩ := by
    rw [sending_append]
    rfl
  have hperm := permitted_emit h.permitted (o := .send p d) (by rintro _ _ _ _ _ _ ⟨⟩)
  by_cases hlong : sfMax cfg < d.length
  · rw [View.sendFlow, if_pos hlong]
    refine of_active _ buf hperm
      ⟨hcur, rfl, hbb, hl, rfl, rfl, iff_of_true (by rintro ⟨⟩) hlong,
        fun _ => Nat.zero_add _, ⟨rfl, fun _ => rfl, fun hc => ?_⟩⟩ (by rintro ⟨⟩)
        fun _ => ⟨[], .nil, List.nil_prefix, Nat.zero_add _⟩
    exact absurd hconf (Nat.pos_iff_ne_zero.mp hc)
  · rw [View.sendFlow, if_neg hlong]
    exact of_active _ buf hperm
      ⟨hcur, rfl, hbb, hl, rfl, rfl, iff_of_false (fun h => h rfl) hlong,
        fun h => absurd rfl h, trivial⟩ (by rintro ⟨⟩) fun hseg => absurd hseg hlong

/-- **The place after a frame**: the frame that was due is the one handed over last. -/
theorem position_output (h : Sends cfg v) (hb : AtMostOne v) (ha : Active cfg v m buf)
    (ht : 0 < v.tx) {f : CanFrame} {filled : IsotpFlow × CanFrame} {n : Nat}
    (hfl : isotpFill cfg v.headBuffer v.flow f = some (filled, n))
    (hf : w.flow = { v.flow with remainingData := filled.1.remainingData }) (hw : w.tx = v.tx - 1) :
    Position w { m with frames := m.frames ++ [filled.2.wire], taken := m.taken && true } := by
  obtain ⟨htx, -, -, -, hsends⟩ := hb.of_tx_pos ht
  have hnt : ¬ 0 < w.tx := by omega
  have hstate : w.flow.state = v.flow.state := by rw [hf]
  have hpos := ha.position
  have hseg : v.flow.state ≠ .txSf → m.Segmented cfg := ha.segmented.mp
  unfold Position at hpos ⊢
  rw [hstate, hf]
  cases hs : v.flow.state with
  | txFf =>
    rw [hs] at hpos hseg
    -- the first frame was due, so it is the only one, and it left something
    obtain ⟨-, hff, -⟩ := h.handOver ha ht hfl (hseg (by decide))
    obtain ⟨hnil, hrem⟩ := hff hs
    exact ⟨hpos.1, fun hc => absurd hc hnt, fun _ => ⟨by simp [hnil], hrem⟩⟩
  | waitFc =>
    -- no frame is due while flow control is awaited
    rw [hs] at hsends
    cases hsends
  | txCf =>
    rw [hs] at hpos
    obtain ⟨hready, hdue, -⟩ := hpos
    obtain ⟨hsn, hne, -⟩ := hdue ht
    -- a consecutive frame is the second at least, with the number that was due
    have hlen := List.length_pos_of_ne_nil hne
    refine ⟨hready, fun hc => absurd hc hnt, fun _ => ⟨by simpa using hsn, ?_⟩⟩
    show 2 ≤ (m.frames ++ [filled.2.wire]).length
    rw [List.length_append, List.length_singleton]
    omega
  | idle | txSf | txFc | waitCf => trivial

/-- **A frame handed over** that the driver accepts -/
theorem output (h : Sends cfg v) (hb : AtMostOne v) (ht : 0 < v.tx) {f : CanFrame}
    {filled : IsotpFlow × CanFrame} {n canif : Nat}
    (hfl : isotpFill cfg v.headBuffer v.flow f = some (filled, n)) :
    Sends cfg (({ v with tx := v.tx - 1 }.setFlow filled.1).accepted (p, .output) canif filled.2
      n) := by
  obtain ⟨-, -, -, -, hsends⟩ := hb.of_tx_pos ht
  obtain ⟨m, buf, ha⟩ := h.active (ne_idle_of_sends hsends)
  have hflow := isotpFill_flow hfl
  refine of_active { m with frames := m.frames ++ [filled.2.wire], taken := m.taken && true }
    buf ?_ ?_ ?_ fun hseg => ?_
  · -- the peer has allowed it, or it is the first
    refine AtEach.append.mpr ⟨h.permitted, fun k c i w t r he => ?_, trivial⟩
    exact ⟨m, ha.current, fun hseg => (h.handOver ha ht hfl hseg).1⟩
  · refine ⟨?_, ha.head, ha.bytes, ha.length, ha.silent, by rw [ha.taken]; rfl, ?_, ?_,
      h.position_output hb ha ht hfl hflow rfl⟩
    · show sending (v.log ++ [_]) = _
      rw [sending_append, ha.current]
      rfl
    · show filled.1.state ≠ .txSf ↔ _
      rw [hflow]
      exact ha.segmented
    · show filled.1.state ≠ .txSf → m.waits + filled.1.nWft = _
      rw [hflow]
      exact ha.waits
  · show filled.1.state ≠ .idle
    rw [hflow]
    exact ne_idle_of_sends hsends
  · obtain ⟨-, -, xs, hxs, hpre, hsize⟩ := h.handOver ha ht hfl hseg
    exact ⟨xs, hxs, hpre, hsize⟩

/-- **A WAIT frame** counts down `n_wft`. -/
theorem waitFrame (h : Sends cfg v) (hs : v.flow.state = .waitFc) (hnw : v.flow.nWft ≠ 0)
    (bs st : Nat) (slot : Bool) :
    Sends cfg ((({ v with err := v.err - 1 }.emit (.flowControl p fsWait bs st)).setFlow
      { v.flow with fs := fsWait, nWft := u8 ((v.flow.nWft : Int) - 1) }).armError slot) := by
  obtain ⟨m, buf, ha⟩ := h.active (by rw [hs]; decide)
  have hseg : v.flow.state ≠ .txSf := by rw [hs]; decide
  have hpos := ha.position
  unfold Position at hpos
  rw [hs] at hpos
  have hw := ha.waits hseg
  obtain ⟨xs, hxs, hpre, hsize⟩ := h.stream m ha.current (ha.segmented.mp hseg)
  refine of_active { m with ready := false, waits := m.waits + 1 } buf
    (permitted_emit h.permitted (by rintro _ _ _ _ _ _ ⟨⟩)) ?_ ?_
    fun _ => ⟨xs, hxs, hpre, hsize (by rw [hs]; decide)⟩
  · refine ⟨?_, ha.head, ha.bytes, ha.length, ha.silent, ha.taken, ha.segmented, fun _ => ?_, ?_⟩
    · show sending (v.log ++ [_]) = _
      rw [sending_append, ha.current]
      rfl
    · -- the peer's count and the flow's run in opposite directions
      show m.waits + 1 + u8 ((v.flow.nWft : Int) - 1) = _
      have := u8_lt cfg.nWft
      rw [← hw]
      unfold u8
      omega
    · unfold Position
      show match v.flow.state with
        | .txFf => _ | .waitFc => _ | .txCf => _ | _ => _
      rw [hs]
      exact hpos
  · show v.flow.state ≠ .idle
    rw [hs]
    rintro ⟨⟩

/-- **A READY frame** allows consecutive frames. -/
theorem readyFrame (h : Sends cfg v) (hb : AtMostOne v) (hs : v.flow.state = .waitFc)
    (bs st : Nat) (slot : Bool) :
    Sends cfg ((({ v with err := v.err - 1 }.emit (.flowControl p fsReady bs st)).setFlow
      { v.flow with
        fs := fsReady
        bs := bs
        st := if stMsRangeMax < st then 1 else st
        state := .txCf }).armOutput slot) := by
  obtain ⟨m, buf, ha⟩ := h.active (by rw [hs]; decide)
  obtain ⟨-, -, hc, -⟩ := hb.of_waits (by rw [hs]; rfl)
  have hseg : v.flow.state ≠ .txSf := by rw [hs]; decide
  have hpos := ha.position
  unfold Position at hpos
  rw [hs] at hpos
  -- the frames sent so far carry the beginning of the message
  obtain ⟨xs, hxs, hpre, hsize⟩ := h.stream m ha.current (ha.segmented.mp hseg)
  refine of_active { m with ready := true } buf
    (permitted_emit h.permitted (by rintro _ _ _ _ _ _ ⟨⟩)) ?_ (by rintro ⟨⟩)
    fun _ => ⟨xs, hxs, hpre, hsize (by rw [hs]; decide)⟩
  refine ⟨?_, ha.head, ha.bytes, ha.length, ha.silent, ha.taken,
    iff_of_true (by rintro ⟨⟩) (ha.segmented.mp hseg), fun _ => ha.waits hseg, rfl,
    fun _ => hpos, fun hc' => ?_⟩
  · show sending (v.log ++ [_]) = _
    rw [sending_append, ha.current]
    rfl
  · change 0 < v.confirms at hc'
    omega

/-- **Every transition of an output flow** keeps to the message. -/
theorem step (hn : e ≠ .call .isotpNew) (hca : ConfirmsAccepted s e)
    (hb : AtMostOne (s.view (p, .output))) (h : Sends cfg (s.view (p, .output)))
    (hst : OutputStep cfg s p (s.view (p, .output)) e v') : Sends cfg v' := by
  cases hst with
  | send hs hd hl hg hb' hbl hbb => exact h.sendMessage hb hs hl hbb _
  | skip => exact h.same rfl rfl rfl (Nat.sub_le ..) le_rfl
  | output hf hcan ht hfl => exact h.output hb ht hfl
  | @reject f ret canif filled n hf hcan ht hfl hr =>
    obtain ⟨m, buf, ha⟩ := h.active (hb.ne_idle_of_tx ht)
    -- the frame that the driver refuses counts as handed over, but not as taken
    refine h.giveUp ha.current (n := { m with
      frames := m.frames ++ [filled.2.wire], taken := m.taken && decide (ret = .ok) })
      (l := [.output (p, .output) canif filled.2.canId filled.2.wire n ret])
      ((View.fail_log ..).trans (List.append_assoc _ _ _)) (View.fail_state ..)
      ⟨fun k c i w t r he => ⟨m, rfl, fun hseg => (h.handOver ha ht hfl hseg).1⟩, trivial⟩ rfl
      ha.silent fun hseg => ?_
    obtain ⟨-, -, xs, hxs, hpre, -⟩ := h.handOver ha ht hfl hseg
    exact ⟨xs, hxs, hpre⟩
  | expire hf herr =>
    obtain ⟨m, buf, ha⟩ := h.active (hb.ne_idle_of_err herr)
    exact h.giveUp ha.current (l := []) (View.fail_log ..)
      (View.fail_state ..) trivial rfl ha.silent (h.stream_prefix (m := m) ha.current)
  | confirm hsn hsw => exact h.outputSwitch hb (List.count_pos_iff.mpr hca) hsw
  | refuse hsn herr =>
    obtain ⟨m, buf, ha⟩ := h.active (hb.ne_idle_of_confirms (List.count_pos_iff.mpr hca))
    exact h.giveUp ha.current (l := []) (View.refused_log ..)
      (by rw [View.refused_flow]) trivial rfl ha.silent (h.stream_prefix (m := m) ha.current)
  | resume hsn hsw =>
    -- the flow was idle when the error callback was called, and nothing was sent inside it
    have hsi := hb.idle_of_suspended hsn rfl
    rw [hsw.eq_of_idle hsi]
    exact h.same rfl rfl rfl le_rfl le_rfl
  | wait hfind hs hf hnw => exact h.waitFrame hs hnw ..
  | @abort canif f g hfind hs hf hr =>
    obtain ⟨m, buf, ha⟩ := h.active (by rw [hs]; decide)
    exact h.giveUp ha.current
      (l := [.flowControl p (f.data 0 &&& 0x0F).toNat (f.data 1).toNat (f.data 2).toNat])
      ((View.fail_log ..).trans (List.append_assoc _ _ _)) (View.fail_state ..)
      ⟨by rintro _ _ _ _ _ _ ⟨⟩, trivial⟩ rfl ha.silent (h.stream_prefix (m := m) ha.current)
  | proceed hfind hs hf => exact h.readyFrame hb hs ..
  | new => exact absurd rfl hn

end Sends

namespace Node

variable {cfg : Config} {s s' : Node} {e : Event} {es : List Event} {p : Nat}

theorem sends_run (hr : Run cfg es s) (hk : RunAlong cfg KeepsPcbs es)
    (hc : RunAlong cfg ConfirmsAccepted es) (ho : RunAlong cfg SendsOutside es) :
    AtMostOne (s.view (p, .output)) ∧ Sends cfg (s.view (p, .output)) :=
  output_inv_confirmed p Sends.initial
    (fun _ hn hca _ _ hb hi hst => Sends.step hn hca hb hi hst) hr hk hc ho hc

/-- **All is sent**: the frames carry the whole message, the driver took every one of them, and `e`
is its confirmation of the last, after which it owes none. -/
structure AllSent (cfg : Config) (k : FlowId) (e : Event) (s' : Node) (m : Sending) : Prop where
  whole : ∃ xs, Stream cfg m.data.length m.frames xs ∧ xs.flatten = m.data
  taken : m.taken
  confirmed : e = .sent k .ok
  owed : s'.confirms.count k = 0

/-- The one callback a message ends with: the sent callback if all is sent, else the error callback;
none if it is not registered. -/
structure EndsWith (pcb : IsotpPcb) (p : Nat) (all : Prop) (m : Sending) : Prop where
  sent : all → m.callbacks = if pcb.sent then [.sent p pcb.callbackArg m.data.length] else []
  error : ¬ all →
    ∃ arg err, m.callbacks = if pcb.error then [.error (p, .output) arg err] else []

/-- A message given up ends with the error callback. -/
theorem endsWith_error {v v' : View} {m m' : Sending} {l : List Obs} {b : Option Nat} {arg : Ptr}
    {err : Lwcanerr} {pcb : IsotpPcb} (hcur : sending v.log = some m)
    (hl : v'.log = v.log ++ (l ++ .dropped (p, .output) b ::
      if pcb.error then [.error (p, .output) arg err] else []))
    (hm : l.foldl Sending.step (some m) = some m') (hcb : m'.callbacks = []) (hd : m'.data = m.data)
    (hall : ∀ m', ¬ AllSent cfg (p, .output) e s' m') :
    ∃ m', sending v'.log = some m' ∧ m'.data = m.data ∧
      EndsWith pcb p (AllSent cfg (p, .output) e s' m') m' := by
  refine ⟨{ m' with callbacks := if pcb.error then [.error (p, .output) arg err] else [] }, ?_, hd,
    fun h => absurd h (hall _), fun _ => ⟨arg, err, rfl⟩⟩
  rw [hl, sending_append, hcur, List.foldl_append, hm]
  obtain ⟨data, frames, taken, ready, waits, callbacks⟩ := m'
  cases hcb
  cases pcb.error <;> rfl

/-- **A message completed**: its frames carry it to the last byte, and the sent callback ends it. -/
theorem endsWith_sent {v : View} {m : Sending} {buf : LwcanBuffer} (h : Sends cfg v)
    (ha : Active cfg v m buf) (hseg : m.Segmented cfg)
    (hd : v.flow.state = .txSf ∨ v.flow.state = .txCf ∧ v.flow.remainingData = 0)
    (howed : s'.confirms.count (p, .output) = 0) (pcb : IsotpPcb) :
    ∃ m', sending (v.log ++ if pcb.sent then [.sent p pcb.callbackArg v.capacity] else []) =
      some m' ∧ m'.data = m.data ∧
      EndsWith pcb p (AllSent cfg (p, .output) (.sent (p, .output) .ok) s' m') m' := by
  have hsf : v.flow.state ≠ .txSf := ha.segmented.mpr hseg
  obtain ⟨hcf, hrem⟩ := hd.resolve_left hsf
  obtain ⟨xs, hxs, hpre, hsize⟩ := h.stream m ha.current hseg
  have hsize := hsize (by rw [hcf]; decide)
  have hcap : v.capacity = m.data.length := by
    rw [View.capacity, ha.head, Option.elim_some, ← ha.bytes, LwcanBuffer.bytes, Mem.length_slice]
  -- a prefix as long as the message is the message
  have hwhole : xs.flatten = m.data := hpre.eq_of_length (by omega)
  have hall : ∀ cb, AllSent cfg (p, .output) (.sent (p, .output) .ok) s'
      { m with callbacks := cb } := fun cb => ⟨⟨xs, hxs, hwhole⟩, ha.taken, rfl, howed⟩
  refine ⟨{ m with callbacks := if pcb.sent then
      [.sent p pcb.callbackArg m.data.length] else [] }, ?_, rfl, fun _ => rfl,
    fun hno => absurd (hall _) hno⟩
  rw [sending_append, ha.current]
  have hcb := ha.silent
  obtain ⟨data, frames, taken, ready, waits, callbacks⟩ := m
  cases hcb
  cases pcb.sent with
  | false => rfl
  | true =>
    simp only [if_true, List.foldl_cons, List.foldl_nil, Sending.step, Option.map_some,
      List.nil_append]
    exact congrArg _ (congrArg _ (congrArg (fun n => [Obs.sent p _ n]) hcap))

/-- **A step that ends a message** -/
theorem endsWith (hs : Sound s) (hu : Unused cfg s) (hb : AtMostOne (s.view (p, .output)))
    (h : Sends cfg (s.view (p, .output))) (hst : step cfg s e = some s')
    (hca : ConfirmsAccepted s e)
    {m : Sending} (hm : sending (s.logOf (p, .output)) = some m) (hseg : m.Segmented cfg)
    (hni : (s.flow (p, .output)).state ≠ .idle) (hi : (s'.flow (p, .output)).state = .idle) :
    ∃ m', sending (s'.logOf (p, .output)) = some m' ∧ m'.data = m.data ∧
      EndsWith (s.pcb p) p (AllSent cfg (p, .output) e s' m') m' := by
  obtain ⟨m₀, buf, ha⟩ := h.active hni
  obtain rfl : m₀ = m := Option.some.inj (ha.current.symm.trans hm)
  change ∃ m', sending (s'.view (p, .output)).log = some m' ∧ _
  rw [← view_flow] at hi
  have howed : s'.confirms.count (p, .output) = (s'.view (p, .output)).confirms := rfl
  have hnot : ∀ {e}, (∀ err, e ≠ .sent (p, .output) err) →
      ∀ m', ¬ AllSent cfg (p, .output) e s' m' := fun he m' hall => he _ hall.confirmed
  -- only a transition of the flow makes it idle, and few of them do
  rcases output_moves hs hu hst p with he | ⟨hn, hstep⟩
  · rw [he] at hi
    exact absurd hi hni
  generalize s'.view (p, .output) = v' at hi howed hstep ⊢
  cases hstep with
  | send hsi => exact absurd hsi hni
  | skip => exact absurd hi hni
  | output hf hcan ht hfl =>
    have hst' := isotpFill_state hfl
    exact absurd (hst'.symm.trans hi) hni
  | reject hf hcan ht hfl hr =>
    exact endsWith_error ha.current (l := [_]) ((View.fail_log ..).trans (List.append_assoc _ _ _))
      rfl ha.silent rfl (hnot (by rintro _ ⟨⟩))
  | expire hf herr =>
    exact endsWith_error ha.current (l := []) (View.fail_log ..) rfl ha.silent rfl
      (hnot (by rintro _ ⟨⟩))
  | confirm hsn hsw =>
    have hc : 0 < (s.view (p, .output)).confirms := List.count_pos_iff.mpr hca
    obtain ⟨h₁, -, -, -, -⟩ := hb.of_confirms_pos hc
    cases hsw with
    | skip => exact absurd hi hni
    | ff | cf | block => cases hi
    | complete hd =>
      have hzero : s'.confirms.count (p, .output) = 0 := by
        rw [howed, View.emitIf_confirms]
        show (s.view (p, .output)).confirms - 1 = 0
        omega
      obtain ⟨m', hm', hdata, hend⟩ := endsWith_sent h ha hseg hd hzero (s.pcb p)
      refine ⟨m', ?_, hdata, hend⟩
      rw [View.emitIf_log]
      exact hm'
  | refuse hsn herr =>
    exact endsWith_error ha.current (l := []) (View.refused_log ..) rfl ha.silent rfl
      fun m' hall => herr (by cases hall.confirmed; rfl)
  | resume hsn hsw =>
    exact absurd (hb.idle_of_suspended hsn rfl) hni
  | wait => exact absurd hi hni
  | abort hfind hs' hf hr =>
    exact endsWith_error ha.current (l := [_]) ((View.fail_log ..).trans (List.append_assoc _ _ _))
      rfl ha.silent rfl (hnot (by rintro _ ⟨⟩))
  | proceed => cases hi
  | new => exact absurd rfl hn

/-- **The sender keeps to the message**, whatever its peer, its driver and time do. What it hands
over is a first frame and consecutive frames, numbered from 1 modulo 16, that carry the message from
front to back without a gap; no consecutive frame goes out before the peer has allowed it; no more
than `N_WFT` WAIT frames are put up with; and a message ends with one callback, the sent callback if
and only if all of it was sent. -/
theorem sends_safely (hr : Run cfg es s) (hk : RunAlong cfg KeepsPcbs es)
    (hc : RunAlong cfg ConfirmsAccepted es) (ho : RunAlong cfg SendsOutside es) :
    (∀ l₁ canif id w t ret l₂,
      s.logOf (p, .output) = l₁ ++ .output (p, .output) canif id w t ret :: l₂ →
        ∃ m ∈ sending l₁, m.Segmented cfg → m.frames ≠ [] → m.ready) ∧
    ∀ m ∈ sending (s.logOf (p, .output)), m.Segmented cfg →
      (∃ xs, Stream cfg m.data.length m.frames xs ∧ xs.flatten <+: m.data) ∧
      ((s.flow (p, .output)).state ≠ .idle → m.waits ≤ cfg.nWft ∧ m.callbacks = []) ∧
      m.callbacks.length ≤ 1 ∧
      ∀ e s', step cfg s e = some s' → ConfirmsAccepted s e →
        (s.flow (p, .output)).state ≠ .idle → (s'.flow (p, .output)).state = .idle →
        ∃ m', sending (s'.logOf (p, .output)) = some m' ∧ m'.data = m.data ∧
          EndsWith (s.pcb p) p (AllSent cfg (p, .output) e s' m') m' := by
  obtain ⟨hsound, hu⟩ := kept_run hr hk
  obtain ⟨hb, h⟩ := sends_run (p := p) hr hk hc ho
  refine ⟨fun l₁ canif id w t ret l₂ hl => ?_, fun m hm hseg => ⟨?_, fun hni => ?_, ?_,
    fun e s' hst hca hni hi => endsWith hsound hu hb h hst hca hm hseg hni hi⟩⟩
  · have hp := h.permitted
    change AtEach Sending.step (Permitted cfg) none (s.logOf (p, .output)) at hp
    rw [hl] at hp
    exact hp.of_split _ _ _ _ _ _ rfl
  · exact h.stream_prefix hm hseg
  · obtain ⟨m₀, buf, ha⟩ := h.active hni
    obtain rfl : m₀ = m := Option.some.inj (ha.current.symm.trans hm)
    have hw := ha.waits (ha.segmented.mpr hseg)
    -- `n_wft` is one byte wide, so `N_WFT` may be cut, never raised
    have hle : u8 (cfg.nWft : Int) ≤ cfg.nWft := by
      unfold u8
      omega
    exact ⟨by omega, ha.silent⟩
  · by_cases hi : (s.flow (p, .output)).state = .idle
    · exact h.ended hi m hm
    · obtain ⟨m₀, buf, ha⟩ := h.active hi
      obtain rfl : m₀ = m := Option.some.inj (ha.current.symm.trans hm)
      simp [ha.silent]

/-- Eight bytes need a first frame and a consecutive frame. -/
def eightBytes : List UInt8 := [1, 2, 3, 4, 5, 6, 7, 8]

/-- The peer's flow control: READY, no block size, no separation time -/
def readyFrame : CanFrame := ⟨0x7E8, 8, 0, fun i => [0x30, 0, 0].getD i 0xAA⟩

/-- A connection that has handed over the last frame of a message of eight bytes -/
def lastHandedOver : List Event := connected ++
  [.call (.isotpSetCallbacks 0 false false true true),
    .call (.isotpSend (some 0) (some eightBytes) ⟨some 1, some 2, fun _ => 0⟩),
    .timer ⟨0, 0, 0, fun _ => 0⟩ .ok, .sent (0, .output) .ok,
    .input 0 readyFrame ⟨none, none, fun _ => 0⟩, .timer ⟨0, 0, 0, fun _ => 0⟩ .ok]

end Node
end Lwcan
