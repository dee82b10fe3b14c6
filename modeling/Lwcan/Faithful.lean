import Lwcan.Messages
import Lwcan.Reassembly

/-!
# Reassembly is faithful

In the classic format every first frame carries six bytes and every consecutive frame seven, and a
message under reassembly is what its frames carried so far. Frames may be lost, repeated, reordered
or belong to another message: a message is handed over only if its consecutive frames came in
sequence, and then it is as many bytes as its first frame announced, the first that they carried.

* `Assembling` — the message under reassembly, its buffer, and what the log says of its frames.
* `Faithful` — what was handed over so far, and that every message under reassembly is `Assembling`.
* `reassembly_faithful` — every multi-frame message handed over is whole, is handed over once, and
  has seen no frame out of sequence.
-/

namespace Lwcan

open Monitor

/-- What is handed over is the current message, and whole if it is segmented. -/
def HandsOverWhole (cfg : Config) (cur : Option Message) (o : Obs) : Prop :=
  ∀ p arg b bytes, o = .receive p arg b bytes →
    ∃ m ∈ cur, b = m.buffer ∧ (isFf m.opened → m.Whole cfg bytes)

theorem HandsOverWhole.of_neutral {cfg : Config} {o : Obs} (h : o.neutral) (cur : Option Message) :
    HandsOverWhole cfg cur o := by
  intro p arg b bytes he
  subst he
  cases h

/-- A frame that may open a segmented message -/
structure Opens (cfg : Config) (frame : CanFrame) (n : Nat) : Prop where
  len : frame.len = 8
  ff : frame.data 0 &&& frameTypeMask = ffType
  announced : n = isotpGetFfDl cfg frame.data
  long : 8 ≤ n

/-- What a suspended function relies on when it is resumed -/
def Suspended.Opens (cfg : Config) (fs : Nat) : Suspended → Prop
  | .receivedFf _ frame _ n => Lwcan.Opens cfg frame n
  | .receivedFfOutput _ => fs ≠ fsReady
  | .isotpSent _ => True

/-- **Under reassembly.** The buffer at the head of the flow begins with what the frames of the
current message carried, the rest is missing, and the sequence number expected is the next. -/
structure Assembling (cfg : Config) (v : View) (m : Message) (buf : LwcanBuffer) : Prop where
  current : current v.log = some m
  head : v.chain.head? = some (m.buffer, buf)
  ff : isFf m.opened
  announced : buf.length = m.announced cfg
  size : m.payload.length + v.flow.remainingData = buf.length
  missing : v.flow.remainingData ≠ 0
  bytes : Mem.slice buf.data 0 m.payload.length = m.payload
  next : v.flow.cfSn = (m.consecutive.length + 1) % 16
  sequence : ∀ i (h : i < m.consecutive.length), wireSn m.consecutive[i] = (i + 1) % 16

/-- **Faithful.** What was handed over was whole, and what is under reassembly is on the way
there. -/
structure Faithful (cfg : Config) (v : View) : Prop where
  handedOver : AtEach Message.step (HandsOverWhole cfg) none v.log
  message : v.flow.reassembling → ∃ m buf, Assembling cfg v m buf
  suspended : ∀ f, v.suspended = some f → f.Opens cfg v.flow.fs

/-- The current message with one more frame -/
def Message.add (m : Message) (w : List UInt8) : Message :=
  { m with consecutive := m.consecutive ++ [w] }

/-- A full consecutive frame carries seven bytes. -/
theorem Message.payload_add (m : Message) {frame : CanFrame} (hlen : frame.len = 8) :
    (m.add frame.wire).payload = m.payload ++ Mem.slice frame.data 1 7 := by
  have hd : frame.wire.drop cfDataOffset = Mem.slice frame.data 1 7 := by
    rw [CanFrame.wire, hlen]
    exact Mem.drop_slice _ _ (by decide)
  simp [Message.add, Message.payload, List.flatMap_append, hd]

/-- The sequence numbers go on with that of the new frame. -/
theorem Message.sequence_add (m : Message) {frame : CanFrame} (hlen : 0 < frame.len)
    (h : ∀ i (hi : i < m.consecutive.length), wireSn m.consecutive[i] = (i + 1) % 16)
    (hnext : (frame.data 0 &&& 0x0F).toNat = (m.consecutive.length + 1) % 16) :
    ∀ i (hi : i < (m.add frame.wire).consecutive.length),
      wireSn (m.add frame.wire).consecutive[i] = (i + 1) % 16 := by
  intro i hi
  rcases Nat.lt_or_ge i m.consecutive.length with hlt | hge
  · simp only [Message.add, List.getElem_append_left hlt]
    exact h i hlt
  · have hi' : i = m.consecutive.length := by
      simp only [Message.add, List.length_append, List.length_singleton] at hi
      omega
    subst hi'
    simp only [Message.add, List.getElem_concat_length]
    rw [wireSn, wireData_wire hlen]
    exact hnext

/-- **A consecutive frame in sequence** adds the seven bytes it carries, or what is missing. -/
theorem Assembling.consecutive {cfg : Config} {p : Nat} {v w : View} {m : Message}
    {buf : LwcanBuffer} (h : Assembling cfg v m buf) {frame : CanFrame} (hlen : frame.len = 8)
    (hsn : v.flow.cfSn = (frame.data 0 &&& 0x0F).toNat)
    (hw : w = (({ v with err := v.err - 1 } : View).emit (.consecutive p frame.wire)).storeCf p
      frame.data frame.len) :
    ∃ buf', w.chain.head? = some (m.buffer, buf') ∧ buf'.length = buf.length ∧
      w.flow.remainingData = v.flow.remainingData - 7 ∧
      Lwcan.current w.log = some (m.add frame.wire) ∧
      (m.add frame.wire).payload = m.payload ++ Mem.slice frame.data 1 7 ∧
      Mem.slice buf'.data 0 (m.payload.length + min v.flow.remainingData 7) =
        m.payload ++ Mem.slice frame.data 1 (min v.flow.remainingData 7) ∧
      ∀ i (hi : i < (m.add frame.wire).consecutive.length),
        wireSn (m.add frame.wire).consecutive[i] = (i + 1) % 16 := by
  obtain ⟨rest, hc⟩ := List.head?_eq_some_iff.mp h.head
  have hsize := h.size
  have hl : buf.length < 4294967296 := by
    rw [h.announced]
    exact lt_trans (isotpGetFfDl_lt cfg _) (by decide)
  have hcount : View.cfCount v.flow.remainingData frame.len = min v.flow.remainingData 7 := by
    rw [View.cfCount_eq (by omega) (by omega), hlen]
  have hc' : (({ v with err := v.err - 1 } : View).emit (.consecutive p frame.wire)).chain =
      (m.buffer, buf) :: rest := hc
  -- the copy starts where the stored bytes end, and stays inside the buffer
  rw [View.storeCf_eq hc' hl (by show v.flow.remainingData ≤ _; omega)
    (by show View.cfCount v.flow.remainingData _ ≤ v.flow.remainingData; omega)] at hw
  have hoff : buf.length - v.flow.remainingData = m.payload.length := by omega
  subst hw
  refine ⟨_, rfl, rfl, ?_, ?_, m.payload_add hlen, ?_, m.sequence_add (by omega) h.sequence ?_⟩
  · show v.flow.remainingData - View.cfCount v.flow.remainingData frame.len = _
    omega
  · simp only [View.emit]
    rw [current_append, current_append, h.current]
    rfl
  · show Mem.slice (Mem.blit buf.data (buf.length - v.flow.remainingData)
      (fun i => frame.data (cfDataOffset + i)) (View.cfCount v.flow.remainingData frame.len)) 0
        (m.payload.length + min v.flow.remainingData 7) = _
    -- what is in front of the copy is kept, and behind it stand the bytes of the frame
    rw [hoff, hcount, Mem.slice_add, Mem.slice_blit_below _ _ _ (by omega), h.bytes, Nat.zero_add,
      Mem.slice_blit_self]
    congr 1
    exact Mem.slice_congr fun i _ => by simp [cfDataOffset]
  · rw [← hsn]
    exact h.next

namespace Node

/-- The frames for a pcb are full, first frames announce eight bytes or more, and single frames one
to seven. -/
def CleanFrames (cfg : Config) (p : Nat) (s : Node) : Event → Prop
  | .input canif frame _ => s.findPcb canif frame = some p →
    frame.len = 8 ∧ (frame.data 0 &&& frameTypeMask = ffType → 8 ≤ isotpGetFfDl cfg frame.data) ∧
      (frame.data 0 &&& frameTypeMask = sfType →
        1 ≤ isotpGetSfDl cfg frame.data ∧ isotpGetSfDl cfg frame.data ≤ 7)
  | _ => True

instance (cfg : Config) (p : Nat) (s : Node) : (e : Event) → Decidable (CleanFrames cfg p s e)
  | .input canif frame _ => inferInstanceAs (Decidable (s.findPcb canif frame = some p →
    frame.len = 8 ∧ (frame.data 0 &&& frameTypeMask = ffType → 8 ≤ isotpGetFfDl cfg frame.data) ∧
      (frame.data 0 &&& frameTypeMask = sfType →
        1 ≤ isotpGetSfDl cfg frame.data ∧ isotpGetSfDl cfg frame.data ≤ 7)))
  | .call _ | .timer _ _ | .sent _ _ | .resume | .tick _ => isTrue True.intro

end Node

namespace Faithful

open Node

variable {cfg : Config} {s : Node} {p : Nat} {e : Event} {v v' w : View}

theorem initial : Faithful cfg View.initial :=
  ⟨trivial, by rintro ⟨⟩, by rintro _ ⟨⟩⟩

/-- A transition that leaves the current message and its buffer as they are -/
theorem quiet (h : Faithful cfg v) {m : List Obs} (hl : w.log = v.log ++ m)
    (hm : ∀ o ∈ m, o.silent)
    (hmsg : w.flow.reassembling → v.flow.reassembling ∧ w.chain.head? = v.chain.head? ∧
      w.flow.remainingData = v.flow.remainingData ∧ w.flow.cfSn = v.flow.cfSn)
    (hs : ∀ f, w.suspended = some f → f.Opens cfg w.flow.fs) : Faithful cfg w := by
  refine ⟨?_, fun hw => ?_, hs⟩
  · rw [hl]
    exact AtEach.append.mpr ⟨h.handedOver, AtEach.of_forall fun o ho =>
      HandsOverWhole.of_neutral (Obs.neutral_of_silent (hm o ho))⟩
  · obtain ⟨hv, hc, hr, hsn⟩ := hmsg hw
    obtain ⟨msg, buf, ha⟩ := h.message hv
    refine ⟨msg, buf, ?_, by rw [hc]; exact ha.head, ha.ff, ha.announced, by rw [hr]; exact ha.size,
      by rw [hr]; exact ha.missing, ha.bytes, by rw [hsn]; exact ha.next, ha.sequence⟩
    rw [hl, current_append, foldl_silent hm]
    exact ha.current

/-- A transition that changes neither the flow nor its buffers nor its log -/
theorem same (h : Faithful cfg v) (hf : w.flow = v.flow) (hc : w.chain = v.chain)
    (hl : w.log = v.log)
    (hs : ∀ f, w.suspended = some f → f.Opens cfg w.flow.fs) : Faithful cfg w :=
  h.quiet (hl.trans (List.append_nil _).symm) (by simp)
    (fun hr => ⟨hf ▸ hr, by rw [hc], by rw [hf], by rw [hf]⟩) hs

/-- A transition to a state in which no message is under reassembly -/
theorem finish (h : Faithful cfg v) {m : List Obs} (hl : w.log = v.log ++ m)
    (hm : ∀ o ∈ m, ∀ cur, HandsOverWhole cfg cur o) (hw : w.flow.reassembling = false)
    (hs : ∀ f, w.suspended = some f → f.Opens cfg w.flow.fs) : Faithful cfg w := by
  refine ⟨?_, fun h' => ?_, hs⟩
  · rw [hl]
    exact AtEach.append.mpr ⟨h.handedOver, AtEach.of_forall hm⟩
  · rw [hw] at h'
    cases h'

/-- The message a first frame opens: six bytes of it are in its buffer, and it has no other
frame. -/
theorem opened (v : View) (hcfg : cfg.canfd = false) {frame : CanFrame} {b : Nat}
    {buf : LwcanBuffer} {slot : Bool} (hf : Opens cfg frame buf.length) :
    Assembling cfg (v.ffStore cfg p frame b buf slot) ⟨b, frame.wire, []⟩
      { buf with data := Mem.blit buf.data 0 (fun i => frame.data (2 + i)) 6 } := by
  obtain ⟨hlen, hff, hann, hlong⟩ := hf
  have hoff : View.ffOffset cfg frame.data = 2 := by
    simp [View.ffOffset, ffIsFd, hcfg, ffDataOffset]
  have hl : buf.length < 4294967296 := by
    rw [hann]
    exact lt_trans (isotpGetFfDl_lt cfg _) (by decide)
  have hfits : firstFits cfg frame buf.length := by
    unfold firstFits
    omega
  have hpay : (Message.payload ⟨b, frame.wire, []⟩) = Mem.slice frame.data 2 6 := by
    simp only [Message.payload, List.flatMap_nil, List.append_nil]
    rw [CanFrame.wire, hlen]
    exact Mem.drop_slice _ _ (by decide)
  rw [View.ffStore_eq hl hfits]
  simp only [hoff, hlen]
  refine ⟨?_, rfl, ?_, ?_, ?_, ?_, ?_, rfl, by rintro _ ⟨⟩⟩
  · simp only
    rw [current_append]
    rfl
  · show isFf frame.wire
    rw [isFf, wireData_wire (by omega)]
    exact decide_eq_true hff
  · show buf.length = isotpGetFfDl cfg (wireData frame.wire)
    rw [hann]
    -- the length field is on the wire
    have hd : ∀ i, i < 8 → wireData frame.wire i = frame.data i := fun i hi =>
      wireData_wire (by omega)
    simp only [isotpGetFfDl, ffIsFd, hcfg, Bool.false_and, Bool.false_eq_true, if_false,
      hd 0 (by decide), hd 1 (by decide)]
  · rw [hpay, Mem.length_slice]
    show 6 + (buf.length - (8 - 2)) = buf.length
    omega
  · show buf.length - (8 - 2) ≠ 0
    omega
  · rw [hpay, Mem.length_slice]
    show Mem.slice (Mem.blit buf.data 0 (fun i => frame.data (2 + i)) 6) 0 6 = _
    rw [Mem.slice_blit_self]
    exact Mem.slice_congr fun i _ => by simp

/-- **A first frame opens its message** with the six bytes it carries. -/
theorem ffStore (h : Faithful cfg v) (hcfg : cfg.canfd = false) {frame : CanFrame} {b : Nat}
    {buf : LwcanBuffer} {slot : Bool} (hf : Opens cfg frame buf.length) (hs : v.suspended = none) :
    Faithful cfg (v.ffStore cfg p frame b buf slot) := by
  refine ⟨?_, fun _ => ⟨_, _, opened v hcfg hf⟩, fun f hf' => ?_⟩
  · -- neither opening nor storing hands a message over
    have hlog : AtEach Message.step (HandsOverWhole cfg) none (v.log ++ [.opened p b frame.wire]) :=
      AtEach.append.mpr ⟨h.handedOver, by rintro _ _ _ _ ⟨⟩, trivial⟩
    exact AtEach.append.mpr ⟨hlog, by rintro _ _ _ _ ⟨⟩, trivial⟩
  · change v.suspended = _ at hf'
    rw [hs] at hf'
    cases hf'

/-- A transition that ends the message under reassembly, by an entry that hands nothing over -/
theorem finish_neutral (h : Faithful cfg v) {m : List Obs} (hl : w.log = v.log ++ m)
    (hm : ∀ o ∈ m, ∀ p arg b bytes, o ≠ .receive p arg b bytes) (hw : w.flow.reassembling = false)
    (hs : ∀ f, w.suspended = some f → f.Opens cfg w.flow.fs) : Faithful cfg w :=
  h.finish hl (fun o ho _ p arg b bytes he => absurd he (hm o ho p arg b bytes)) hw hs

theorem emitIf (h : Faithful cfg v) (c : Bool) {o : Obs} (ho : o.silent) :
    Faithful cfg (v.emitIf c o) := by
  unfold View.emitIf
  split
  · exact h.quiet rfl (by simpa using ho) (fun hr => ⟨hr, rfl, rfl, rfl⟩) h.suspended
  · exact h

theorem fail (h : Faithful cfg v) (k : FlowId) (c : Bool) (arg : Ptr) (err : Lwcanerr) :
    Faithful cfg (v.fail k c arg err) := by
  have h₀ : Faithful cfg ((v.drop k).setState .idle) :=
    h.finish_neutral rfl (by simp) rfl h.suspended
  exact h₀.emitIf c rfl

/-- **Handing a message over**, if it is the current one and whole -/
theorem deliver (h : Faithful cfg v) (hv : v.flow.reassembling = false) (pcb : IsotpPcb)
    {m : Message} {buf : LwcanBuffer} (hcur : current v.log = some m)
    (hhead : v.chain.head? = some (m.buffer, buf))
    (hw : isFf m.opened → m.Whole cfg buf.bytes) : Faithful cfg (v.deliver pcb p) := by
  obtain ⟨rest, hc⟩ := List.head?_eq_some_iff.mp hhead
  unfold View.deliver
  rw [hc]
  simp only
  split
  · refine ⟨?_, fun hr => ?_, h.suspended⟩
    · refine AtEach.append.mpr ⟨h.handedOver, fun q arg b bytes he => ?_, trivial⟩
      cases he
      exact ⟨m, hcur, rfl, hw⟩
    · rw [show (View.emit v _).flow = v.flow from rfl, hv] at hr
      cases hr
  · exact h.finish_neutral (w := (View.emit v _).removeHead) rfl (by simp) hv h.suspended

theorem inputSwitch (h : Faithful cfg v) {pcb : IsotpPcb} {slot : Bool}
    (hw : InputSwitch pcb p slot v v') : Faithful cfg v' := by
  cases hw with
  | skip => exact h
  | abort =>
    have h₀ : Faithful cfg (v.setState .idle) :=
      h.finish_neutral (List.append_nil _).symm (by simp) rfl h.suspended
    exact h₀.emitIf _ rfl
  | ready hs hfs =>
    refine h.quiet (List.append_nil _).symm (by simp) (fun _ => ⟨?_, rfl, rfl, rfl⟩) h.suspended
    exact IsotpFlow.reassembling_of_ready hs hfs

/-- A consecutive frame hands nothing over by itself. -/
theorem addConsecutive (h : Faithful cfg v) {frame : CanFrame}
    (hw : w = (({ v with err := v.err - 1 } : View).emit (.consecutive p frame.wire)).storeCf p
      frame.data frame.len) : AtEach Message.step (HandsOverWhole cfg) none w.log ∧
        w.suspended = v.suspended ∧ w.flow.fs = v.flow.fs := by
  subst hw
  refine ⟨?_, rfl, rfl⟩
  show AtEach _ _ none ((v.log ++ [_]) ++ [_])
  refine AtEach.append.mpr ⟨AtEach.append.mpr ⟨h.handedOver, ?_, trivial⟩, ?_, trivial⟩
  · rintro _ _ _ _ ⟨⟩
  · rintro _ _ _ _ ⟨⟩

/-- A frame in sequence after which more is missing keeps the message under reassembly. -/
theorem next (h : Faithful cfg v) {m : Message} {buf : LwcanBuffer} (ha : Assembling cfg v m buf)
    {frame : CanFrame} (hlen : frame.len = 8) (hsn : v.flow.cfSn = (frame.data 0 &&& 0x0F).toNat)
    (hw : w = (({ v with err := v.err - 1 } : View).emit (.consecutive p frame.wire)).storeCf p
      frame.data frame.len) (hr : w.flow.remainingData ≠ 0) (hl : v'.log = w.log)
    (hc : v'.chain = w.chain) (hrem : v'.flow.remainingData = w.flow.remainingData)
    (hsn' : v'.flow.cfSn = nextSn v.flow.cfSn)
    (hs : ∀ f, v'.suspended = some f → f.Opens cfg v'.flow.fs) : Faithful cfg v' := by
  obtain ⟨buf', hhead, hlen', hrem', hcur, hpay, hbytes, hseq⟩ := ha.consecutive hlen hsn hw
  refine ⟨by rw [hl]; exact (h.addConsecutive hw).1, fun _ => ⟨m.add frame.wire, buf', ?_⟩, hs⟩
  have hsize := ha.size
  have hann := ha.announced
  have hseven : min v.flow.remainingData 7 = 7 := by omega
  rw [hseven, ← hpay] at hbytes
  have hplen : (m.add frame.wire).payload.length = m.payload.length + 7 := by
    rw [hpay, List.length_append, Mem.length_slice]
  refine ⟨by rw [hl]; exact hcur, by rw [hc]; exact hhead, ha.ff, by rw [hlen']; exact hann, ?_,
    by rwa [hrem], by rw [hplen]; exact hbytes, ?_, hseq⟩
  · rw [hplen, hrem, hrem', hlen']
    omega
  · rw [hsn', ha.next, nextSn_mod]
    simp [Message.add]

/-- **The last frame in sequence** completes the message under reassembly. -/
theorem last (h : Faithful cfg v) {m : Message} {buf : LwcanBuffer} (ha : Assembling cfg v m buf)
    {frame : CanFrame} (hlen : frame.len = 8) (hsn : v.flow.cfSn = (frame.data 0 &&& 0x0F).toNat)
    (hw : w = (({ v with err := v.err - 1 } : View).emit (.consecutive p frame.wire)).storeCf p
      frame.data frame.len) (hr : w.flow.remainingData = 0) (hs : v.suspended = none)
    (pcb : IsotpPcb) : Faithful cfg ((w.setState .idle).deliver pcb p) := by
  obtain ⟨buf', hhead, hlen', hrem, hcur, hpay, hbytes, hseq⟩ := ha.consecutive hlen hsn hw
  obtain ⟨hover, hsus, -⟩ := h.addConsecutive hw
  have hsize := ha.size
  -- no more than seven bytes were missing
  have hle : v.flow.remainingData ≤ 7 := by omega
  rw [Nat.min_eq_left hle, hsize, ← hlen'] at hbytes
  have h₁ : Faithful cfg (w.setState .idle) := by
    refine ⟨hover, by rintro ⟨⟩, fun f hf => ?_⟩
    rw [show (w.setState .idle).suspended = none from hsus.trans hs] at hf
    cases hf
  have hb' : buf'.bytes = m.payload ++ Mem.slice frame.data 1 v.flow.remainingData := hbytes
  have hann : (m.add frame.wire).announced cfg = m.payload.length + v.flow.remainingData := by
    rw [hsize, ha.announced]
    rfl
  refine h₁.deliver rfl _ hcur hhead fun _ => ⟨?_, ?_, hseq⟩
  · rw [hb', hann, List.length_append, Mem.length_slice]
  · rw [hb', hpay, hann, List.take_append, Nat.add_sub_cancel_left, Mem.take_slice _ _ hle,
      List.take_of_length_le (Nat.le_add_right _ _)]

/-- **A single frame** opens a message and hands it over at once. -/
theorem single (h : Faithful cfg v) {frame : CanFrame} (hlen : frame.len = 8)
    (ht : frame.data 0 &&& frameTypeMask = sfType) (hs : v.flow.state = .idle) {b : Nat}
    {buf : LwcanBuffer} (pcb : IsotpPcb) :
    Faithful cfg ((((v.push b buf buf.length).emit (.opened p b frame.wire)).storeSf cfg p
      frame.data).deliver pcb p) := by
  have hidle := IsotpFlow.reassembling_of_idle hs
  have hnff : isFf frame.wire = false := by
    rw [isFf, wireData_wire (by omega), ht]
    decide
  have h₁ : Faithful cfg (((v.push b buf buf.length).emit (.opened p b frame.wire)).storeSf cfg p
      frame.data) :=
    h.finish_neutral (List.append_assoc _ [_] [_]) (by simp) hidle h.suspended
  refine h₁.deliver hidle _ (m := ⟨b, frame.wire, []⟩) ?_ rfl fun hff => ?_
  · show current ((v.log ++ [_]) ++ [_]) = _
    rw [current_append, current_append]
    rfl
  · rw [hnff] at hff
    cases hff

/-- What the driver refuses ends the message, and hands nothing over. -/
theorem refused (h : Faithful cfg v) (k : FlowId) (pcb : IsotpPcb) (err : Lwcanerr) :
    Faithful cfg (v.refused k pcb err) := by
  refine h.finish_neutral (View.refused_log ..) ?_ (by rw [View.refused_flow]; rfl) ?_
  · intro o ho q arg b bytes he
    subst he
    rcases List.mem_cons.mp ho with ho | ho
    · cases ho
    · split at ho
      · cases List.mem_singleton.mp ho
      · cases ho
  · rw [View.refused_flow]
    intro f hf
    rcases View.refused_suspended_cases hf with rfl | hf
    · trivial
    · exact h.suspended f hf

/-- The buffer the application releases is not that of the message under reassembly. -/
theorem release (h : Faithful cfg (s.view (p, .input))) {b : Nat}
    (ho : KeepsOpen s (.call (.isotpReceived (some p) (some b)))) :
    Faithful cfg { s.view (p, .input) with
      flow := { (s.view (p, .input)).flow with
        buffer := (s.view (p, .input)).flow.buffer.erase b }
      chain := (s.view (p, .input)).chain.eraseP (·.1 = b)
      log := (s.view (p, .input)).log ++ [.released p b] } := by
  refine ⟨AtEach.append.mpr ⟨h.handedOver, by rintro _ _ _ _ ⟨⟩, trivial⟩,
    fun hr => ?_, h.suspended⟩
  obtain ⟨m, buf, ha⟩ := h.message hr
  obtain ⟨rest, hc⟩ := List.head?_eq_some_iff.mp ha.head
  have hne : m.buffer ≠ b := ho.ne hr hc
  refine ⟨m, buf, ?_, ?_, ha.ff, ha.announced, ha.size, ha.missing, ha.bytes, ha.next, ha.sequence⟩
  · show current ((s.view (p, .input)).log ++ [_]) = _
    rw [current_append, ha.current]
    simp [Message.step, hne]
  · show ((s.view (p, .input)).chain.eraseP _).head? = _
    rw [hc, List.eraseP_cons_of_neg (by simpa using hne)]
    rfl

/-- **Every transition of an input flow** keeps reassembly faithful. -/
theorem step (hcfg : cfg.canfd = false) (he : s.Enabled e) (hn : e ≠ .call .isotpNew)
    (ho : KeepsOpen s e) (hf : CleanFrames cfg p s e) (h : Faithful cfg (s.view (p, .input)))
    (hst : InputStep cfg s p (s.view (p, .input)) e v') : Faithful cfg v' := by
  -- nothing waits for a callback, so nothing is about to be opened
  have hnone : ∀ {w : View}, w.suspended = none → ∀ f, w.suspended = some f →
      f.Opens cfg w.flow.fs := by
    intro w hw f hsf
    rw [hw] at hsf
    cases hsf
  cases hst with
  | sfMemory => exact h.emitIf _ rfl
  | sf hp ht hs => exact h.single (hf hp).1 ht hs _
  | ffMemory hp ht hs =>
    exact h.finish_neutral (List.append_nil _).symm (by simp) rfl (hnone (he.input_not_suspended _))
  | ffMemoryCallback hp ht hs =>
    refine h.finish_neutral rfl (by simp) (IsotpFlow.reassembling_of_idle hs) fun f hsf => ?_
    -- what waits for the callback's return opens nothing
    -- the callback runs before the first frame is stored, and the frame is kept for then
    cases hsf
    show fsOverflow ≠ fsReady
    decide
  | ff hp ht hs hb hl hz hg hr =>
    -- the message is opened and its first six bytes stored
    exact h.ffStore hcfg ⟨(hf hp).1, ht, hl, hl ▸ (hf hp).2.1 ht⟩ (he.input_not_suspended _)
  | ffCallback hp ht hs hz hg =>
    refine h.finish_neutral rfl (by simp) (IsotpFlow.reassembling_of_idle hs) fun f hsf => ?_
    cases hsf
    exact ⟨(hf hp).1, ht, rfl, (hf hp).2.1 ht⟩
  | resumeFf hsn hb =>
    have hsus := h.suspended _ (view_suspended hsn rfl)
    have h₀ : Faithful cfg { s.view (p, .input) with suspended := none } :=
      h.same rfl rfl rfl (hnone rfl)
    exact h₀.ffStore hcfg hsus rfl
  | resumeFfMemory hsn =>
    have hsus : (s.view (p, .input)).flow.fs ≠ fsReady := h.suspended _ (view_suspended hsn rfl)
    refine h.finish_neutral (List.append_nil _).symm (by simp) ?_ (by rintro _ ⟨⟩)
    exact Bool.or_eq_false_iff.mpr ⟨rfl, decide_eq_false hsus⟩
  | cfWrong =>
    exact h.finish_neutral (List.append_assoc _ [_] [_]) (by simp) rfl
      (hnone (he.input_not_suspended _))
  | cfLast hp ht hs hsn hv' hr =>
    -- the frame is the next of the message under way: the last one delivers it, another one extends
    -- it
    obtain ⟨m, buf, ha⟩ := h.message (IsotpFlow.reassembling_of_waitCf hs)
    exact h.last ha (hf hp).1 hsn hv' hr (he.input_not_suspended _) _
  | cf hp ht hs hsn hv' hr hb =>
    obtain ⟨m, buf, ha⟩ := h.message (IsotpFlow.reassembling_of_waitCf hs)
    exact h.next ha (hf hp).1 hsn hv' hr rfl rfl rfl rfl
      (hnone (by subst hv'; exact he.input_not_suspended _))
  | block hp ht hs hsn hv' hr hb =>
    obtain ⟨m, buf, ha⟩ := h.message (IsotpFlow.reassembling_of_waitCf hs)
    exact h.next ha (hf hp).1 hsn hv' hr rfl rfl rfl rfl
      (hnone (by subst hv'; exact he.input_not_suspended _))
  | skip => exact h.same rfl rfl rfl h.suspended
  | output =>
    exact h.quiet rfl (by simp [Obs.silent, Obs.neutral])
      (fun hr => ⟨hr, rfl, rfl, rfl⟩) h.suspended
  | reject =>
    -- an error ends the message
    refine fail ?_ _ _ _ _
    exact h.quiet rfl (by simp [Obs.silent, Obs.neutral])
      (fun hr => ⟨hr, rfl, rfl, rfl⟩) h.suspended
  | expire =>
    have h₀ : Faithful cfg { s.view (p, .input) with err := (s.view (p, .input)).err - 1 } :=
      h.same rfl rfl rfl h.suspended
    exact h₀.fail _ _ _ _
  | confirm hsn hw =>
    have h₀ : Faithful cfg
        { s.view (p, .input) with confirms := (s.view (p, .input)).confirms - 1 } :=
      h.same rfl rfl rfl h.suspended
    exact h₀.inputSwitch hw
  | resume hsn hw =>
    have h₀ : Faithful cfg { s.view (p, .input) with suspended := none } :=
      h.same rfl rfl rfl (hnone rfl)
    exact h₀.inputSwitch hw
  | refuse =>
    have h₀ : Faithful cfg
        { s.view (p, .input) with confirms := (s.view (p, .input)).confirms - 1 } :=
      h.same rfl rfl rfl h.suspended
    exact h₀.refused _ _ _
  | release => exact h.release ho
  | new => exact absurd rfl hn

end Faithful

namespace Node

variable {cfg : Config} {s : Node} {es : List Event} {p : Nat}

theorem faithful_run (hcfg : cfg.canfd = false) (hr : Run cfg es s) (hk : RunAlong cfg KeepsPcbs es)
    (ho : RunAlong cfg KeepsOpen es) (hf : RunAlong cfg (CleanFrames cfg p) es) :
    Faithful cfg (s.view (p, .input)) :=
  input_inv p Faithful.initial
    (fun _ he h hn hi hst => Faithful.step hcfg he hn h.1 h.2 hi hst) hr hk (ho.and hf)

/-- **Reassembly is faithful.** Whatever frames a pcb is sent, every segmented message it hands over
is the first bytes, as many as its first frame announced, of what its frames carried since, whose
sequence numbers were 1, 2, …, 15, 0, 1, …; between two hand-overs a message is opened; and a
message that has seen a frame out of sequence is not handed over. -/
theorem reassembly_faithful (hcfg : cfg.canfd = false) (hr : Run cfg es s)
    (hk : RunAlong cfg KeepsPcbs es) (ho : RunAlong cfg KeepsOpen es)
    (hf : RunAlong cfg (CleanFrames cfg p) es) :
    (∀ l₁ arg b bytes l₂, s.logOf (p, .input) = l₁ ++ .receive p arg b bytes :: l₂ →
      ∃ m ∈ current l₁, b = m.buffer ∧ (isFf m.opened → m.Whole cfg bytes)) ∧
    (∀ l₁ arg b bytes l₂ arg' b' bytes' l₃,
      s.logOf (p, .input) =
        l₁ ++ .receive p arg b bytes :: (l₂ ++ .receive p arg' b' bytes' :: l₃) →
      ∃ o ∈ l₂, o.opens) ∧
    ∀ l₁ w l₂ arg b bytes l₃, s.logOf (p, .input) =
        l₁ ++ .consecutive p w :: (l₂ ++ .receive p arg b bytes :: l₃) →
      ∀ m ∈ current l₁, isFf m.opened → wireSn w ≠ (m.consecutive.length + 1) % 16 →
        ∃ o ∈ l₂, o.opens := by
  have h := (faithful_run hcfg hr hk ho hf).handedOver
  change AtEach Message.step (HandsOverWhole cfg) none (s.logOf (p, .input)) at h
  refine ⟨?_, ?_, ?_⟩
  · intro l₁ arg b bytes l₂ hl
    rw [hl] at h
    exact h.of_split p arg b bytes rfl
  · intro l₁ arg b bytes l₂ arg' b' bytes' l₃ hl
    rw [hl, List.append_cons, ← List.append_assoc] at h
    obtain ⟨m, hm, -, -⟩ := h.of_split p arg' b' bytes' rfl
    by_contra hno
    simp only [not_exists, not_and, Bool.not_eq_true] at hno
    -- after the first hand-over there is no message, and none is opened
    change m ∈ current _ at hm
    rw [current_append, current_append] at hm
    change List.foldl Message.step none l₂ = some m at hm
    rw [foldl_none hno] at hm
    cases hm
  · intro l₁ w l₂ arg b bytes l₃ hl m hm hff hsn
    rw [hl, List.append_cons, ← List.append_assoc] at h
    obtain ⟨m', hm', -, hwhole⟩ := h.of_split p arg b bytes rfl
    by_contra hno
    simp only [not_exists, not_and, Bool.not_eq_true] at hno
    -- the frame out of sequence is among those of the message handed over
    change m' ∈ current _ at hm'
    rw [current_append, current_append, hm] at hm'
    change List.foldl Message.step (some (m.add w)) l₂ = some m' at hm'
    obtain ⟨-, hopen, hpre⟩ := foldl_extends hno hm'
    have hlt : m.consecutive.length < m'.consecutive.length := by
      have := hpre.length_le
      simp only [Message.add, List.length_append, List.length_singleton] at this
      omega
    refine hsn ?_
    rw [← (hwhole (hopen ▸ hff)).sequence _ hlt, ← hpre.getElem]
    · simp [Message.add]
    · simp [Message.add]

/-- The consecutive frame that completes `firstFrame` -/
def lastFrame : CanFrame := ⟨0x7E8, 8, 0, fun i => [0x21, 7, 8, 9].getD i 0xAA⟩

/-- Nine bytes in two frames -/
theorem reassembly_faithful_lastFrame : ∃ s, Run {} (connected ++
    [.call (.isotpSetCallbacks 0 true false false false),
      .input 0 firstFrame ⟨some 1, some 2, fun _ => 0⟩, .timer ⟨0, 0, 0, fun _ => 0⟩ .ok,
      .sent (0, .input) .ok, .input 0 lastFrame ⟨none, none, fun _ => 0⟩]) s ∧
    Message.Whole {} ⟨1, firstFrame.wire, [lastFrame.wire]⟩ [1, 2, 3, 4, 5, 6, 7, 8, 9] := by
  obtain ⟨s, hr, hl⟩ := exists_run {} (connected ++
    [.call (.isotpSetCallbacks 0 true false false false),
      .input 0 firstFrame ⟨some 1, some 2, fun _ => 0⟩, .timer ⟨0, 0, 0, fun _ => 0⟩ .ok,
      .sent (0, .input) .ok, .input 0 lastFrame ⟨none, none, fun _ => 0⟩])
    (fun s => s.logOf (0, .input) =
      [.opened 0 1 firstFrame.wire, .store 0 0 6 9,
        .output (0, .input) 0 0x7E0 [0x30, 0, 0, 0xAA, 0xAA, 0xAA, 0xAA, 0xAA] 5 .ok,
        .consecutive 0 lastFrame.wire, .store 0 6 3 9] ++
      .receive 0 .null 1 [1, 2, 3, 4, 5, 6, 7, 8, 9] :: []) (by decide)
  obtain ⟨m, hm, -, hwhole⟩ := (reassembly_faithful (p := 0) rfl hr (by decide) (by decide)
    (by decide)).1 _ _ _ _ _ hl
  cases hm
  exact ⟨s, hr, hwhole (by decide)⟩

end Node
end Lwcan
