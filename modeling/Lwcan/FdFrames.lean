import Lwcan.Frames
import Lwcan.Refinement

/-!
# Lengths in CAN FD frames

What the CAN FD formats of the single frame and the first frame make of the length of a message. A
receiver sees the first `len` data bytes of a frame and nothing else, so a frame is compared with
every other one that reads the same on the wire.

* `singleFrame_carries_iff` — the single frame `isotp_fill_sf` builds carries its message exactly
  when no step of `padding_length` is at the length or one above it: the table is looked up with the
  length of the message, and the two bytes of the header come on top;
* `firstFrame_length_iff` — `isotp_get_ff_dl` returns the announced length exactly when it is below
  256 or the second byte is not 0: of the four bytes only the last assignment remains, and the test
  for the CAN FD format looks at one byte of the two.
-/

namespace Lwcan

/-! ### What isotp_send leaves behind -/

namespace Node

/-- **An accepted message** is in the buffer at the head of the output flow, and its length decides
between a single frame and a first frame. -/
theorem isotpSend_accepted {cfg : Config} {s : Node} {p : Nat} {d : List UInt8} {g : Grant}
    (h : (s.isotpSend cfg (some p) (some d) g).1 = .ok) :
    ∃ buf, (s.isotpSend cfg (some p) (some d) g).2.headBuffer (p, .output) = some buf ∧
      d ≠ [] ∧ buf.length = d.length ∧ buf.bytes = d ∧
      ((s.isotpSend cfg (some p) (some d) g).2.flow (p, .output)).remainingData = d.length ∧
      ((s.isotpSend cfg (some p) (some d) g).2.flow (p, .output)).state =
        if sfMax cfg < d.length then .txFf else .txSf := by
  unfold isotpSend at h ⊢
  by_cases hd : d.length = 0
  · simp [hd] at h
  by_cases hs : (s.flow (p, .output)).state = .idle
  swap
  · simp [hd, hs] at h
  cases hnew : s.heap.lwcanBufferNew d.length g with
  | mk o heap =>
    cases o with
    | none => simp [hd, hs, hnew] at h
    | some b =>
      -- the header was written by the allocation, the payload is copied next
      have hlen : (heap.buffer b).length = d.length := by
        unfold Heap.lwcanBufferNew at hnew
        split at hnew
        · cases hnew
        · split at hnew
          · cases hnew
          · split at hnew
            · cases hnew
            · cases hnew
              simp
      obtain ⟨hcl, hcb, -⟩ := copyTo_message heap b hd hlen
      simp only [hd, hs, hnew, if_false, ne_eq, not_true_eq_false]
      generalize (heap.lwcanBufferCopyTo (some b) (fun i => d.getD i 0) d.length).2 = heap' at *
      refine ⟨heap'.buffer b, ?_, ?_, hcl, hcb, ?_, ?_⟩
      · split <;> simp [headBuffer, head, flow, setFlow, emit, lwcanTimeout]
      · intro hnil
        exact hd (by rw [hnil]; rfl)
      · split <;> simp [flow, setFlow, emit, lwcanTimeout]
      · split <;> simp [flow, setFlow, emit, lwcanTimeout]

end Node

/-! ### Single frames -/

/-- The payload lengths of CAN FD frames that are shorter than the longest: the steps of
`padding_length` -/
def paddingSteps : List Nat := [8, 12, 16, 20, 24, 32, 48]

/-- There is room for the header of a single frame exactly when the padded length is no step that
the message reaches, or reaches but for one byte. -/
theorem room_iff {n : Nat} (h₀ : n ≠ 0) (h : n ≤ 62) :
    2 + n ≤ getPaddingLength n ↔ ∀ D ∈ paddingSteps, D ≠ n ∧ D ≠ n + 1 := by
  have hall : ∀ n ≤ 62, n ≠ 0 →
      (2 + n ≤ getPaddingLength n ↔ ∀ D ∈ paddingSteps, D ≠ n ∧ D ≠ n + 1) := by decide
  exact hall n h h₀

/-- **A single frame** in the CAN FD format holds its header and the whole message, though not all
of it need be among the first `len` bytes. -/
theorem isotpFillSf_fd {cfg : Config} (buf : LwcanBuffer) (flow : IsotpFlow) (frame : CanFrame)
    (hc : cfg.canfd = true) :
    (isotpFillSf cfg (some buf) flow frame).2.len = getPaddingLength flow.remainingData ∧
      Mem.slice (isotpFillSf cfg (some buf) flow frame).2.data 0 (2 + flow.remainingData) =
        sfHeader cfg flow.remainingData ++ Mem.slice buf.data 0 flow.remainingData := by
  have hlen : dataFrameLen cfg flow.remainingData = getPaddingLength flow.remainingData :=
    if_pos hc
  have hoff : sfOffset cfg = 2 := if_pos hc
  have hhead := slice_sfHead cfg flow.remainingData frame
  rw [hoff] at hhead
  refine ⟨by rw [isotpFillSf_len, hlen], ?_⟩
  rw [isotpFillSf_frame, hoff]
  dsimp only
  split
  · -- the padding begins behind the message
    rw [CanFrame.addPadding_data, Mem.slice_blit_below _ _ _ (Nat.zero_add _).le,
      CanFrame.slice_copyFromOffset, hhead]
  · rw [CanFrame.slice_copyFromOffset, hhead]

/-- **The frame carries the message.** It has room for the message behind the header and is no
longer than a frame can be; and what reads the same on the wire has its length and is stored as the
message. -/
structure Carries (cfg : Config) (d : List UInt8) (f : CanFrame) : Prop where
  room : 2 + d.length ≤ f.len
  fits : f.len ≤ 64
  length : ∀ g : CanFrame, g.wire = f.wire → isotpGetSfDl cfg g.data = d.length
  stored : ∀ g : CanFrame, g.wire = f.wire → ∀ (s : Node) (p b : Nat),
    s.head (p, .input) = some b →
      (s.flow (p, .input)).remainingData = isotpGetSfDl cfg g.data →
        (s.heap.buffer b).length = isotpGetSfDl cfg g.data →
          ((s.storeSfData cfg p g.data).heap.buffer b).bytes = d

section Header

variable {cfg : Config} {d : List UInt8} {f : CanFrame}

/-- What reads the same on the wire as a frame with room for the message has its header and the
message too. -/
theorem read_of_wire (hc : cfg.canfd = true) (hd : d.length < 256) (hroom : 2 + d.length ≤ f.len)
    (hdata : Mem.slice f.data 0 (2 + d.length) = sfHeader cfg d.length ++ d) {g : CanFrame}
    (hg : g.wire = f.wire) :
    g.data 0 = sfType ∧ g.data 1 = UInt8.ofNat d.length ∧ Mem.slice g.data 2 d.length = d := by
  have hgl : g.len = f.len := by simpa [CanFrame.wire] using congrArg List.length hg
  have hread : Mem.slice g.data 0 (2 + d.length) = sfHeader cfg d.length ++ d :=
    calc Mem.slice g.data 0 (2 + d.length)
        = g.wire.take (2 + d.length) := (Mem.take_slice _ _ (hgl ▸ hroom)).symm
      _ = f.wire.take (2 + d.length) := by rw [hg]
      _ = Mem.slice f.data 0 (2 + d.length) := Mem.take_slice _ _ hroom
      _ = sfHeader cfg d.length ++ d := hdata
  rw [Mem.slice_add, sfHeader, if_pos hc] at hread
  obtain ⟨hhead, htail⟩ := List.append_inj hread (by simp)
  simp only [Mem.slice, List.range_succ, List.range_zero, List.nil_append, List.map_cons,
    List.map_nil, List.cons_append, Nat.zero_add, List.cons.injEq, and_true] at hhead
  have hmask : d.length &&& 0xFF = d.length := by
    rw [show (0xFF : Nat) = 2 ^ 8 - 1 from rfl, Nat.and_two_pow_sub_one_eq_mod]
    exact Nat.mod_eq_of_lt hd
  exact ⟨hhead.1, by rw [hhead.2, hmask], htail⟩

/-- A frame with the header and the message, and room for both, carries the message. -/
theorem carries_of_header (hc : cfg.canfd = true) (hpos : d.length ≠ 0) (hd : d.length < 256)
    (hroom : 2 + d.length ≤ f.len) (hfits : f.len ≤ 64)
    (hdata : Mem.slice f.data 0 (2 + d.length) = sfHeader cfg d.length ++ d) : Carries cfg d f := by
  have hfd : ∀ g : CanFrame, g.wire = f.wire → sfIsFd cfg g.data = true := by
    intro g hg
    rw [sfIsFd, hc, (read_of_wire hc hd hroom hdata hg).1]
    rfl
  have hdl : ∀ g : CanFrame, g.wire = f.wire → isotpGetSfDl cfg g.data = d.length := by
    intro g hg
    rw [isotpGetSfDl, if_pos (hfd g hg), (read_of_wire hc hd hroom hdata hg).2.1,
      UInt8.toNat_ofNat']
    exact Nat.mod_eq_of_lt hd
  refine ⟨hroom, hfits, hdl, fun g hg s p b hb hr hl => ?_⟩
  rw [hdl g hg] at hr hl
  -- `store_sf_data` copies the message from behind the header into the whole buffer
  have hstore : ((s.storeSfData cfg p g.data).heap.buffer b) =
      { s.heap.buffer b with
        data := Mem.blit (s.heap.buffer b).data 0 (fun i => g.data (2 + i)) d.length } := by
    unfold Node.storeSfData Node.storeData
    simp [hb, hr, hpos, hfd g hg, fdSfDataOffset, Heap.lwcanBufferCopyToOffset]
  rw [hstore, LwcanBuffer.bytes, hl, Mem.slice_blit_self]
  exact (Mem.slice_congr fun i _ => by rw [Nat.zero_add]).trans
    (read_of_wire hc hd hroom hdata hg).2.2

end Header

namespace Node

/-- **A CAN FD single frame carries its message exactly when** the message ends neither at a step of
`padding_length` nor one byte below it. -/
theorem singleFrame_carries_iff {cfg : Config} (hc : cfg.canfd = true) {s : Node} {p : Nat}
    {d : List UInt8} {g : Grant} (h : (s.isotpSend cfg (some p) (some d) g).1 = .ok)
    (hs : ((s.isotpSend cfg (some p) (some d) g).2.flow (p, .output)).state = .txSf)
    (frame : CanFrame) :
    Carries cfg d
        (isotpFillSf cfg ((s.isotpSend cfg (some p) (some d) g).2.headBuffer (p, .output))
          ((s.isotpSend cfg (some p) (some d) g).2.flow (p, .output)) frame).2 ↔
      ∀ D ∈ paddingSteps, D ≠ d.length ∧ D ≠ d.length + 1 := by
  obtain ⟨buf, hbuf, hd, hbl, hbb, hrem, hstate⟩ := isotpSend_accepted h
  generalize (s.isotpSend cfg (some p) (some d) g).2 = s' at *
  have hpos : d.length ≠ 0 := fun h => hd (List.length_eq_zero_iff.mp h)
  -- a message longer than that goes out in segments
  have hshort : d.length ≤ 62 := by
    by_contra hlong
    have hmax : sfMax cfg = 62 := by simp [sfMax, hc, canfdMaxDlen, fdSfDataOffset]
    rw [hs, if_pos (by omega)] at hstate
    cases hstate
  obtain ⟨hlen, hdata⟩ :=
    isotpFillSf_fd buf (s'.flow (p, .output)) frame hc
  rw [hbuf]
  generalize (isotpFillSf cfg (some buf) (s'.flow (p, .output)) frame).2 = f at *
  rw [hrem] at hlen hdata
  rw [← hbl, ← LwcanBuffer.bytes, hbb, hbl] at hdata
  constructor
  · intro hcar
    exact (room_iff hpos hshort).mp (hlen ▸ hcar.room)
  · intro hsteps
    have hroom : 2 + d.length ≤ f.len := hlen ▸ (room_iff hpos hshort).mpr hsteps
    refine carries_of_header hc hpos (by omega) hroom ?_ hdata
    rw [hlen, show getPaddingLength d.length = dataFrameLen cfg d.length from (if_pos hc).symm]
    exact dataFrameLen_le cfg d.length

/-- A CAN FD build -/
def fdConfig : Config := { Config.classic with canfd := true }

/-- A node with one connection that has accepted `d` -/
def accepted (d : List UInt8) : Lwcanerr × Node :=
  ((lwcanInit fdConfig).isotpNew fdConfig).2.isotpSend fdConfig (some 0) (some d)
    ⟨some 1, some 2, fun _ => 0⟩

theorem singleFrame_carries_ten :
    Carries fdConfig [0, 1, 2, 3, 4, 5, 6, 7, 8, 9]
      (isotpFillSf fdConfig ((accepted [0, 1, 2, 3, 4, 5, 6, 7, 8, 9]).2.headBuffer (0, .output))
        ((accepted [0, 1, 2, 3, 4, 5, 6, 7, 8, 9]).2.flow (0, .output)) ⟨0, 0, 0, fun _ => 0⟩).2 :=
  (singleFrame_carries_iff (show fdConfig.canfd = true from rfl)
    (s := ((lwcanInit fdConfig).isotpNew fdConfig).2) (g := ⟨some 1, some 2, fun _ => 0⟩)
    rfl rfl _).mpr (by decide)

/-- **Seven bytes do not fit.** The frame is eight bytes long, two of them the header, and the last
byte of the message is not on the wire. -/
theorem singleFrame_truncated :
    ¬ Carries fdConfig [1, 2, 3, 4, 5, 6, 7]
      (isotpFillSf fdConfig ((accepted [1, 2, 3, 4, 5, 6, 7]).2.headBuffer (0, .output))
        ((accepted [1, 2, 3, 4, 5, 6, 7]).2.flow (0, .output)) ⟨0, 0, 0, fun _ => 0⟩).2 := by
  intro h
  exact absurd h.room (by decide)

end Node

/-! ### First frames -/

/-- The 12-bit length field: the low half of the first byte, and the second -/
def ffDl12 (data : Nat → UInt8) : Nat := (data 0 &&& 0x0F).toNat * 256 + (data 1).toNat

/-- The 32-bit length field: the four bytes after the second, the highest first -/
def ffDl32 (data : Nat → UInt8) : Nat :=
  (((data 2).toNat * 256 + (data 3).toNat) * 256 + (data 4).toNat) * 256 + (data 5).toNat

/-- The length a first frame announces: the 12-bit field, or the 32-bit field if that is 0 -/
def announced (data : Nat → UInt8) : Nat := if ffDl12 data = 0 then ffDl32 data else ffDl12 data

/-- Where the payload of a first frame begins -/
def announcedOffset (data : Nat → UInt8) : Nat :=
  if ffDl12 data = 0 then fdFfDataOffset else ffDataOffset

/-- **A first frame is read as it announces**: its length, and the payload from behind the length
fields on. -/
structure ReadsFf (cfg : Config) (data : Nat → UInt8) : Prop where
  length : isotpGetFfDl cfg data = announced data
  stored : ∀ (s : Node) (p b len : Nat), s.head (p, .input) = some b →
    Mem.slice ((s.storeFfData cfg p data len).heap.buffer b).data 0
        (u32 ((len : Int) - announcedOffset data)) =
      Mem.slice data (announcedOffset data) (u32 ((len : Int) - announcedOffset data))
  remaining : ∀ (s : Node) (p len : Nat),
    ((s.storeFfData cfg p data len).flow (p, .input)).remainingData =
      u32 (((s.flow (p, .input)).remainingData : Int) - ((len : Int) - announcedOffset data))

/-- The CAN FD format leaves the last byte of the length, the classic format all twelve bits. -/
theorem isotpGetFfDl_fd {cfg : Config} (hc : cfg.canfd = true) (data : Nat → UInt8) :
    isotpGetFfDl cfg data = if data 1 = 0 then (data 5).toNat else ffDl12 data := by
  by_cases h : data 1 = 0
  · simp [isotpGetFfDl, ffIsFd, hc, h]
  · have hlow : (data 1).toNat < 2 ^ 8 := (data 1).toNat_lt
    have hor : (data 0 &&& 0x0F).toNat <<< 8 ||| (data 1).toNat = ffDl12 data := by
      rw [← Nat.shiftLeft_add_eq_or_of_lt hlow, Nat.shiftLeft_eq]
      rfl
    rw [if_neg h, ← hor]
    simp [isotpGetFfDl, ffIsFd, hc, h]

/-- **The announced length is read exactly when** it is below 256 or the second byte is not 0. -/
theorem isotpGetFfDl_eq_announced {cfg : Config} (hc : cfg.canfd = true) (data : Nat → UInt8) :
    isotpGetFfDl cfg data = announced data ↔ data 1 ≠ 0 ∨ announced data < 256 := by
  have hfive : (data 5).toNat < 256 := (data 5).toNat_lt
  rw [isotpGetFfDl_fd hc]
  by_cases h : data 1 = 0
  · rw [if_pos h]
    constructor
    · intro heq
      exact Or.inr (heq ▸ hfive)
    · rintro (hne | hlt)
      · exact absurd h hne
      · unfold announced at hlt ⊢
        have hone : (data 1).toNat = 0 := by rw [h]; rfl
        split at hlt
        · -- the 32-bit field, of which only the last byte is not 0
          next h12 =>
          rw [if_pos h12]
          unfold ffDl32 at hlt ⊢
          omega
        · -- a 12-bit field that ends in a zero byte is 256 at least
          next h12 =>
          unfold ffDl12 at hlt h12
          omega
  · have hne : ffDl12 data ≠ 0 := by
      intro h12
      unfold ffDl12 at h12
      exact h (UInt8.toNat_inj.mp (by simp; omega))
    rw [if_neg h, announced, if_neg hne]
    simp [h]

/-- The payload is taken from where it begins if the length is read as announced. -/
theorem storeOffset_eq {cfg : Config} (hc : cfg.canfd = true) {data : Nat → UInt8}
    (h : data 1 ≠ 0 ∨ announced data < 256) :
    (if ffIsFd cfg data then fdFfDataOffset else ffDataOffset) = announcedOffset data := by
  unfold announcedOffset
  have hiff : ffIsFd cfg data = true ↔ ffDl12 data = 0 := by
    simp only [ffIsFd, hc, Bool.true_and, beq_iff_eq]
    constructor
    · intro h₁
      have hone : (data 1).toNat = 0 := by rw [h₁]; rfl
      by_contra h12
      rcases h with h | h
      · exact h h₁
      · rw [announced, if_neg h12] at h
        unfold ffDl12 at h h12
        omega
    · intro h12
      unfold ffDl12 at h12
      exact UInt8.toNat_inj.mp (by simp; omega)
  exact if_congr hiff rfl rfl

theorem readsFf_iff {cfg : Config} (hc : cfg.canfd = true) (data : Nat → UInt8) :
    ReadsFf cfg data ↔ data 1 ≠ 0 ∨ announced data < 256 := by
  constructor
  · intro h
    exact (isotpGetFfDl_eq_announced hc data).mp h.length
  · intro h
    have hoff := storeOffset_eq hc h
    refine ⟨(isotpGetFfDl_eq_announced hc data).mpr h, ?_, ?_⟩
    · intro s p b len hb
      unfold Node.storeFfData
      simp only [hoff]
      show Mem.slice
        ((s.storeData p (fun i => data (announcedOffset data + i)) _ 0).heap.buffer b).data
        0 _ = _
      by_cases hn : u32 ((len : Int) - announcedOffset data) = 0
      · rw [hn]
        rfl
      · simp only [Node.storeData, Node.emit, hb, Heap.lwcanBufferCopyToOffset, if_neg hn,
          Function.update_self, Mem.slice_blit_self]
        exact Mem.slice_congr fun i _ => by rw [Nat.zero_add]
    · intro s p len
      unfold Node.storeFfData
      simp only [hoff]
      simp [Node.flow, Node.setFlow]

namespace Node

/-- **The length of a first frame** in a CAN FD build. What `isotp_fill_ff` announces is read back
exactly when the message is shorter than 256 bytes, and a received first frame is read as it
announces exactly when that is a length below 256 or its second byte is not 0. -/
theorem firstFrame_length_iff {cfg : Config} (hc : cfg.canfd = true) :
    (∀ (s : Node) (p : Nat) (d : List UInt8) (g : Grant) (frame : CanFrame),
      d.length < 4294967296 → (s.isotpSend cfg (some p) (some d) g).1 = .ok →
        ((s.isotpSend cfg (some p) (some d) g).2.flow (p, .output)).state = .txFf →
          (isotpGetFfDl cfg
              (isotpFillFf cfg ((s.isotpSend cfg (some p) (some d) g).2.headBuffer (p, .output))
                ((s.isotpSend cfg (some p) (some d) g).2.flow (p, .output)) frame).2.data =
              d.length ↔ d.length < 256)) ∧
      ∀ data : Nat → UInt8, ReadsFf cfg data ↔ data 1 ≠ 0 ∨ announced data < 256 := by
  refine ⟨?_, readsFf_iff hc⟩
  intro s p d g frame hd h hs
  obtain ⟨buf, hbuf, -, -, -, hrem, hstate⟩ := isotpSend_accepted h
  generalize (s.isotpSend cfg (some p) (some d) g).2 = s' at *
  have hlong : sfMax cfg < d.length := by
    by_contra hshort
    rw [hs, if_neg hshort] at hstate
    cases hstate
  obtain ⟨-, hwire⟩ := isotpFillFf_eq cfg buf (s'.flow (p, .output)) frame
    (by rw [hrem]; exact hlong) (by rw [hrem]; exact hd)
  rw [hbuf]
  generalize (isotpFillFf cfg (some buf) (s'.flow (p, .output)) frame).2 = f at *
  rw [hrem, ffHeader, if_pos hc] at hwire
  have hlen : 6 ≤ f.len := by
    have := congrArg List.length hwire
    simp only [CanFrame.wire, Mem.length_slice, List.length_append, List.length_cons,
      List.length_nil] at this
    omega
  -- the header is read off the wire, byte by byte
  have hcell : ∀ i < 6, some (f.data i) = f.wire[i]? := by
    intro i hi
    rw [CanFrame.wire, Mem.getElem?_slice, if_pos (by omega), Nat.zero_add]
  have hone : f.data 1 = 0 := Option.some.inj ((hcell 1 (by decide)).trans (by rw [hwire]; rfl))
  -- each byte read overwrites the one before: the reader keeps the low one
  have hfive : f.data 5 = UInt8.ofNat d.length :=
    Option.some.inj ((hcell 5 (by decide)).trans (by rw [hwire]; rfl))
  rw [isotpGetFfDl_fd hc, if_pos hone, hfive, UInt8.toNat_ofNat']
  exact Nat.mod_eq_iff_lt (by decide)

theorem firstFrame_length_hundred :
    isotpGetFfDl fdConfig
        (isotpFillFf fdConfig ((accepted (List.replicate 100 0x55)).2.headBuffer (0, .output))
          ((accepted (List.replicate 100 0x55)).2.flow (0, .output)) ⟨0, 0, 0, fun _ => 0⟩).2.data =
      100 :=
  ((firstFrame_length_iff (show fdConfig.canfd = true from rfl)).1
    ((lwcanInit fdConfig).isotpNew fdConfig).2 0
    (List.replicate 100 0x55) ⟨some 1, some 2, fun _ => 0⟩ _ (by decide) rfl rfl).mpr (by decide)

/-- **256 bytes are read as none**, and so is a received frame that announces them in the classic
format. -/
theorem firstFrame_length_lost :
    isotpGetFfDl fdConfig
        (isotpFillFf fdConfig ((accepted (List.replicate 256 0x55)).2.headBuffer (0, .output))
          ((accepted (List.replicate 256 0x55)).2.flow (0, .output)) ⟨0, 0, 0, fun _ => 0⟩).2.data =
        0 ∧
      ¬ ReadsFf fdConfig (fun i => [0x11, 0, 0xA0, 0xA1, 0xA2, 0].getD i 0) := by
  refine ⟨?_, ?_⟩
  · decide +kernel
  · intro h
    exact absurd h.length (by decide)

end Node
end Lwcan
