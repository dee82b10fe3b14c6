import Lwcan.IsotpOut

/-!
# The frames on the wire

What the fill functions put on the wire: a header, a stretch of the message, and padding. A single
frame and a first frame carry the front of the message, a consecutive frame the bytes after those
already sent; each fill function takes from `remaining_data` what its frame carries.

The lemmas name the source's offsets where they differ between the builds: `sfOffset` and
`ffOffset`.
-/

namespace Lwcan

/-- `SF_DATA_OFFSET`, or `FD_SF_DATA_OFFSET` in a CAN FD build -/
def sfOffset (cfg : Config) : Nat := if cfg.canfd then fdSfDataOffset else sfDataOffset

/-- `FF_DATA_OFFSET`, or `FD_FF_DATA_OFFSET` in a CAN FD build -/
def ffOffset (cfg : Config) : Nat := if cfg.canfd then fdFfDataOffset else ffDataOffset

/-- How many bytes of the message a first frame carries -/
def ffMax (cfg : Config) : Nat := maxDlen cfg - ffOffset cfg

/-- How many bytes of the message a consecutive frame carries if `remaining` are left -/
def cfMax (cfg : Config) (remaining : Nat) : Nat :=
  min remaining (dataFrameLen cfg remaining - cfDataOffset)

/-- The header of a single frame with `n` bytes -/
def sfHeader (cfg : Config) (n : Nat) : List UInt8 :=
  if cfg.canfd then [sfType, UInt8.ofNat (n &&& 0xFF)] else [sfType ||| UInt8.ofNat (n &&& 0x0F)]

/-- The header of the first frame of a message of `n` bytes -/
def ffHeader (cfg : Config) (n : Nat) : List UInt8 :=
  if cfg.canfd then
    [ffType, 0, UInt8.ofNat (n >>> 24), UInt8.ofNat (n >>> 16), UInt8.ofNat (n >>> 8),
      UInt8.ofNat n]
  else [ffType ||| (UInt8.ofNat (n >>> 8) &&& 0x0F), UInt8.ofNat n &&& 0xFF]

/-- The first byte of a consecutive frame with this sequence number -/
def cfHeader (sn : Nat) : UInt8 := cfType ||| UInt8.ofNat (sn &&& cfSnMask)

theorem ffHeader_type (b : UInt8) : (ffType ||| (b &&& 0x0F)) &&& frameTypeMask = ffType := by
  have h : ∀ n < 16, (ffType ||| UInt8.ofNat n) &&& frameTypeMask = ffType := by decide
  have hle : (b &&& 0x0F).toNat ≤ 15 := Nat.and_le_right
  rw [← UInt8.ofNat_toNat (x := b &&& 0x0F)]
  exact h _ (Nat.lt_succ_of_le hle)

theorem cfHeader_type (sn : Nat) : cfHeader sn &&& frameTypeMask = cfType := by
  have h : ∀ n < 16, (cfType ||| UInt8.ofNat n) &&& frameTypeMask = cfType := by decide
  exact h _ (Nat.and_lt_two_pow sn (by decide : cfSnMask < 2 ^ 4))

theorem cfHeader_sn (sn : Nat) : (cfHeader sn &&& 0x0F).toNat = sn % 16 := by
  have h : ∀ n < 16, ((cfType ||| UInt8.ofNat n) &&& 0x0F).toNat = n := by decide
  have hmod : sn &&& cfSnMask = sn % 16 := Nat.and_two_pow_sub_one_eq_mod sn 4
  rw [cfHeader, hmod]
  exact h _ (Nat.mod_lt _ (by decide))

/-! ### Headers as they are read -/

/-- A single frame in the classic format is read as one, with its length. -/
theorem sfHeader_classic {n : Nat} (hn : n ≤ 7) :
    (sfType ||| UInt8.ofNat (n &&& 0x0F)) &&& frameTypeMask = sfType ∧
      ((sfType ||| UInt8.ofNat (n &&& 0x0F)) &&& 0x0F).toNat = n := by
  have h : ∀ n < 8, (sfType ||| UInt8.ofNat (n &&& 0x0F)) &&& frameTypeMask = sfType ∧
      ((sfType ||| UInt8.ofNat (n &&& 0x0F)) &&& 0x0F).toNat = n := by decide
  exact h n (by omega)

/-- The two bytes of the length of a first frame in the classic format hold its low twelve bits. -/
theorem ffHeader_classic (n : Nat) :
    ((ffType ||| (UInt8.ofNat (n >>> 8) &&& 0x0F)) &&& 0x0F).toNat <<< 8 |||
      (UInt8.ofNat n &&& 0xFF).toNat = n % 4096 := by
  -- four bits of the length stand next to the frame type
  have hhigh : ((ffType ||| (UInt8.ofNat (n / 256) &&& 0x0F)) &&& 0x0F).toNat = n / 256 % 16 := by
    have h : ∀ k < 16, ((ffType ||| UInt8.ofNat k) &&& 0x0F).toNat = k := by decide
    have hmask : UInt8.ofNat (n / 256) &&& 0x0F = UInt8.ofNat (n / 256 % 16) := by
      refine UInt8.toNat_inj.mp ?_
      rw [UInt8.toNat_and, UInt8.toNat_ofNat', UInt8.toNat_ofNat']
      exact (Nat.and_two_pow_sub_one_eq_mod _ 4).trans (by omega)
    rw [hmask]
    exact h _ (Nat.mod_lt _ (by decide))
  have hdiv : n >>> 8 = n / 256 := Nat.shiftRight_eq_div_pow n 8
  -- and eight in the byte behind it
  have hlow : (UInt8.ofNat n &&& 0xFF).toNat = n % 256 := by
    rw [UInt8.toNat_and, UInt8.toNat_ofNat']
    exact (Nat.and_two_pow_sub_one_eq_mod _ 8).trans (Nat.mod_mod ..)
  rw [hlow, hdiv, hhigh, ← Nat.shiftLeft_add_eq_or_of_lt (by omega : n % 256 < 2 ^ 8),
    Nat.shiftLeft_eq]
  omega

/-! ### Lengths -/

theorem dataFrameLen_le (cfg : Config) (n : Nat) : dataFrameLen cfg n ≤ 64 := by
  unfold dataFrameLen getPaddingLength
  split
  · split
    · exact le_rfl
    · have h : ∀ n ≤ 48, paddingLength.getD n 0 ≤ 64 := by decide
      exact h n (by omega)
  · decide

theorem le_dataFrameLen (cfg : Config) (n : Nat) : 8 ≤ dataFrameLen cfg n := by
  unfold dataFrameLen getPaddingLength
  split
  · split
    · decide
    · have h : ∀ n ≤ 48, 8 ≤ paddingLength.getD n 0 := by decide
      exact h n (by omega)
  · decide

/-- A frame of a segmented message is full. -/
theorem dataFrameLen_of_long {cfg : Config} {n : Nat} (h : sfMax cfg < n) :
    dataFrameLen cfg n = maxDlen cfg := by
  unfold dataFrameLen maxDlen
  unfold sfMax at h
  split
  · next hc =>
    rw [if_pos hc] at h
    exact if_pos (lt_trans (by decide) h)
  · rfl

theorem ffMax_pos (cfg : Config) : 0 < ffMax cfg := by
  unfold ffMax maxDlen ffOffset
  split <;> decide

theorem ffMax_lt_sfMax (cfg : Config) : ffMax cfg < sfMax cfg := by
  unfold ffMax maxDlen ffOffset sfMax
  split <;> decide

theorem cfMax_pos (cfg : Config) {n : Nat} (h : n ≠ 0) : 0 < cfMax cfg n := by
  have := le_dataFrameLen cfg n
  unfold cfMax cfDataOffset
  omega

theorem cfMax_le (cfg : Config) (n : Nat) : cfMax cfg n ≤ n := Nat.min_le_left ..

theorem sfOffset_le (cfg : Config) : 1 ≤ sfOffset cfg ∧ sfOffset cfg ≤ 2 := by
  unfold sfOffset
  split <;> decide

theorem ffOffset_le (cfg : Config) : 2 ≤ ffOffset cfg ∧ ffOffset cfg ≤ 6 := by
  unfold ffOffset
  split <;> decide

/-! ### Frames before their payload -/

section Heads

variable (cfg : Config) (n sn : Nat) (frame : CanFrame)

/-- A single frame with `n` bytes before they are copied: its length and its header are set. -/
def sfHead : CanFrame :=
  let f := { frame with len := dataFrameLen cfg n }.set 0 sfType
  if cfg.canfd then f.set 1 (UInt8.ofNat (n &&& 0xFF)) else f.orAt 0 (UInt8.ofNat (n &&& 0x0F))

/-- A first frame before its payload, with `n` bytes left -/
def ffHead : CanFrame :=
  let f := { frame with len := dataFrameLen cfg n }.set 0 ffType
  if cfg.canfd then
    ((((f.set 1 0).set 2 (UInt8.ofNat (n >>> 24))).set 3 (UInt8.ofNat (n >>> 16))).set 4
      (UInt8.ofNat (n >>> 8))).set 5 (UInt8.ofNat n)
  else (f.orAt 0 (UInt8.ofNat (n >>> 8) &&& 0x0F)).set 1 (UInt8.ofNat n &&& 0xFF)

/-- A consecutive frame before its payload, with `n` bytes left -/
def cfHead : CanFrame :=
  ({ frame with len := dataFrameLen cfg n }.set 0 cfType).orAt 0 (UInt8.ofNat (sn &&& cfSnMask))

@[simp] theorem sfHead_len : (sfHead cfg n frame).len = dataFrameLen cfg n := by
  unfold sfHead
  dsimp only
  split <;> rfl

@[simp] theorem ffHead_len : (ffHead cfg n frame).len = dataFrameLen cfg n := by
  unfold ffHead
  dsimp only
  split <;> rfl

@[simp] theorem cfHead_len : (cfHead cfg n sn frame).len = dataFrameLen cfg n := rfl

/-- **The header is written whole**, whatever the local variable held. -/
theorem slice_sfHead : Mem.slice (sfHead cfg n frame).data 0 (sfOffset cfg) = sfHeader cfg n := by
  cases hc : cfg.canfd <;>
    simp [sfHead, sfOffset, sfHeader, hc, Mem.slice, List.range_succ, fdSfDataOffset, sfDataOffset]

theorem slice_ffHead : Mem.slice (ffHead cfg n frame).data 0 (ffOffset cfg) = ffHeader cfg n := by
  cases hc : cfg.canfd <;>
    simp [ffHead, ffOffset, ffHeader, hc, Mem.slice, List.range_succ, fdFfDataOffset, ffDataOffset,
      Function.update]

theorem slice_cfHead :
    Mem.slice (cfHead cfg n sn frame).data 0 cfDataOffset = [cfHeader sn] := by
  simp [cfHead, cfHeader, Mem.slice, cfDataOffset]

end Heads

/-! ### Wires -/

section Wires

variable {cfg : Config} {buf : LwcanBuffer} {flow : IsotpFlow} {frame f : CanFrame}

/-- A stretch of a buffer behind a header -/
theorem CanFrame.slice_copyFromOffset {off n o : Nat} :
    Mem.slice (f.copyFromOffset off (some buf) n o).data 0 (off + n) =
      Mem.slice f.data 0 off ++ Mem.slice buf.data o n := by
  rw [copyFromOffset_data, Mem.slice_add]
  by_cases hn : n = 0
  · simp [lwcanBufferCopyFromOffset, hn]
  simp only [lwcanBufferCopyFromOffset, if_neg hn]
  rw [Mem.slice_blit_below _ _ _ (Nat.zero_add off).le, Nat.zero_add, Mem.slice_blit_self]
  congr 1
  exact Mem.slice_congr fun i _ => by rw [Nat.zero_add]

/-- The frame may end before the data does. -/
theorem CanFrame.wire_copyFromOffset {off n o : Nat} (hl : f.len ≤ off + n) :
    (f.copyFromOffset off (some buf) n o).wire =
      (Mem.slice f.data 0 off ++ Mem.slice buf.data o n).take f.len := by
  rw [← slice_copyFromOffset, Mem.take_slice _ _ hl]
  rfl

/-- Padding behind all else -/
theorem CanFrame.wire_addPadding {off k : Nat} (hl : f.len = off + k) :
    (f.addPadding cfg off k).wire = Mem.slice f.data 0 off ++ List.replicate k cfg.paddingByte := by
  rw [wire, addPadding_len, addPadding_data, hl, Mem.slice_add,
    Mem.slice_blit_below _ _ _ (Nat.zero_add off).le, Nat.zero_add, Mem.slice_blit_self,
    Mem.slice_const]

/-- A header, data and padding -/
theorem CanFrame.wire_padded {off n o : Nat} (hl : off + n ≤ f.len) :
    ((f.copyFromOffset off (some buf) n o).addPadding cfg (off + n) (f.len - (off + n))).wire =
      Mem.slice f.data 0 off ++ Mem.slice buf.data o n ++
        List.replicate (f.len - (off + n)) cfg.paddingByte := by
  rw [wire_addPadding (by rw [copyFromOffset_len]; omega), slice_copyFromOffset]

/-- A frame's room behind a header, as the source computes it in a `uint8_t` -/
theorem u8_room (cfg : Config) (n : Nat) {off : Nat} (hoff : off ≤ 8) :
    u8 ((dataFrameLen cfg n : Int) - off) = dataFrameLen cfg n - off :=
  u8_sub (hoff.trans (le_dataFrameLen cfg n)) (lt_of_le_of_lt (dataFrameLen_le cfg n) (by decide))

theorem u32_room (cfg : Config) (n : Nat) {off : Nat} (hoff : off ≤ 8) :
    u32 ((dataFrameLen cfg n : Int) - off) = dataFrameLen cfg n - off :=
  u32_sub (hoff.trans (le_dataFrameLen cfg n)) (lt_of_le_of_lt (dataFrameLen_le cfg n) (by decide))

/-- What padding is due behind `n` bytes of data, as the source computes it in a `uint8_t` -/
theorem u8_padding (cfg : Config) {n off : Nat} (h : off + n ≤ dataFrameLen cfg n) :
    u8 ((dataFrameLen cfg n : Int) - ((off : Int) + n)) = dataFrameLen cfg n - (off + n) := by
  have hle := dataFrameLen_le cfg n
  unfold u8
  omega

/-- **What `isotp_fill_sf` makes**: the header, the data as far as the length says, and padding if
the frame is longer. -/
theorem isotpFillSf_frame (b : Option LwcanBuffer) :
    (isotpFillSf cfg b flow frame).2 =
      let f := (sfHead cfg flow.remainingData frame).copyFromOffset
        (sfOffset cfg) b flow.remainingData 0
      if flow.remainingData < f.len - sfOffset cfg then
        f.addPadding cfg (sfOffset cfg + flow.remainingData)
          (f.len - (sfOffset cfg + flow.remainingData))
      else f := by
  have hoff := (sfOffset_le cfg).2
  -- the same with the room taken modulo 256, which is how the code compares it
  have hfill : (isotpFillSf cfg b flow frame).2 =
      let f := (sfHead cfg flow.remainingData frame).copyFromOffset
        (sfOffset cfg) b flow.remainingData 0
      if flow.remainingData < u8 ((f.len : Int) - sfOffset cfg) then
        f.addPadding cfg (sfOffset cfg + flow.remainingData)
          (u8 ((f.len : Int) - (sfOffset cfg + flow.remainingData)))
      else f := rfl
  rw [hfill]
  simp only [CanFrame.copyFromOffset_len, sfHead_len]
  rw [u8_room cfg _ (hoff.trans (by decide))]
  split
  · next hlt => rw [u8_padding cfg (by omega)]
  · rfl

/-- **What `isotp_fill_ff` makes**: the header, and the data that fill the frame. -/
theorem isotpFillFf_frame (b : Option LwcanBuffer) :
    (isotpFillFf cfg b flow frame).2 =
      (ffHead cfg flow.remainingData frame).copyFromOffset (ffOffset cfg) b
        (dataFrameLen cfg flow.remainingData - ffOffset cfg) 0 := by
  have hoff := (ffOffset_le cfg).2
  have hfill : (isotpFillFf cfg b flow frame).2 =
      (ffHead cfg flow.remainingData frame).copyFromOffset (ffOffset cfg) b
        (u32 (((ffHead cfg flow.remainingData frame).len : Int) - ffOffset cfg)) 0 := rfl
  rw [hfill, ffHead_len, u32_room cfg _ (hoff.trans (by decide))]

/-- The offset in the buffer that a consecutive frame is filled from -/
def cfSource (b : Option LwcanBuffer) (n : Nat) : Nat :=
  u32 (((b.elim 0 LwcanBuffer.length : Nat) : Int) - n)

/-- **What `isotp_fill_cf` makes**: the header, and either the last data and padding or the data
that fill the frame. -/
theorem isotpFillCf_frame (b : Option LwcanBuffer) :
    (isotpFillCf cfg b flow frame).2 =
      let f := cfHead cfg flow.remainingData flow.cfSn frame
      let len := dataFrameLen cfg flow.remainingData
      let o := cfSource b flow.remainingData
      if flow.remainingData < len - cfDataOffset then
        (f.copyFromOffset cfDataOffset b flow.remainingData o).addPadding cfg
          (cfDataOffset + flow.remainingData) (len - (cfDataOffset + flow.remainingData))
      else f.copyFromOffset cfDataOffset b (len - cfDataOffset) o := by
  have hoff : cfDataOffset ≤ 8 := by decide
  -- the same with the room and the padding taken modulo 256
  have hfill : (isotpFillCf cfg b flow frame).2 =
      let f := cfHead cfg flow.remainingData flow.cfSn frame
      let len := dataFrameLen cfg flow.remainingData
      let o := cfSource b flow.remainingData
      if flow.remainingData < u8 ((len : Int) - cfDataOffset) then
        (f.copyFromOffset cfDataOffset b flow.remainingData o).addPadding cfg
          (flow.remainingData + cfDataOffset)
          (u8 ((len : Int) - (cfDataOffset + flow.remainingData)))
      else f.copyFromOffset cfDataOffset b (u32 ((len : Int) - cfDataOffset)) o :=
    apply_ite Prod.snd _ _ _
  rw [hfill]
  dsimp only
  rw [u8_room cfg _ hoff, u32_room cfg _ hoff]
  split
  · next hlt => rw [u8_padding cfg (by omega), Nat.add_comm flow.remainingData]
  · rfl

/-- The length of a data frame depends on what is left only. -/
@[simp] theorem isotpFillSf_len (b : Option LwcanBuffer) :
    (isotpFillSf cfg b flow frame).2.len = dataFrameLen cfg flow.remainingData := by
  rw [isotpFillSf_frame]
  dsimp only
  split
  · rw [CanFrame.addPadding_len, CanFrame.copyFromOffset_len, sfHead_len]
  · rw [CanFrame.copyFromOffset_len, sfHead_len]

@[simp] theorem isotpFillFf_len (b : Option LwcanBuffer) :
    (isotpFillFf cfg b flow frame).2.len = dataFrameLen cfg flow.remainingData := by
  rw [isotpFillFf_frame, CanFrame.copyFromOffset_len, ffHead_len]

@[simp] theorem isotpFillCf_len (b : Option LwcanBuffer) :
    (isotpFillCf cfg b flow frame).2.len = dataFrameLen cfg flow.remainingData := by
  rw [isotpFillCf_frame]
  dsimp only
  split
  · rw [CanFrame.addPadding_len, CanFrame.copyFromOffset_len, cfHead_len]
  · rw [CanFrame.copyFromOffset_len, cfHead_len]

/-- `remaining_data` after a first frame, as the source computes it in a `uint32_t` -/
theorem isotpFillFf_left (b : Option LwcanBuffer) :
    (isotpFillFf cfg b flow frame).1 =
      { flow with
        remainingData := u32 ((flow.remainingData : Int) -
          ((dataFrameLen cfg flow.remainingData : Int) - ffOffset cfg)) } := by
  have hfill : (isotpFillFf cfg b flow frame).1 =
      { flow with
        remainingData := u32 ((flow.remainingData : Int) -
          (((ffHead cfg flow.remainingData frame).len : Int) - ffOffset cfg)) } := rfl
  rw [hfill, ffHead_len]

/-- **What is left after a first frame** that has as much to carry as it has room for -/
theorem isotpFillFf_flow (b : Option LwcanBuffer)
    (h : dataFrameLen cfg flow.remainingData - ffOffset cfg ≤ flow.remainingData)
    (hl : flow.remainingData < 4294967296) :
    (isotpFillFf cfg b flow frame).1 =
      { flow with
        remainingData := flow.remainingData -
          (dataFrameLen cfg flow.remainingData - ffOffset cfg) } := by
  have hge := le_dataFrameLen cfg flow.remainingData
  have hoff := (ffOffset_le cfg).2
  rw [isotpFillFf_left]
  congr 1
  unfold u32
  omega

/-- `remaining_data` after a consecutive frame -/
theorem isotpFillCf_left (b : Option LwcanBuffer) :
    (isotpFillCf cfg b flow frame).1 =
      if flow.remainingData < u8 ((dataFrameLen cfg flow.remainingData : Int) - cfDataOffset) then
        { flow with remainingData := u32 ((flow.remainingData : Int) - flow.remainingData) }
      else
        { flow with
          remainingData := u32 ((flow.remainingData : Int) -
            ((dataFrameLen cfg flow.remainingData : Int) - cfDataOffset)) } :=
  apply_ite Prod.fst _ _ _

/-- **What is left after a consecutive frame** -/
theorem isotpFillCf_flow (b : Option LwcanBuffer) (hl : flow.remainingData < 4294967296) :
    (isotpFillCf cfg b flow frame).1 =
      { flow with remainingData := flow.remainingData - cfMax cfg flow.remainingData } := by
  have hge := le_dataFrameLen cfg flow.remainingData
  have hoff : cfDataOffset = 1 := rfl
  have hmax : cfMax cfg flow.remainingData =
      min flow.remainingData (dataFrameLen cfg flow.remainingData - cfDataOffset) := rfl
  rw [isotpFillCf_left, u8_room cfg _ (by decide)]
  -- what is left fits the frame, or the frame is filled
  split
  · next hlt => rw [u32_self_sub, hmax, Nat.min_eq_left hlt.le, Nat.sub_self]
  · next hfull =>
    rw [hmax, Nat.min_eq_right (not_lt.mp hfull)]
    congr 1
    unfold u32
    omega

/-- **The wire of a single frame**, which ends where its length says even if the data goes on. -/
theorem isotpFillSf_wire :
    (isotpFillSf cfg (some buf) flow frame).2.wire =
      (sfHeader cfg flow.remainingData ++ Mem.slice buf.data 0 flow.remainingData ++
        List.replicate (dataFrameLen cfg flow.remainingData - (sfOffset cfg + flow.remainingData))
          cfg.paddingByte).take (dataFrameLen cfg flow.remainingData) := by
  have hge := le_dataFrameLen cfg flow.remainingData
  have hoff := (sfOffset_le cfg).2
  rw [isotpFillSf_frame]
  simp only [CanFrame.copyFromOffset_len, sfHead_len]
  have hlen : (sfHeader cfg flow.remainingData).length = sfOffset cfg := by
    rw [← slice_sfHead cfg _ frame, Mem.length_slice]
  -- the data leaves room for padding, or fills the frame
  split
  · next hlt =>
    have hw := @CanFrame.wire_padded cfg buf (sfHead cfg flow.remainingData frame) (sfOffset cfg)
      flow.remainingData 0 (by rw [sfHead_len]; omega)
    rw [sfHead_len, slice_sfHead] at hw
    rw [hw, List.take_of_length_le]
    simp only [List.length_append, hlen, Mem.length_slice, List.length_replicate]
    omega
  · next hge' =>
    rw [CanFrame.wire_copyFromOffset (by rw [sfHead_len]; omega), slice_sfHead, sfHead_len,
      show dataFrameLen cfg flow.remainingData - (sfOffset cfg + flow.remainingData) = 0 by omega]
    simp

/-- **The wire of a first frame** -/
theorem isotpFillFf_wire :
    (isotpFillFf cfg (some buf) flow frame).2.wire =
      ffHeader cfg flow.remainingData ++
        Mem.slice buf.data 0 (dataFrameLen cfg flow.remainingData - ffOffset cfg) := by
  have hge := le_dataFrameLen cfg flow.remainingData
  have hoff := (ffOffset_le cfg).2
  have hlen : (ffHeader cfg flow.remainingData).length = ffOffset cfg := by
    rw [← slice_ffHead cfg _ frame, Mem.length_slice]
  rw [isotpFillFf_frame, CanFrame.wire_copyFromOffset (by rw [ffHead_len]; omega), slice_ffHead,
    ffHead_len, List.take_of_length_le]
  rw [List.length_append, hlen, Mem.length_slice]
  omega

/-- **The wire of a consecutive frame** -/
theorem isotpFillCf_wire :
    (isotpFillCf cfg (some buf) flow frame).2.wire =
      cfHeader flow.cfSn :: (Mem.slice buf.data (cfSource (some buf) flow.remainingData)
          (cfMax cfg flow.remainingData) ++
        List.replicate (dataFrameLen cfg flow.remainingData - cfDataOffset -
          cfMax cfg flow.remainingData) cfg.paddingByte) := by
  have hge := le_dataFrameLen cfg flow.remainingData
  have hoff : cfDataOffset = 1 := rfl
  rw [isotpFillCf_frame]
  dsimp only
  -- the data leaves room for padding, or fills the frame
  split
  · next hlt =>
    have hmax : cfMax cfg flow.remainingData = flow.remainingData := Nat.min_eq_left hlt.le
    have hw := @CanFrame.wire_padded cfg buf (cfHead cfg flow.remainingData flow.cfSn frame)
      cfDataOffset flow.remainingData (cfSource (some buf) flow.remainingData)
      (by rw [cfHead_len]; omega)
    rw [cfHead_len, slice_cfHead] at hw
    rw [hw, hmax, Nat.sub_sub]
    exact List.append_assoc _ _ _
  · next hfull =>
    have hmax : cfMax cfg flow.remainingData = dataFrameLen cfg flow.remainingData - cfDataOffset :=
      Nat.min_eq_right (not_lt.mp hfull)
    rw [CanFrame.wire_copyFromOffset (by rw [cfHead_len]; omega), slice_cfHead, cfHead_len, hmax,
      Nat.sub_self, List.take_of_length_le]
    · simp
    · rw [List.length_append, Mem.length_slice, List.length_singleton]
      omega

/-- Filling a frame leaves its identifier alone. -/
theorem isotpFillSf_canId (b : Option LwcanBuffer) :
    (isotpFillSf cfg b flow frame).2.canId = frame.canId := by
  unfold isotpFillSf
  simp only
  split <;> split <;> rfl

theorem isotpFillFf_canId (b : Option LwcanBuffer) :
    (isotpFillFf cfg b flow frame).2.canId = frame.canId := by
  unfold isotpFillFf
  simp only
  split <;> rfl

theorem isotpFillCf_canId (b : Option LwcanBuffer) :
    (isotpFillCf cfg b flow frame).2.canId = frame.canId := by
  unfold isotpFillCf
  simp only
  split <;> rfl

theorem isotpFillFc_canId : (isotpFillFc cfg flow frame).canId = frame.canId := by
  unfold isotpFillFc
  simp only
  split <;> rfl

/-- **A single frame** in the classic format carries the whole message. -/
theorem isotpFillSf_classic (buf : LwcanBuffer) (flow : IsotpFlow) (frame : CanFrame)
    (hc : cfg.canfd = false) (hl : flow.remainingData ≤ 7) :
    (isotpFillSf cfg (some buf) flow frame).1 = { flow with remainingData := 0 } ∧
      (isotpFillSf cfg (some buf) flow frame).2.wire =
        sfHeader cfg flow.remainingData ++ Mem.slice buf.data 0 flow.remainingData ++
          List.replicate (7 - flow.remainingData) cfg.paddingByte := by
  have hlen : dataFrameLen cfg flow.remainingData = 8 := by simp [dataFrameLen, hc, canMaxDlen]
  have hoff : sfOffset cfg = 1 := by simp [sfOffset, hc, sfDataOffset]
  have hhead : (sfHeader cfg flow.remainingData).length = 1 := by simp [sfHeader, hc]
  refine ⟨congrArg (fun n => { flow with remainingData := n }) (u32_self_sub _), ?_⟩
  rw [isotpFillSf_wire, hlen, hoff, show 8 - (1 + flow.remainingData) =
    7 - flow.remainingData by omega, List.take_of_length_le]
  simp only [List.length_append, hhead, Mem.length_slice, List.length_replicate]
  omega

/-- **A first frame** carries the front of the message. -/
theorem isotpFillFf_eq (cfg : Config) (buf : LwcanBuffer) (flow : IsotpFlow) (frame : CanFrame)
    (h : sfMax cfg < flow.remainingData) (hl : flow.remainingData < 4294967296) :
    (isotpFillFf cfg (some buf) flow frame).1 =
        { flow with remainingData := flow.remainingData - ffMax cfg } ∧
      (isotpFillFf cfg (some buf) flow frame).2.wire =
        ffHeader cfg flow.remainingData ++ Mem.slice buf.data 0 (ffMax cfg) := by
  have hlt := ffMax_lt_sfMax cfg
  have hlen := dataFrameLen_of_long h
  constructor
  · rw [isotpFillFf_flow _ (by rw [hlen]; exact (hlt.trans h).le) hl, hlen]
    rfl
  · rw [isotpFillFf_wire, hlen]
    rfl

/-- **A consecutive frame** carries the next bytes of the message. -/
theorem isotpFillCf_eq (cfg : Config) (buf : LwcanBuffer) (flow : IsotpFlow) (frame : CanFrame)
    (hb : flow.remainingData ≤ buf.length) (hl : buf.length < 4294967296) :
    (isotpFillCf cfg (some buf) flow frame).1 =
        { flow with remainingData := flow.remainingData - cfMax cfg flow.remainingData } ∧
      (isotpFillCf cfg (some buf) flow frame).2.wire =
        cfHeader flow.cfSn :: (Mem.slice buf.data (buf.length - flow.remainingData)
            (cfMax cfg flow.remainingData) ++
          List.replicate (dataFrameLen cfg flow.remainingData - cfDataOffset -
            cfMax cfg flow.remainingData) cfg.paddingByte) := by
  have hoff : cfSource (some buf) flow.remainingData = buf.length - flow.remainingData :=
    u32_sub hb hl
  refine ⟨isotpFillCf_flow _ (by omega), ?_⟩
  rw [isotpFillCf_wire, hoff]

/-- **A flow-control frame** carries status, block size and separation time. -/
theorem isotpFillFc_wire : (isotpFillFc cfg flow frame).wire =
    [fcType ||| UInt8.ofNat (flow.fs &&& 0x0F), UInt8.ofNat flow.bs, UInt8.ofNat flow.st] ++
      List.replicate 5 cfg.paddingByte := by
  have hpad : u8 ((canMaxDlen : Int) - fcPaddingOffset) = 5 := by decide
  unfold isotpFillFc
  simp only [CanFrame.set_len, CanFrame.orAt_len, hpad]
  rw [if_pos (by decide), CanFrame.wire_addPadding rfl]
  simp [Mem.slice, fcPaddingOffset, List.range_succ, Function.update]

end Wires

end Lwcan
