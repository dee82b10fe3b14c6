import Mathlib.Order.Fin.Basic
import Mathlib.Order.GaloisConnection.Basic
import Lwcan.BlockSize
import Lwcan.CleanFrames

/-!
# Frame lengths and their codes (`src/length.c`)

A CAN FD frame has one of sixteen lengths, and the bus carries its code, the DLC. A driver turns
lengths into codes with `can_fd_len2dlc` and back with `can_fd_dlc2len`; a frame whose length has no
code of its own comes out longer at the other end.

* `dlcGalois` — a length has the code of the next length there is: the two functions are adjoint;
* `getPaddingLength_eq` — `get_padding_length` in `isotp.c`, with a table of its own, pads to that
  length;
* `OnBus` — what a frame of ISO-TP looks like, and `frames_on_bus` that every frame handed to a
  driver does.
-/

namespace Lwcan

/-! ### The tables -/

/-- `dlc_to_length` -/
def dlcToLength : List Nat := [0, 1, 2, 3, 4, 5, 6, 7, 8, 12, 16, 20, 24, 32, 48, 64]

/-- `length_to_dlc` -/
def lengthToDlc : List Nat :=
  [0, 1, 2, 3, 4, 5, 6, 7, 8,
    9, 9, 9, 9,
    10, 10, 10, 10,
    11, 11, 11, 11,
    12, 12, 12, 12,
    13, 13, 13, 13, 13, 13, 13, 13,
    14, 14, 14, 14, 14, 14, 14, 14,
    14, 14, 14, 14, 14, 14, 14, 14,
    15, 15, 15, 15, 15, 15, 15, 15,
    15, 15, 15, 15, 15, 15, 15, 15]

/-- `CANFD_MAX_DLC` -/
def canfdMaxDlc : Nat := 15

/-- `can_fd_dlc2len(dlc)` -/
def canFdDlc2len (dlc : Nat) : Nat := dlcToLength.getD (dlc &&& 0x0F) 0

/-- `can_fd_len2dlc(length)` -/
def canFdLen2dlc (length : Nat) : Nat :=
  if canfdMaxDlen < length then canfdMaxDlc else lengthToDlc.getD length 0

/-! ### Codes and lengths -/

theorem canFdLen2dlc_lt (l : Nat) : canFdLen2dlc l < 16 := by
  unfold canFdLen2dlc
  split
  · decide
  · next hl =>
    have h : ∀ l ≤ 64, lengthToDlc.getD l 0 < 16 := by decide
    exact h l (not_lt.mp hl)

theorem canFdDlc2len_lt (d : Nat) : canFdDlc2len d < 65 := by
  have h : ∀ d < 16, dlcToLength.getD d 0 < 65 := by decide
  unfold canFdDlc2len
  exact h _ (Nat.lt_of_le_of_lt Nat.and_le_right (by decide))

/-- The code of a length -/
def codeOf (l : Fin 65) : Fin 16 := ⟨canFdLen2dlc l, canFdLen2dlc_lt l⟩

/-- The length a code stands for -/
def lengthOf (d : Fin 16) : Fin 65 := ⟨canFdDlc2len d, canFdDlc2len_lt d⟩

/-- **The two functions are adjoint**: a length has the least code that stands for as much. -/
theorem dlcGalois : GaloisConnection codeOf lengthOf := by
  intro l d
  revert l d
  decide

/-- **A length that a code stands for** comes back. -/
theorem canFdDlc2len_roundTrip {n d : Nat} (hd : d < 16) (hn : n = canFdDlc2len d) :
    canFdDlc2len (canFdLen2dlc n) = n := by
  have h := dlcGalois.u_l_u_eq_u ⟨d, hd⟩
  rw [hn]
  exact congrArg Fin.val h

/-- **The padding of `isotp.c`**: the next length that a code stands for, and no less than eight
bytes. -/
theorem getPaddingLength_eq (n : Nat) : getPaddingLength n = max 8
    (canFdDlc2len (canFdLen2dlc n)) := by
  by_cases hn : n ≤ 64
  · have h : ∀ n ≤ 64, getPaddingLength n = max 8 (canFdDlc2len (canFdLen2dlc n)) := by decide
    exact h n hn
  -- behind the end of both tables
  · unfold getPaddingLength canFdLen2dlc
    have hlong : canfdMaxDlen < n := not_le.mp hn
    rw [if_pos (by omega), if_pos hlong]
    rfl

/-- The length of a data frame has a code of its own. -/
theorem dataFrameLen_code (cfg : Config) (n : Nat) :
    ∃ d < 16, dataFrameLen cfg n = canFdDlc2len d := by
  unfold dataFrameLen
  split
  · rw [getPaddingLength_eq]
    rcases max_choice 8 (canFdDlc2len (canFdLen2dlc n)) with h | h
    · exact ⟨8, by decide, h⟩
    · exact ⟨canFdLen2dlc n, canFdLen2dlc_lt n, h⟩
  · exact ⟨8, by decide, rfl⟩

/-! ### A frame on the bus -/

/-- The types of the frames that a flow of this direction sends -/
def Dir.frameTypes : Dir → List UInt8
  | .output => [sfType, ffType, cfType]
  | .input => [fcType]

/-- **A frame of ISO-TP on the bus**: it fills eight bytes at least and fits the build, its length
comes through the DLC as it is, and its first byte says what it is. -/
structure OnBus (cfg : Config) (d : Dir) (wire : List UInt8) : Prop where
  min : canMaxDlen ≤ wire.length
  max : wire.length ≤ maxDlen cfg
  dlc : canFdDlc2len (canFdLen2dlc wire.length) = wire.length
  type : ∃ b ∈ wire.head?, b &&& frameTypeMask ∈ d.frameTypes

section Fill

variable {cfg : Config} {b : Option LwcanBuffer} {flow : IsotpFlow} {f : CanFrame}
  {filled : IsotpFlow × CanFrame} {n : Nat} {d : Dir}

theorem CanFrame.length_wire (f : CanFrame) : f.wire.length = f.len := Mem.length_slice _ _ _

/-- A data frame is on the bus as it should be if its first byte is. -/
theorem OnBus.of_len (hlen : f.len = dataFrameLen cfg n)
    (hb : f.data 0 &&& frameTypeMask ∈ d.frameTypes) : OnBus cfg d f.wire := by
  obtain ⟨c, hc, hcode⟩ := dataFrameLen_code cfg n
  have hge := le_dataFrameLen cfg n
  refine ⟨?_, ?_, ?_, f.data 0, ?_, hb⟩
  · rw [f.length_wire, hlen]
    exact hge
  · rw [f.length_wire, hlen]
    exact dataFrameLen_le_maxDlen cfg n
  · rw [f.length_wire, hlen]
    exact canFdDlc2len_roundTrip hc hcode
  · unfold CanFrame.wire
    rw [hlen, List.head?_eq_getElem?, Mem.getElem?_slice, if_pos (by omega)]
    rfl

/-- What is written behind the first byte leaves it alone. -/
theorem CanFrame.copyFromOffset_first {off : Nat} (hoff : 0 < off) (n o : Nat) :
    (f.copyFromOffset off b n o).data 0 = f.data 0 := by
  rw [copyFromOffset_data]
  unfold lwcanBufferCopyFromOffset
  cases b with
  | none => rfl
  | some buf =>
    dsimp only
    split
    · rfl
    · exact if_neg fun h => absurd h.1 (by omega)

theorem CanFrame.addPadding_first {off : Nat} (hoff : 0 < off) (k : Nat) :
    (f.addPadding cfg off k).data 0 = f.data 0 := by
  rw [addPadding_data]
  exact if_neg fun h => absurd h.1 (by omega)

theorem CanFrame.set_first (f : CanFrame) (x : UInt8) : (f.set 0 x).data 0 = x := by
  unfold set
  exact Function.update_self 0 x f.data

theorem CanFrame.set_behind (f : CanFrame) {i : Nat} (hi : 0 ≠ i) (x : UInt8) :
    (f.set i x).data 0 = f.data 0 := by
  unfold set
  exact Function.update_of_ne hi x f.data

/-- What is or-ed into the low half of the first byte leaves the type alone. -/
theorem type_or {t : UInt8} (ht : t &&& frameTypeMask = t) (n : Nat) :
    (t ||| UInt8.ofNat (n &&& 0x0F)) &&& frameTypeMask = t := by
  have hzero : ∀ k < 16, UInt8.ofNat k &&& frameTypeMask = 0 := by decide
  have hlow : n &&& 0x0F < 16 := Nat.lt_of_le_of_lt Nat.and_le_right (by decide)
  -- no enumeration of the types: the mask distributes
  have hdistrib : (t ||| UInt8.ofNat (n &&& 0x0F)) &&& frameTypeMask =
      (t &&& frameTypeMask) ||| (UInt8.ofNat (n &&& 0x0F) &&& frameTypeMask) :=
    UInt8.toBitVec_inj.mp BitVec.and_or_distrib_right
  rw [hdistrib, ht, hzero _ hlow, UInt8.or_zero]

/-- **The first byte of each frame** says what it is. -/
theorem sfHead_first (cfg : Config) (n : Nat) (f : CanFrame) :
    (sfHead cfg n f).data 0 &&& frameTypeMask = sfType := by
  unfold sfHead CanFrame.orAt
  dsimp only
  split
  -- in a CAN FD build the length has a byte of its own
  · rw [CanFrame.set_behind _ (by decide), CanFrame.set_first]
    rfl
  · rw [CanFrame.set_first, CanFrame.set_first]
    exact type_or (by decide) n

theorem ffHead_first (cfg : Config) (n : Nat) (f : CanFrame) :
    (ffHead cfg n f).data 0 &&& frameTypeMask = ffType := by
  unfold ffHead CanFrame.orAt
  dsimp only
  split
  · iterate 5 rw [CanFrame.set_behind _ (by decide)]
    rw [CanFrame.set_first]
    rfl
  · rw [CanFrame.set_behind _ (by decide), CanFrame.set_first, CanFrame.set_first]
    exact ffHeader_type _

theorem cfHead_first (cfg : Config) (n sn : Nat) (f : CanFrame) :
    (cfHead cfg n sn f).data 0 &&& frameTypeMask = cfType := by
  unfold cfHead CanFrame.orAt
  rw [CanFrame.set_first, CanFrame.set_first]
  exact cfHeader_type sn

/-- The message and its padding are written behind the head of a single frame. -/
theorem isotpFillSf_first (cfg : Config) (b : Option LwcanBuffer) (flow : IsotpFlow)
    (f : CanFrame) : (isotpFillSf cfg b flow f).2.data 0 &&& frameTypeMask = sfType := by
  have hoff := (sfOffset_le cfg).1
  rw [isotpFillSf_frame]
  dsimp only
  split
  · rw [CanFrame.addPadding_first (by omega), CanFrame.copyFromOffset_first (by omega),
      sfHead_first]
  · rw [CanFrame.copyFromOffset_first (by omega), sfHead_first]

theorem isotpFillFf_first (cfg : Config) (b : Option LwcanBuffer) (flow : IsotpFlow)
    (f : CanFrame) : (isotpFillFf cfg b flow f).2.data 0 &&& frameTypeMask = ffType := by
  have hoff := (ffOffset_le cfg).1
  rw [isotpFillFf_frame, CanFrame.copyFromOffset_first (by omega), ffHead_first]

theorem isotpFillCf_first (cfg : Config) (b : Option LwcanBuffer) (flow : IsotpFlow)
    (f : CanFrame) : (isotpFillCf cfg b flow f).2.data 0 &&& frameTypeMask = cfType := by
  have hoff : 0 < cfDataOffset := by decide
  rw [isotpFillCf_frame]
  dsimp only
  split
  · rw [CanFrame.addPadding_first (by omega), CanFrame.copyFromOffset_first hoff, cfHead_first]
  · rw [CanFrame.copyFromOffset_first hoff, cfHead_first]

/-- **What an output flow fills** is on the bus as it should be. -/
theorem isotpFill_onBus (h : isotpFill cfg b flow f = some (filled, n)) :
    OnBus cfg .output filled.2.wire := by
  unfold isotpFill at h
  -- the state of the flow says which frame it is
  split at h
  · obtain ⟨rfl, -⟩ := Prod.mk.inj (Option.some.inj h)
    apply OnBus.of_len (isotpFillSf_len b)
    rw [isotpFillSf_first]
    decide
  · obtain ⟨rfl, -⟩ := Prod.mk.inj (Option.some.inj h)
    apply OnBus.of_len (isotpFillFf_len b)
    rw [isotpFillFf_first]
    decide
  · obtain ⟨rfl, -⟩ := Prod.mk.inj (Option.some.inj h)
    apply OnBus.of_len (isotpFillCf_len b)
    rw [isotpFillCf_first]
    decide
  · cases h

/-- **Flow control** is on the bus as it should be. -/
theorem isotpFillFc_onBus (cfg : Config) (flow : IsotpFlow) (f : CanFrame) :
    OnBus cfg .input (isotpFillFc cfg flow f).wire := by
  have hlen : (isotpFillFc cfg flow f).wire.length = 8 := by
    rw [isotpFillFc_wire, List.length_append, List.length_replicate]
    rfl
  have hmax := le_maxDlen cfg
  refine ⟨?_, ?_, ?_, fcType ||| UInt8.ofNat (flow.fs &&& 0x0F), ?_, ?_⟩
  · rw [hlen]
    exact Nat.le_refl 8
  · rwa [hlen]
  · rw [hlen]
    rfl
  · rw [isotpFillFc_wire]
    rfl
  · rw [type_or (by decide)]
    decide

end Fill

/-! ### Every frame of a run -/

/-- The bytes of a frame that is handed to a driver -/
def Obs.handed : Obs → Option (List UInt8)
  | .output _ _ _ wire _ _ => some wire
  | .send _ _ | .receive _ _ _ _ | .receiveFf _ _ | .sent _ _ _ | .error _ _ _ | .opened _ _ _
  | .consecutive _ _ | .flowControl _ _ _ _ | .waitFc _ | .store _ _ _ _ | .dropped _ _
  | .released _ _ => none

/-- Every frame that a log hands over looks as it should. -/
def Framed (cfg : Config) (d : Dir) (log : List Obs) : Prop :=
  ∀ o ∈ log, ∀ w ∈ o.handed, OnBus cfg d w

namespace Framed

variable {cfg : Config} {s : Node} {d : Dir} {k : FlowId} {p : Nat} {v v' : View} {e : Event}
  {o : Obs} {c : Bool} {arg : Ptr} {err : Lwcanerr} {log : List Obs}

theorem snoc (h : Framed cfg d log) (ho : ∀ w ∈ o.handed, OnBus cfg d w) :
    Framed cfg d (log ++ [o]) := by
  intro o' hm
  rcases List.mem_append.mp hm with hm | hm
  · exact h o' hm
  · rw [List.mem_singleton.mp hm]
    exact ho

/-- An entry that is no frame -/
theorem emit (h : Framed cfg d log) (ho : o.handed = none) : Framed cfg d (log ++ [o]) := by
  apply h.snoc
  rw [ho]
  nofun

theorem emitIf (h : Framed cfg d v.log) (ho : o.handed = none) :
    Framed cfg d (v.emitIf c o).log := by
  unfold View.emitIf
  split
  · exact h.emit ho
  · exact h

/-- A frame that is handed over -/
theorem handOver {canif canId timeout : Nat} {wire : List UInt8} {ret : Lwcanerr}
    (h : Framed cfg d log)
    (hw : OnBus cfg d wire) : Framed cfg d (log ++ [.output k canif canId wire timeout ret]) := by
  apply h.snoc
  intro w hm
  obtain rfl := Option.some.inj hm
  exact hw

theorem fail (h : Framed cfg d v.log) : Framed cfg d (v.fail k c arg err).log := by
  have hdrop : Framed cfg d ((v.drop k).setState .idle).log := h.emit rfl
  exact hdrop.emitIf rfl

theorem refused {pcb : IsotpPcb} (h : Framed cfg d v.log) :
    Framed cfg d (v.refused k pcb err).log := by
  unfold View.refused
  dsimp only
  split
  · exact (h.emit rfl).emit rfl
  · exact h.emit rfl

theorem deliver {pcb : IsotpPcb} (h : Framed cfg d v.log) : Framed cfg d (v.deliver pcb p).log := by
  unfold View.deliver
  split
  · exact h
  · split
    · exact h.emit rfl
    · exact h.emit rfl

theorem outputSwitch {slot : Bool} {pcb : IsotpPcb} (h : Framed cfg d v.log)
    (hst : OutputSwitch pcb p slot v v') : Framed cfg d v'.log := by
  cases hst with
  | skip => exact h
  | complete =>
    have hdone : Framed cfg d (v.removeHead.setState .idle).log := h
    exact hdone.emitIf rfl
  | ff | block => exact h.emit rfl
  | cf => exact h

theorem inputSwitch {slot : Bool} {pcb : IsotpPcb} (h : Framed cfg d v.log)
    (hst : InputSwitch pcb p slot v v') : Framed cfg d v'.log := by
  cases hst with
  | skip => exact h
  | abort =>
    have hidle : Framed cfg d (v.setState .idle).log := h
    exact hidle.emitIf rfl
  | ready => exact h

/-- **Every transition of an output flow** hands over what looks as it should. -/
theorem output_step (h : Framed cfg .output v.log) (hst : OutputStep cfg s p v e v') :
    Framed cfg .output v'.log := by
  cases hst with
  | send => exact h.emit rfl
  | skip => exact h
  -- the only frames: what the state of the flow fills, whether the driver takes it or not
  | output hf hc ht hfl => exact h.handOver (isotpFill_onBus hfl)
  | reject hf hc ht hfl hr => exact (h.handOver (isotpFill_onBus hfl)).fail
  | expire => exact fail (v := { v with err := v.err - 1 }) h
  | confirm hs hw => exact outputSwitch (v := { v with confirms := v.confirms - 1 }) h hw
  | resume hs hw => exact outputSwitch (v := { v with suspended := none }) h hw
  | refuse => exact refused (v := { v with confirms := v.confirms - 1 }) h
  | wait | proceed => exact h.emit rfl
  | abort => exact (h.emit rfl).fail
  | new => exact h

/-- A first frame is stored, and its flow control is due. -/
theorem ffStore {frame : CanFrame} {b : Nat} {buf : LwcanBuffer} {slot : Bool}
    (h : Framed cfg d v.log) : Framed cfg d (v.ffStore cfg p frame b buf slot).log :=
  (h.emit rfl).emit rfl

/-- A consecutive frame is stored. -/
theorem storeCf {frame : CanFrame} (h : Framed cfg d v.log) :
    Framed cfg d
      (({ v with err := v.err - 1 }.emit (.consecutive p frame.wire)).storeCf p frame.data
      frame.len).log :=
  (h.emit rfl).emit rfl

/-- **Every transition of an input flow** hands over what looks as it should. -/
theorem input_step (h : Framed cfg .input v.log) (hst : InputStep cfg s p v e v') :
    Framed cfg .input v'.log := by
  cases hst with
  | sfMemory => exact h.emitIf rfl
  | sf => exact ((h.emit rfl).emit rfl).deliver
  | ffMemory | resumeFfMemory | skip | new => exact h
  | ffMemoryCallback | ffCallback => exact h.emit rfl
  | ff => exact h.ffStore
  | resumeFf => exact ffStore (v := { v with suspended := none }) h
  | cfWrong => exact (h.emit rfl).emit rfl
  | cfLast hp ht hs hn hv =>
    rw [hv]
    exact deliver (v := (View.storeCf ..).setState .idle) h.storeCf
  | cf hp ht hs hn hv | block hp ht hs hn hv =>
    rw [hv]
    exact h.storeCf
  -- the only frames: flow control, whether the driver takes it or not
  | output => exact h.handOver (isotpFillFc_onBus ..)
  | reject => exact (h.handOver (isotpFillFc_onBus ..)).fail
  | expire => exact fail (v := { v with err := v.err - 1 }) h
  | confirm hs hw => exact inputSwitch (v := { v with confirms := v.confirms - 1 }) h hw
  | resume hs hw => exact inputSwitch (v := { v with suspended := none }) h hw
  | refuse => exact refused (v := { v with confirms := v.confirms - 1 }) h
  | release => exact h.emit rfl

end Framed

namespace Node

variable {cfg : Config} {es : List Event} {s s' : Node} {e : Event}

/-- **A step** of a node hands over what looks as it should. -/
theorem framed_step (hs : Sound s) (h : ∀ k, Framed cfg k.2 (s.view k).log)
    (hst : step cfg s e = some s') : ∀ k, Framed cfg k.2 (s'.view k).log := by
  rintro ⟨p, d⟩
  cases d with
  | output =>
    rcases (hs.moves hst).output p with heq | hm
    · rw [heq]
      exact h _
    · exact (h (p, .output)).output_step hm
  | input =>
    rcases (hs.moves hst).input p with heq | hm
    · rw [heq]
      exact h _
    · exact (h (p, .input)).input_step hm

/-- **Every frame that ISO-TP hands to a driver is fit for the bus**, in every run and either build:
it has eight bytes at least and no more than the build's frames hold, its length comes back from its
DLC as it is, and its first byte says what it is: a data frame, or flow control from a flow that
receives. -/
theorem frames_on_bus (hr : Run cfg es s) {k : FlowId} {canif canId timeout : Nat}
    {wire : List UInt8}
    {ret : Lwcanerr} (ho : .output k canif canId wire timeout ret ∈ s.log) :
    OnBus cfg k.2 wire := by
  have hinit : ∀ k, Framed cfg k.2 ((lwcanInit cfg).view k).log := by
    intro k
    rw [view_lwcanInit]
    nofun
  have hall : Sound s ∧ ∀ k, Framed cfg k.2 (s.view k).log :=
    Runs.run_inv (I := fun s => Sound s ∧ ∀ k, Framed cfg k.2 (s.view k).log) (C := fun _ _ => True)
      (fun _ _ _ h _ hst => ⟨h.1.step hst, framed_step h.1 h.2 hst⟩) ⟨Sound.initial cfg, hinit⟩
      (Runs.Along.trivial _ _) hr
  refine hall.2 k (.output k canif canId wire timeout ret) ?_ wire rfl
  exact List.mem_filter.mpr ⟨ho, decide_eq_true rfl⟩

/-- Nine bytes in one CAN FD frame, padded to twelve -/
theorem frames_on_bus_padded : ∃ s, Run { canfd := true } (firstSent 9) s ∧
    OnBus { canfd := true } .output ([0, 9] ++ List.replicate 9 0 ++ [0xAA]) := by
  obtain ⟨s, hr, ho⟩ := exists_run { canfd := true } (firstSent 9) (fun s =>
    .output (0, .output) 0 0x7E0 ([0, 9] ++ List.replicate 9 0 ++ [0xAA]) 1000 .ok ∈ s.log)
      (by decide)
  exact ⟨s, hr, frames_on_bus hr ho⟩

end Node
end Lwcan
