import Lwcan.Reachable

/-!
# Reassembly stays inside the receive buffer

A message under reassembly has a buffer of the announced length at the head of the input flow, and
what is still missing of it is `remaining_data`. Each of the three store functions copies as many
bytes as a subtraction of unsigned numbers says: `len - offset`, which neither the frame's length
nor the announced length bounds.

* `FramesFit` — the two subtractions do not go wrong: a first frame carries no more than it
  announces, and a consecutive frame is not empty.
* `Contained` — the copies so far, and what is at the head of the flow, one case for each
  transition.
* `copies_contained` — hence every copy stays inside its buffer in every run whose frames fit.
* `copy_overflows` — a first frame that announces one byte and carries six does not.
-/

namespace Lwcan

/-- A message is under reassembly: its consecutive frames are awaited, or the flow control that asks
for them is on its way. -/
def IsotpFlow.reassembling (fl : IsotpFlow) : Bool :=
  fl.state = .waitCf || fl.state = .txFc && fl.fs = fsReady

theorem IsotpFlow.reassembling_of_idle {fl : IsotpFlow} (h : fl.state = .idle) :
    fl.reassembling = false := by
  simp [reassembling, h]

theorem IsotpFlow.reassembling_of_waitCf {fl : IsotpFlow} (h : fl.state = .waitCf) :
    fl.reassembling = true := by
  simp [reassembling, h]

theorem IsotpFlow.reassembling_of_ready {fl : IsotpFlow} (h : fl.state = .txFc)
    (hf : fl.fs = fsReady) : fl.reassembling = true := by
  simp [reassembling, h, hf]

/-- The bytes copied into the buffer of the last message opened, after an entry of the log -/
def storedStep (n : Nat) : Obs → Nat
  | .opened _ _ _ => 0
  | .store _ _ m _ => n + m
  | _ => n

/-- How many bytes of the last message opened have been stored. -/
def stored (log : List Obs) : Nat := log.foldl storedStep 0

theorem stored_append (l m : List Obs) : stored (l ++ m) = m.foldl storedStep (stored l) :=
  List.foldl_append

/-- The entry is about the contents of a receive buffer. -/
def Obs.fills : Obs → Bool
  | .opened _ _ _ | .store _ _ _ _ => true
  | _ => false

theorem stored_append_of_fills {l m : List Obs} (h : ∀ o ∈ m, o.fills = false) :
    stored (l ++ m) = stored l := by
  rw [stored_append]
  induction m with
  | nil => rfl
  | cons o m ih =>
    have ho := h o List.mem_cons_self
    have ih := ih fun o' ho' => h o' (List.mem_cons_of_mem _ ho')
    cases o with
    | opened | store => cases ho
    | _ => exact ih

/-! ### The length fields -/

theorem isotpGetFfDl_lt (cfg : Config) (data : Nat → UInt8) :
    isotpGetFfDl cfg data < 4096 := by
  unfold isotpGetFfDl
  simp only [Id.run]
  split
  · have := (data 5).toNat_lt
    exact lt_trans this (by decide)
  · have h₀ : (data 0 &&& 0x0F).toNat ≤ 15 := Nat.and_le_right
    have h₁ : (data 1).toNat < 2 ^ 12 := lt_trans (data 1).toNat_lt (by decide)
    have h₂ : (data 0 &&& 0x0F).toNat <<< 8 < 2 ^ 12 := by
      rw [Nat.shiftLeft_eq]
      omega
    exact Nat.or_lt_two_pow h₂ h₁

/-- A first frame carries its header and no more than it announces. -/
def firstFits (cfg : Config) (frame : CanFrame) (length : Nat) : Prop :=
  View.ffOffset cfg frame.data ≤ frame.len ∧ frame.len - View.ffOffset cfg frame.data ≤ length

instance (cfg : Config) (frame : CanFrame) (length : Nat) :
    Decidable (firstFits cfg frame length) :=
  inferInstanceAs (Decidable (_ ∧ _))

namespace View

variable {cfg : Config} {v : View} {p : Nat} {data : Nat → UInt8} {n b : Nat} {buf : LwcanBuffer}
  {rest : List (Nat × LwcanBuffer)}

/-- A consecutive frame that is not empty copies no more than is missing. -/
theorem cfCount_le {remaining : Nat} (hn : n < 256) (h : 0 < n ∨ remaining < 255) :
    cfCount remaining n ≤ remaining := by
  unfold cfCount u8 u32 cfDataOffset
  split <;> omega

/-- What a non-empty consecutive frame stores -/
theorem cfCount_eq {remaining : Nat} (hn : n < 256) (h : 0 < n) :
    cfCount remaining n = min remaining (n - 1) := by
  unfold cfCount u8 u32 cfDataOffset
  split <;> omega

/-- **A consecutive frame** continues where the message ends so far. -/
theorem storeCf_eq (hc : v.chain = (b, buf) :: rest) (hl : buf.length < 4294967296)
    (hr : v.flow.remainingData ≤ buf.length)
    (hn : cfCount v.flow.remainingData n ≤ v.flow.remainingData) :
    v.storeCf p data n =
      let m := cfCount v.flow.remainingData n
      let off := buf.length - v.flow.remainingData
      { v with
        flow := { v.flow with remainingData := v.flow.remainingData - m }
        chain := (b, { buf with
          data := Mem.blit buf.data off (fun i => data (cfDataOffset + i)) m }) :: rest
        log := v.log ++ [.store p off m buf.length] } := by
  have hcap : v.capacity = buf.length := by rw [capacity, headBuffer, hc]; rfl
  unfold storeCf store setFlow
  simp only [hcap, hc, u32_sub hr hl, u32_sub hn (lt_of_le_of_lt hr hl), List.modifyHead_cons]

/-- **A first frame** that fits fills the front of its buffer. -/
theorem ffStore_eq {frame : CanFrame} {slot : Bool} (hl : buf.length < 4294967296)
    (hf : firstFits cfg frame buf.length) :
    v.ffStore cfg p frame b buf slot =
      let off := ffOffset cfg frame.data
      let m := frame.len - off
      { v with
        flow := { v.flow with
          buffer := b :: v.flow.buffer
          remainingData := buf.length - m
          cfSn := 1
          fs := fsReady
          bs := u8 cfg.receiveBs
          st := u8 cfg.receiveSt
          state := .txFc }
        chain := (b, { buf with
          data := Mem.blit buf.data 0 (fun i => frame.data (off + i)) m }) :: v.chain
        tx := v.tx + slot.toNat
        log := v.log ++ [.opened p b frame.wire, .store p 0 m buf.length] } := by
  obtain ⟨h₁, h₂⟩ := hf
  -- nothing wraps: the frame is at least its header long and carries no more than is missing
  have hm : u32 ((frame.len : Int) - ffOffset cfg frame.data) =
      frame.len - ffOffset cfg frame.data := by
    unfold u32
    omega
  unfold ffStore storeFf store ffOutput setFlow armOutput
  simp only [hm, push, emit, u32_sub h₂ hl, capacity, headBuffer, List.head?_cons, Option.map_some,
    Option.elim_some, List.modifyHead_cons, List.append_assoc, List.cons_append, List.nil_append]

end View

/-! ### The conditions -/

namespace Node

/-- Frames are no longer than the frame maximum. -/
def ValidFrames (cfg : Config) (_ : Node) : Event → Prop
  | .input _ frame _ => frame.len ≤ maxDlen cfg
  | _ => True

/-- The application does not release a buffer that is still being filled: it has not been handed
it. -/
def KeepsOpen (s : Node) : Event → Prop
  | .call (.isotpReceived (some p) (some b)) =>
    (s.flow (p, .input)).reassembling → s.head (p, .input) ≠ some b
  | _ => True

/-- The message under reassembly is at the head, and it is not the one released. -/
theorem KeepsOpen.ne {s : Node} {p b b' : Nat} {buf : LwcanBuffer}
    {rest : List (Nat × LwcanBuffer)} (ho : KeepsOpen s (.call (.isotpReceived (some p) (some b))))
    (hr : (s.view (p, .input)).flow.reassembling)
    (hc : (s.view (p, .input)).chain = (b', buf) :: rest) : b' ≠ b := by
  rintro rfl
  refine ho hr ?_
  have hb : (s.flow (p, .input)).buffer.map (fun b => (b, s.heap.buffer b)) = _ :: _ := hc
  obtain ⟨a, l, hal, ha, -⟩ := List.map_eq_cons_iff.mp hb
  cases ha
  rw [head, hal]
  rfl

/-- A first frame for which a message is opened -/
def opensFf (cfg : Config) (s : Node) (p : Nat) (frame : CanFrame) (g : Grant) : Bool :=
  frame.data 0 &&& frameTypeMask = ffType && (s.flow (p, .input)).state = .idle &&
    isotpGetFfDl cfg frame.data ≠ 0 && g.granted

/-- The consecutive frame that is awaited -/
def awaitsCf (s : Node) (p : Nat) (frame : CanFrame) : Bool :=
  frame.data 0 &&& frameTypeMask = cfType && (s.flow (p, .input)).state = .waitCf &&
    (s.flow (p, .input)).cfSn = (frame.data 0 &&& 0x0F).toNat

/-- **Frames fit.** A first frame that opens a message has its header and carries no more than it
announces; the consecutive frame awaited is not empty, or less than 255 bytes are missing. -/
def FramesFit (cfg : Config) (s : Node) : Event → Prop
  | .input canif frame g => ∀ p ∈ s.findPcb canif frame,
    (s.opensFf cfg p frame g → firstFits cfg frame (isotpGetFfDl cfg frame.data)) ∧
      (s.awaitsCf p frame → 0 < frame.len ∨ (s.flow (p, .input)).remainingData < 255)
  | _ => True

/-- `isotp_new` hands out no pcb that was removed inside its own callback, which has not
returned. -/
def NewNotCalled (cfg : Config) (s : Node) : Event → Prop
  | .call .isotpNew => ∀ p ∈ (s.isotpNew cfg).1, (s.view (p, .input)).suspended = none
  | _ => True

/-- **What keeps the copies inside**, also where pcbs are removed -/
structure Confined (cfg : Config) (s : Node) (e : Event) : Prop where
  valid : ValidFrames cfg s e
  kept : KeepsOpen s e
  fit : FramesFit cfg s e
  called : NewNotCalled cfg s e

theorem NewNotCalled.of_ne {cfg : Config} {s : Node} {e : Event} (hn : e ≠ .call .isotpNew) :
    NewNotCalled cfg s e := by
  unfold NewNotCalled
  split
  · exact absurd rfl hn
  · exact True.intro

theorem FramesFit.opens {cfg : Config} {s : Node} {canif p : Nat} {frame : CanFrame} {g : Grant}
    (hf : FramesFit cfg s (.input canif frame g)) (hp : p ∈ s.findPcb canif frame)
    (ht : frame.data 0 &&& frameTypeMask = ffType) (hs : (s.flow (p, .input)).state = .idle)
    (hz : isotpGetFfDl cfg frame.data ≠ 0) (hg : g.granted = true) :
    firstFits cfg frame (isotpGetFfDl cfg frame.data) :=
  (hf p hp).1 (by simp [opensFf, ht, hs, hz, hg])

theorem FramesFit.awaited {cfg : Config} {s : Node} {canif p : Nat} {frame : CanFrame} {g : Grant}
    (hf : FramesFit cfg s (.input canif frame g)) (hp : p ∈ s.findPcb canif frame)
    (ht : frame.data 0 &&& frameTypeMask = cfType) (hs : (s.flow (p, .input)).state = .waitCf)
    (hsn : (s.flow (p, .input)).cfSn = (frame.data 0 &&& 0x0F).toNat) :
    0 < frame.len ∨ (s.flow (p, .input)).remainingData < 255 :=
  (hf p hp).2 (by simp [awaitsCf, ht, hs, hsn])

instance (cfg : Config) (s : Node) : (e : Event) → Decidable (s.ValidFrames cfg e)
  | .input _ frame _ => inferInstanceAs (Decidable (frame.len ≤ maxDlen cfg))
  | .call _ | .timer _ _ | .sent _ _ | .resume | .tick _ => isTrue True.intro

instance (s : Node) : (e : Event) → Decidable (s.KeepsOpen e)
  | .call (.isotpReceived (some p) (some b)) =>
    inferInstanceAs (Decidable ((s.flow (p, .input)).reassembling → s.head (p, .input) ≠ some b))
  | .call (.isotpReceived none _) | .call (.isotpReceived (some _) none)
  | .call .isotpNew | .call (.isotpBind _ _) | .call (.isotpRemove _) | .call (.isotpSend _ _ _)
  | .call (.isotpSetCallbacks _ _ _ _ _) | .call (.isotpSetCallbackArg _ _)
  | .call (.canifAdd _ _ _) | .call (.canifRemove _) | .call (.lwcanTimeout _ _ _)
  | .call (.lwcanUntimeout _ _) | .input _ _ _ | .timer _ _ | .sent _ _ | .resume | .tick _ =>
    isTrue True.intro

instance (cfg : Config) (s : Node) : (e : Event) → Decidable (s.FramesFit cfg e)
  | .input canif frame _ => inferInstanceAs (Decidable (∀ p ∈ s.findPcb canif frame, _ ∧ _))
  | .call _ | .timer _ _ | .sent _ _ | .resume | .tick _ => isTrue True.intro

instance (cfg : Config) (s : Node) : (e : Event) → Decidable (s.NewNotCalled cfg e)
  | .call .isotpNew =>
    inferInstanceAs (Decidable (∀ p ∈ (s.isotpNew cfg).1, (s.view (p, .input)).suspended = none))
  | .call (.isotpReceived _ _) | .call (.isotpBind _ _) | .call (.isotpRemove _) | .call
      (.isotpSend _ _ _)
  | .call (.isotpSetCallbacks _ _ _ _ _) | .call (.isotpSetCallbackArg _ _)
  | .call (.canifAdd _ _ _) | .call (.canifRemove _) | .call (.lwcanTimeout _ _ _)
  | .call (.lwcanUntimeout _ _) | .input _ _ _ | .timer _ _ | .sent _ _ | .resume | .tick _ =>
    isTrue True.intro

instance (cfg : Config) (s : Node) (e : Event) : Decidable (s.Confined cfg e) :=
  decidable_of_iff (ValidFrames cfg s e ∧ KeepsOpen s e ∧ FramesFit cfg s e ∧ NewNotCalled cfg s e)
    ⟨fun h => ⟨h.1, h.2.1, h.2.2.1, h.2.2.2⟩, fun h => ⟨h.1, h.2, h.3, h.4⟩⟩

end Node

/-! ### The invariant -/

/-- What a suspended function relies on when it is resumed -/
def Suspended.Fits (cfg : Config) (fs : Nat) : Suspended → Prop
  | .receivedFf _ frame _ n => firstFits cfg frame n ∧ n < 4294967296
  | .receivedFfOutput _ => fs ≠ fsReady
  | .isotpSent _ => True

/-- **Contained.** Every copy so far stayed inside its buffer, and while a message is under
reassembly, its buffer is at the head and holds what is not missing. -/
structure Contained (cfg : Config) (v : View) : Prop where
  copies : ∀ q off n cap, .store q off n cap ∈ v.log → off + n ≤ cap
  message : v.flow.reassembling → ∃ b buf rest, v.chain = (b, buf) :: rest ∧
    buf.length < 4294967296 ∧ v.flow.remainingData ≤ buf.length ∧
      stored v.log = buf.length - v.flow.remainingData
  suspended : ∀ f, v.suspended = some f → f.Fits cfg v.flow.fs

namespace Contained

open Node

variable {cfg : Config} {s : Node} {p : Nat} {e : Event} {v v' w : View}

theorem initial : Contained cfg View.initial :=
  ⟨fun _ _ _ _ h => absurd h List.not_mem_nil, by rintro ⟨⟩, by rintro _ ⟨⟩⟩

/-- A transition that fills no buffer, and under which a message stays under reassembly if it is so
after. -/
theorem quiet (h : Contained cfg v) {m : List Obs} (hl : w.log = v.log ++ m)
    (hm : ∀ o ∈ m, o.fills = false)
    (hmsg : w.flow.reassembling → v.flow.reassembling ∧ w.chain.head? = v.chain.head? ∧
      w.flow.remainingData = v.flow.remainingData)
    (hs : ∀ f, w.suspended = some f → f.Fits cfg w.flow.fs) : Contained cfg w := by
  refine ⟨fun q off n cap hmem => ?_, fun hw => ?_, hs⟩
  · rw [hl] at hmem
    rcases List.mem_append.mp hmem with hmem | hmem
    · exact h.copies q off n cap hmem
    · cases hm _ hmem
  · obtain ⟨hv, hc, hr⟩ := hmsg hw
    obtain ⟨b, buf, rest, hch, hlen, hrem, hst⟩ := h.message hv
    rw [hch, List.head?_cons] at hc
    obtain ⟨rest', hch'⟩ := List.head?_eq_some_iff.mp hc
    refine ⟨b, buf, rest', hch', hlen, by rwa [hr], ?_⟩
    rw [hl, stored_append_of_fills hm, hr]
    exact hst

/-- A transition to a state in which no message is under reassembly -/
theorem finish (h : Contained cfg v) {m : List Obs} (hl : w.log = v.log ++ m)
    (hm : ∀ o ∈ m, o.fills = false) (hw : w.flow.reassembling = false)
    (hs : ∀ f, w.suspended = some f → f.Fits cfg w.flow.fs) : Contained cfg w :=
  h.quiet hl hm (fun h' => by rw [hw] at h'; cases h') hs

/-- A transition that only logs what fills no buffer -/
theorem emitIf (h : Contained cfg v) (c : Bool) {o : Obs} (ho : o.fills = false) :
    Contained cfg (v.emitIf c o) := by
  unfold View.emitIf
  split
  · exact h.quiet rfl (by simpa using ho) (fun hr => ⟨hr, rfl, rfl⟩) h.suspended
  · exact h

/-- Handing a message over fills nothing. -/
theorem deliver (h : Contained cfg v) (pcb : IsotpPcb) (hv : v.flow.reassembling = false) :
    Contained cfg (v.deliver pcb p) := by
  unfold View.deliver
  split
  · exact h
  · split
    · exact h.finish rfl (by simp [Obs.fills]) hv h.suspended
    · exact h.finish rfl (by simp [Obs.fills]) hv h.suspended

theorem fail (h : Contained cfg v) (k : FlowId) (c : Bool) (arg : Ptr) (err : Lwcanerr) :
    Contained cfg (v.fail k c arg err) := by
  have h₀ : Contained cfg ((v.drop k).setState .idle) :=
    h.finish rfl (by simp [Obs.fills]) rfl h.suspended
  exact h₀.emitIf c rfl

/-- A single frame copies as much as its buffer was made for. -/
theorem singleFrame (h : Contained cfg v) (pcb : IsotpPcb) (hs : v.flow.state = .idle)
    {frame : CanFrame} {b : Nat} {buf : LwcanBuffer} :
    Contained cfg ((((v.push b buf buf.length).emit (.opened p b frame.wire)).storeSf cfg p
      frame.data).deliver pcb p) := by
  refine deliver ?_ _ (IsotpFlow.reassembling_of_idle hs)
  refine ⟨fun q off n cap hmem => ?_, fun hr => ?_, h.suspended⟩
  · rcases List.mem_append.mp hmem with hmem | hmem
    · rcases List.mem_append.mp hmem with hmem | hmem
      · exact h.copies q off n cap hmem
      · simp at hmem
    · -- what is left to copy is the whole capacity, and the copy starts at 0
      simp only [List.mem_singleton, Obs.store.injEq] at hmem
      obtain ⟨-, rfl, rfl, rfl⟩ := hmem
      exact le_of_eq (Nat.zero_add _)
  · have hr' : v.flow.reassembling = true := hr
    rw [IsotpFlow.reassembling_of_idle hs] at hr'
    cases hr'

/-- A first frame that fits opens its message. -/
theorem ffStore (h : Contained cfg v) {frame : CanFrame} {b : Nat} {buf : LwcanBuffer} {slot : Bool}
    (hl : buf.length < 4294967296) (hf : firstFits cfg frame buf.length) (hs : v.suspended = none) :
    Contained cfg (v.ffStore cfg p frame b buf slot) := by
  rw [View.ffStore_eq hl hf]
  have hle := hf.2
  refine ⟨fun q off n cap hmem => ?_, fun _ => ?_, fun f hf' => ?_⟩
  · rcases List.mem_append.mp hmem with hmem | hmem
    · exact h.copies q off n cap hmem
    · simp only [List.mem_cons, reduceCtorEq, Obs.store.injEq, List.not_mem_nil, or_false,
        false_or] at hmem
      obtain ⟨-, rfl, rfl, rfl⟩ := hmem
      omega
  · refine ⟨b, _, v.chain, rfl, hl, Nat.sub_le _ _, ?_⟩
    simp only
    rw [stored_append]
    show 0 + (frame.len - View.ffOffset cfg frame.data) = _
    omega
  · rw [hs] at hf'
    cases hf'

/-- **A consecutive frame that fits** adds to its message. -/
theorem consecutive (h : Contained cfg v) (hs : v.flow.state = .waitCf) {frame : CanFrame}
    (hn : frame.len < 256) (hf : 0 < frame.len ∨ v.flow.remainingData < 255)
    (hw : w = (({ v with err := v.err - 1 } : View).emit (.consecutive p frame.wire)).storeCf p
      frame.data frame.len) : Contained cfg w ∧ w.flow.state = .waitCf := by
  have hv := IsotpFlow.reassembling_of_waitCf hs
  have h₀ : Contained cfg (({ v with err := v.err - 1 } : View).emit (.consecutive p frame.wire)) :=
    h.quiet rfl (by simp [Obs.fills]) (fun _ => ⟨hv, rfl, rfl⟩) h.suspended
  obtain ⟨b, buf, rest, hc, hl, hr, hst⟩ := h₀.message hv
  -- under the condition no more is copied than is missing
  have hle := View.cfCount_le hn hf
  rw [View.storeCf_eq hc hl hr hle] at hw
  subst hw
  refine ⟨⟨fun q off m cap hmem => ?_, fun _ => ?_, h₀.suspended⟩, hs⟩
  · rcases List.mem_append.mp hmem with hmem | hmem
    · exact h₀.copies q off m cap hmem
    · simp only [List.mem_singleton, Obs.store.injEq] at hmem
      obtain ⟨-, rfl, rfl, rfl⟩ := hmem
      change v.flow.remainingData ≤ buf.length at hr
      change View.cfCount v.flow.remainingData frame.len ≤ v.flow.remainingData at hle
      show buf.length - v.flow.remainingData + View.cfCount v.flow.remainingData frame.len ≤
        buf.length
      omega
  · refine ⟨b, _, rest, rfl, hl, le_trans (Nat.sub_le _ _) hr, ?_⟩
    simp only
    rw [stored_append, hst]
    change v.flow.remainingData ≤ buf.length at hr
    change View.cfCount v.flow.remainingData frame.len ≤ v.flow.remainingData at hle
    show buf.length - v.flow.remainingData + View.cfCount v.flow.remainingData frame.len =
      buf.length - (v.flow.remainingData - View.cfCount v.flow.remainingData frame.len)
    omega

theorem inputSwitch (h : Contained cfg v) {pcb : IsotpPcb} {slot : Bool}
    (hw : InputSwitch pcb p slot v v') : Contained cfg v' := by
  cases hw with
  | skip => exact h
  | abort =>
    have h₀ : Contained cfg (v.setState .idle) :=
      h.finish (List.append_nil _).symm (by simp) rfl h.suspended
    exact h₀.emitIf _ rfl
  | ready hs hfs =>
    refine h.quiet (List.append_nil _).symm (by simp) (fun _ => ⟨?_, rfl, rfl⟩) h.suspended
    exact IsotpFlow.reassembling_of_ready hs hfs

/-- What the driver refuses ends the message. -/
theorem refused (h : Contained cfg v) (k : FlowId) (pcb : IsotpPcb) (err : Lwcanerr) :
    Contained cfg (v.refused k pcb err) := by
  refine h.finish (View.refused_log ..) ?_ (by rw [View.refused_flow]; rfl) ?_
  · intro o ho
    rcases List.mem_cons.mp ho with rfl | ho
    · rfl
    · split at ho
      · rw [List.mem_singleton.mp ho]
        rfl
      · cases ho
  · rw [View.refused_flow]
    intro f hf
    rcases View.refused_suspended_cases hf with rfl | hf
    · trivial
    · exact h.suspended f hf

/-- The buffer the application releases is not the one being filled, so the head stays. -/
theorem release (h : Contained cfg (s.view (p, .input))) {b : Nat}
    (ho : KeepsOpen s (.call (.isotpReceived (some p) (some b)))) :
    Contained cfg { s.view (p, .input) with
      flow := { (s.view (p, .input)).flow with
        buffer := (s.view (p, .input)).flow.buffer.erase b }
      chain := (s.view (p, .input)).chain.eraseP (·.1 = b)
      log := (s.view (p, .input)).log ++ [.released p b] } := by
  refine h.quiet rfl (by simp [Obs.fills]) (fun hr => ⟨hr, ?_, rfl⟩) h.suspended
  obtain ⟨b', buf, rest, hc, -⟩ := h.message hr
  have hne : b' ≠ b := ho.ne hr hc
  show ((s.view (p, .input)).chain.eraseP _).head? = _
  rw [hc, List.eraseP_cons_of_neg (by simpa using hne)]
  rfl

/-- **Every transition of an input flow** keeps the copies inside. -/
theorem step (he : s.Enabled e) (hn : NewNotCalled cfg s e) (hv : ValidFrames cfg s e)
    (ho : KeepsOpen s e) (hf : FramesFit cfg s e) (h : Contained cfg (s.view (p, .input)))
    (hst : InputStep cfg s p (s.view (p, .input)) e v') : Contained cfg v' := by
  have hns : ∀ {canif frame g}, e = .input canif frame g →
      ∀ {fs : Nat} (f : Suspended), (s.view (p, .input)).suspended = some f → f.Fits cfg fs := by
    rintro canif frame g rfl fs f hsf
    rw [he.input_not_suspended] at hsf
    cases hsf
  have hlen : ∀ {canif frame g}, e = .input canif frame g → frame.len < 256 := by
    rintro canif frame g rfl
    exact lt_of_le_of_lt hv (maxDlen_lt cfg)
  cases hst with
  | sfMemory hp ht hs => exact h.emitIf _ rfl
  | sf hp ht hs => exact h.singleFrame _ hs
  | ffMemory => exact h.finish (List.append_nil _).symm (by simp) rfl (hns rfl)
  | ffMemoryCallback hp ht hs =>
    refine h.finish rfl (by simp [Obs.fills]) (IsotpFlow.reassembling_of_idle hs) fun f hsf => ?_
    -- the flow control that waits for the callback's return is an overflow
    cases hsf
    show fsOverflow ≠ fsReady
    decide
  | ff hp ht hs hb hl hz hg hr =>
    refine h.ffStore ?_ ?_ (he.input_not_suspended _)
    · rw [hl]
      exact lt_trans (isotpGetFfDl_lt cfg _) (by decide)
    · rw [hl] at hz ⊢
      exact hf.opens hp ht hs hz hg
  | ffCallback hp ht hs hz hg =>
    refine h.finish rfl (by simp [Obs.fills]) (IsotpFlow.reassembling_of_idle hs) fun f hsf => ?_
    cases hsf
    exact ⟨hf.opens hp ht hs hz hg, lt_trans (isotpGetFfDl_lt cfg _) (by decide)⟩
  | resumeFf hsn hb =>
    have hsus := h.suspended _ (view_suspended hsn rfl)
    have h₀ : Contained cfg { s.view (p, .input) with suspended := none } :=
      ⟨h.copies, h.message, by rintro _ ⟨⟩⟩
    exact h₀.ffStore hsus.2 hsus.1 rfl
  | resumeFfMemory hsn =>
    -- an overflow goes out: nothing is under reassembly
    have hsus : (s.view (p, .input)).flow.fs ≠ fsReady := h.suspended _ (view_suspended hsn rfl)
    refine h.finish (List.append_nil _).symm (by simp) ?_ (by rintro _ ⟨⟩)
    exact Bool.or_eq_false_iff.mpr ⟨rfl, decide_eq_false hsus⟩
  | cfWrong => exact h.finish (List.append_assoc _ [_] [_]) (by simp [Obs.fills]) rfl (hns rfl)
  | cfLast hp ht hs hsn hv' hr =>
    have h₁ := (h.consecutive hs (hlen rfl) (hf.awaited hp ht hs hsn) hv').1
    exact deliver (h₁.finish (w := View.setState _ .idle) (List.append_nil _).symm (by simp) rfl
      h₁.suspended) _ rfl
  | cf hp ht hs hsn hv' hr hb =>
    obtain ⟨h₁, hst⟩ := h.consecutive hs (hlen rfl) (hf.awaited hp ht hs hsn) hv'
    refine h₁.quiet (List.append_nil _).symm (by simp) (fun _ => ⟨?_, rfl, rfl⟩) h₁.suspended
    exact IsotpFlow.reassembling_of_waitCf hst
  | block hp ht hs hsn hv' hr hb =>
    obtain ⟨h₁, hst⟩ := h.consecutive hs (hlen rfl) (hf.awaited hp ht hs hsn) hv'
    refine h₁.quiet (List.append_nil _).symm (by simp) (fun _ => ⟨?_, rfl, rfl⟩) ?_
    · exact IsotpFlow.reassembling_of_waitCf hst
    · subst hv'
      exact hns rfl
  | skip => exact ⟨h.copies, h.message, h.suspended⟩
  | output => exact h.quiet rfl (by simp [Obs.fills]) (fun hr => ⟨hr, rfl, rfl⟩) h.suspended
  | reject =>
    refine fail ?_ _ _ _ _
    exact h.quiet rfl (by simp [Obs.fills]) (fun hr => ⟨hr, rfl, rfl⟩) h.suspended
  | expire =>
    refine fail ?_ _ _ _ _
    exact ⟨h.copies, h.message, h.suspended⟩
  | confirm hsn hw =>
    refine inputSwitch ?_ hw
    exact ⟨h.copies, h.message, h.suspended⟩
  | resume hsn hw =>
    refine inputSwitch ?_ hw
    exact ⟨h.copies, h.message, by rintro _ ⟨⟩⟩
  | refuse =>
    refine refused ?_ _ _ _
    exact ⟨h.copies, h.message, h.suspended⟩
  | release => exact h.release ho
  | new hp =>
    refine h.finish (List.append_nil _).symm (by simp) rfl fun f hsf => ?_
    rw [show (s.view (p, .input)).suspended = none from hn p hp] at hsf
    cases hsf

/-- The message under reassembly has a buffer. -/
theorem head_ne_none (h : Contained cfg (s.view (p, .input)))
    (hp : (s.flow (p, .input)).reassembling) : s.head (p, .input) ≠ none := by
  intro hnone
  obtain ⟨b, buf, rest, hchain, -⟩ := h.message hp
  obtain ⟨b', bs, hbuf, -⟩ := List.map_eq_cons_iff.mp hchain
  unfold head at hnone
  rw [show (s.flow (p, .input)).buffer = b' :: bs from hbuf] at hnone
  cases hnone

end Contained

namespace Node

variable {cfg : Config} {s : Node} {es : List Event}

theorem contained_run (hr : Run cfg es s) (hk : RunAlong cfg KeepsPcbs es)
    (hv : RunAlong cfg (ValidFrames cfg) es) (ho : RunAlong cfg KeepsOpen es)
    (hf : RunAlong cfg (FramesFit cfg) es) (p : Nat) : Contained cfg (s.view (p, .input)) :=
  input_inv p Contained.initial
    (fun _ he h hn hi hst => Contained.step he (.of_ne hn) h.1 h.2.1 h.2.2 hi hst) hr hk
    (hv.and (ho.and hf))

/-- The same where pcbs may be removed, and handed out anew. -/
theorem Confined.contained_run (hr : Run cfg es s) (hc : RunAlong cfg (Confined cfg) es) (p : Nat) :
    Contained cfg (s.view (p, .input)) := by
  have hinit : Sound (lwcanInit cfg) ∧ ∀ p, Contained cfg ((lwcanInit cfg).view (p, .input)) := by
    refine ⟨Sound.initial cfg, fun p => ?_⟩
    rw [view_lwcanInit]
    exact Contained.initial
  refine (Runs.run_inv (I := fun s => Sound s ∧ ∀ p, Contained cfg (s.view (p, .input)))
    (fun s e t hI hc hst => ⟨hI.1.step hst, fun p => ?_⟩) hinit hc hr).2 p
  -- one transition, or none
  obtain heq | hmove := (hI.1.moves hst).input p
  · rw [heq]
    exact hI.2 p
  · exact Contained.step (step_eq_some.mp hst).1 hc.called hc.valid hc.kept hc.fit (hI.2 p) hmove

/-- **Copies inside**: every copy ended within its buffer, and the message under reassembly has a
buffer to store the next frame in. What the other buffers hold is what was put there. -/
structure CopiesInside (s : Node) : Prop where
  copies : ∀ p off n cap, .store p off n cap ∈ s.log → off + n ≤ cap
  buffer : ∀ p, (s.flow (p, .input)).reassembling → s.head (p, .input) ≠ none

theorem CopiesInside.of_contained (h : ∀ p, Contained cfg (s.view (p, .input))) :
    CopiesInside s := by
  refine ⟨fun p off n cap hmem => ?_, fun p hp hnone => ?_⟩
  · exact (h p).copies p off n cap (List.mem_filter.mpr ⟨hmem, by simp [Obs.flow]⟩)
  · exact (h p).head_ne_none hp hnone

/-- In every run that keeps copies inside they are. -/
theorem Confined.copiesInside (hr : Run cfg es s) (hc : RunAlong cfg (Confined cfg) es) :
    CopiesInside s :=
  .of_contained (Confined.contained_run hr hc)

/-- **Reassembly stays inside the receive buffer.** In every run whose frames fit, every copy ends
within its buffer, and while a message is under reassembly its buffer is at the head of the flow, no
more is missing than its length, and the rest has been stored. -/
theorem copies_contained (hr : Run cfg es s) (hk : RunAlong cfg KeepsPcbs es)
    (hv : RunAlong cfg (ValidFrames cfg) es) (ho : RunAlong cfg KeepsOpen es)
    (hf : RunAlong cfg (FramesFit cfg) es) :
    (∀ p off n cap, .store p off n cap ∈ s.log → off + n ≤ cap) ∧
      ∀ p, (s.flow (p, .input)).reassembling → ∃ buf, s.headBuffer (p, .input) = some buf ∧
        (s.flow (p, .input)).remainingData ≤ buf.length ∧
          stored (s.logOf (p, .input)) =
            buf.length - (s.flow (p, .input)).remainingData := by
  have h := contained_run hr hk hv ho hf
  refine ⟨(CopiesInside.of_contained h).copies, fun p hp => ?_⟩
  obtain ⟨b, buf, rest, hc, -, hrem, hst⟩ := (h p).message hp
  refine ⟨buf, ?_, hrem, hst⟩
  rw [← view_headBuffer, View.headBuffer, hc]
  rfl

/-- A first frame that announces nine bytes and carries six -/
def firstFrame : CanFrame :=
  ⟨0x7E8, 8, 0, fun i => [0x10, 0x09, 1, 2, 3, 4, 5, 6].getD i 0⟩

/-- Six bytes are stored and three are missing. -/
theorem copies_contained_firstFrame : ∃ s, Run {} (connected ++
    [.input 0 firstFrame ⟨some 1, some 2, fun _ => 0⟩]) s ∧
      ∃ buf, s.headBuffer (0, .input) = some buf ∧
        stored (s.logOf (0, .input)) =
          buf.length - (s.flow (0, .input)).remainingData := by
  obtain ⟨s, hr, hre⟩ := exists_run {} (connected ++
    [.input 0 firstFrame ⟨some 1, some 2, fun _ => 0⟩])
    (fun s => (s.flow (0, .input)).reassembling) (by decide)
  obtain ⟨buf, hb, -, hst⟩ := (copies_contained hr (by decide) (by decide) (by decide)
    (by decide)).2 0 hre
  exact ⟨s, hr, buf, hb, hst⟩

/-- A first frame that announces one byte and carries six -/
def shortFirstFrame : CanFrame :=
  ⟨0x7E8, 8, 0, fun i => [0x10, 0x01, 1, 2, 3, 4, 5, 6].getD i 0⟩

/-- **A copy leaves its buffer.** Six bytes are copied into a buffer of one. -/
theorem copy_overflows : ¬ ∀ (es : List Event) (s : Node), Run {} es s → RunAlong {} KeepsPcbs es →
    RunAlong {} (ValidFrames {}) es → RunAlong {} KeepsOpen es →
      ∀ p off n cap, .store p off n cap ∈ s.log → off + n ≤ cap := by
  obtain ⟨s, hr, hmem⟩ := exists_run {} (connected ++
    [.input 0 shortFirstFrame ⟨some 1, some 2, fun _ => 0⟩])
    (fun s => .store 0 0 6 1 ∈ s.log) (by decide)
  intro h
  exact absurd (h _ s hr (by decide) (by decide) (by decide) 0 0 6 1 hmem) (by decide)

end Node
end Lwcan
