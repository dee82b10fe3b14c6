import Lwcan.FdFrames
import Lwcan.Sender

/-!
# Segmentation in CAN FD frames

The frames of a segmented message follow from its bytes alone: `wireAt` is the `k`-th of them, and
`restAfter` what is left of the message before it. A consecutive frame is as long as
`padding_length` says for the bytes left, and the lookup leaves out the header byte. While more than
63 bytes are left that makes no difference; at the end it does, and a rest that is itself a step of
the table spills over into one more frame.

* `Cuts` — the invariant: the frames handed over are those of `wireAt`, and `remaining_data` is what
  `restAfter` says.
* `restAfter_fd` — 63 bytes a frame, up to the rest.
* `segmented_iff` — which messages are cut as they should be.
-/

namespace Lwcan

open Monitor

/-! ### The frames of a message -/

/-- What is left of a message of `n` bytes after its first `k` frames -/
def restAfter (cfg : Config) (n : Nat) : Nat → Nat
  | 0 => n
  | 1 => n - ffMax cfg
  | k + 2 => restAfter cfg n (k + 1) - cfMax cfg (restAfter cfg n (k + 1))

/-- The `k`-th frame of the message `d` -/
def wireAt (cfg : Config) (d : List UInt8) : Nat → List UInt8
  | 0 => ffHeader cfg d.length ++ d.take (ffMax cfg)
  | k + 1 =>
    let rest := restAfter cfg d.length (k + 1)
    cfHeader ((k + 1) % 16) :: ((d.drop (d.length - rest)).take (cfMax cfg rest) ++
      List.replicate (dataFrameLen cfg rest - cfDataOffset - cfMax cfg rest) cfg.paddingByte)

namespace Sending

/-- **The frames are cut from the message** one after the other, none of them when nothing is
left. -/
structure Cut (cfg : Config) (m : Sending) : Prop where
  frames : m.frames = (List.range m.frames.length).map (wireAt cfg m.data)
  due : ∀ k < m.frames.length, restAfter cfg m.data.length k ≠ 0

/-- Only the message and its frames matter. -/
theorem Cut.congr {cfg : Config} {m m' : Sending} (h : m.Cut cfg) (hd : m.data = m'.data)
    (hf : m.frames = m'.frames) : m'.Cut cfg := by
  refine ⟨?_, ?_⟩
  · rw [← hd, ← hf]
    exact h.frames
  · rw [← hd, ← hf]
    exact h.due

/-- One frame more -/
theorem Cut.snoc {cfg : Config} {m : Sending} (h : m.Cut cfg) {w : List UInt8} {taken : Bool}
    (hw : w = wireAt cfg m.data m.frames.length)
    (hr : restAfter cfg m.data.length m.frames.length ≠ 0) :
    Cut cfg { m with frames := m.frames ++ [w], taken := taken } := by
  refine ⟨?_, fun k hk => ?_⟩
  · show m.frames ++ [w] = (List.range (m.frames ++ [w]).length).map (wireAt cfg m.data)
    rw [List.length_append, List.length_singleton, List.range_succ, List.map_append, ← h.frames, hw]
    rfl
  · change k < (m.frames ++ [w]).length at hk
    rw [List.length_append, List.length_singleton] at hk
    obtain hk | rfl := Nat.lt_succ_iff_lt_or_eq.mp hk
    · exact h.due k hk
    · exact hr

/-- **How many frames** a message takes that is cut to its end -/
theorem Cut.length_eq {cfg : Config} {m : Sending} (h : m.Cut cfg) {n : Nat}
    (hn : ∀ k < n, restAfter cfg m.data.length k ≠ 0) (hz : restAfter cfg m.data.length n = 0)
    (hm : restAfter cfg m.data.length m.frames.length = 0) : m.frames.length = n := by
  -- fewer frames would leave something, and a further one would have had nothing to carry
  obtain hlt | heq | hgt := Nat.lt_trichotomy m.frames.length n
  · exact absurd hm (hn _ hlt)
  · exact heq
  · exact absurd hz (h.due _ hgt)

end Sending

/-- An entry of the log that neither begins a message nor hands over a frame -/
def Obs.Quiet : Obs → Prop
  | .send _ _ | .output _ _ _ _ _ _ => False
  | _ => True

/-- Quiet entries leave the message and its frames as they are. -/
theorem foldl_quiet {l : List Obs} (hq : ∀ o ∈ l, o.Quiet) (cur : Option Sending) :
    (l.foldl Sending.step cur).map (fun m => (m.data, m.frames)) =
      cur.map fun m => (m.data, m.frames) := by
  induction l generalizing cur with
  | nil => rfl
  | cons o l ih =>
    rw [List.foldl_cons, ih fun o' ho' => hq o' (List.mem_cons_of_mem _ ho')]
    have ho := hq o List.mem_cons_self
    cases o <;> first | exact ho.elim | rfl | cases cur <;> rfl

/-- The message before quiet entries -/
theorem sending_quiet {l l' : List Obs} (hq : ∀ o ∈ l', o.Quiet) {m : Sending}
    (hm : sending (l ++ l') = some m) :
    ∃ m₀, sending l = some m₀ ∧ m₀.data = m.data ∧ m₀.frames = m.frames := by
  have hmap := foldl_quiet hq (sending l)
  rw [← sending_append, hm] at hmap
  obtain ⟨m₀, hm₀, heq⟩ := Option.map_eq_some_iff.mp hmap.symm
  obtain ⟨hd, hf⟩ := Prod.mk.inj heq
  exact ⟨m₀, hm₀, hd, hf⟩

/-- A callback is quiet, called or not. -/
theorem quiet_emitIf {c : Bool} {o : Obs} (h : o.Quiet) : ∀ o' ∈ if c then [o] else
    [], o'.Quiet := by
  intro o' ho'
  split at ho'
  · obtain rfl := List.mem_singleton.mp ho'
    exact h
  · cases ho'

/-- **The invariant**: what is handed over is cut from the message, and `remaining_data` is what is
left of it. -/
def Cuts (cfg : Config) (v : View) : Prop :=
  ∀ m, sending v.log = some m → m.Segmented cfg →
    m.Cut cfg ∧ (v.flow.state ≠ .idle →
      v.flow.remainingData = restAfter cfg m.data.length m.frames.length)

namespace Cuts

open Node

variable {cfg : Config} {s : Node} {p : Nat} {e : Event} {v v' w : View} {m : Sending}
  {buf : LwcanBuffer}

/-- A transition that hands over nothing -/
theorem keep (h : Cuts cfg v) {l : List Obs} (hl : w.log = v.log ++ l) (hq : ∀ o ∈ l, o.Quiet)
    (hs : w.flow.state ≠ .idle →
      v.flow.state ≠ .idle ∧ w.flow.remainingData = v.flow.remainingData) : Cuts cfg w := by
  intro m hm hseg
  rw [hl] at hm
  -- the entries since are quiet, so the message had the same frames before
  obtain ⟨m₀, hm₀, hd, hf⟩ := sending_quiet hq hm
  have hseg₀ : m₀.Segmented cfg := by
    rw [Sending.Segmented, hd]
    exact hseg
  obtain ⟨hcut, hrest⟩ := h m₀ hm₀ hseg₀
  refine ⟨hcut.congr hd hf, fun hni => ?_⟩
  obtain ⟨hni₀, hrem⟩ := hs hni
  rw [hrem, ← hd, ← hf]
  exact hrest hni₀

/-- An error path hands over nothing, and leaves the flow idle. -/
theorem giveUp (h : Cuts cfg v) {k : FlowId} {b : Option Nat} {c : Bool} {arg : Ptr}
    {err : Lwcanerr} {l : List Obs} (hq : ∀ o ∈ l, o.Quiet)
    (hl : w.log = v.log ++ (l ++ .dropped k b :: if c then [.error k arg err] else []))
    (hs : w.flow.state = .idle) : Cuts cfg w := by
  refine h.keep hl (fun o ho => ?_) fun hni => absurd hs hni
  obtain ho | ho := List.mem_append.mp ho
  · exact hq o ho
  · obtain rfl | ho := List.mem_cons.mp ho
    · trivial
    · exact quiet_emitIf (o := .error k arg err) trivial o ho

/-- **The next frame** is the one that `wireAt` says. -/
theorem handOver (h : Cuts cfg v) (hsends : Sends cfg v) (ha : Active cfg v m buf) (ht : 0 < v.tx)
    {f : CanFrame} {filled : IsotpFlow × CanFrame} {n : Nat}
    (hfl : isotpFill cfg v.headBuffer v.flow f = some (filled, n)) (hm : m.Segmented cfg)
    (taken : Bool) :
    Sending.Cut cfg { m with frames := m.frames ++ [filled.2.wire], taken := taken } ∧
      filled.1.remainingData = restAfter cfg m.data.length
        (m.frames ++ [filled.2.wire]).length := by
  obtain ⟨hcut, hrest⟩ := h m ha.current hm
  have hpos := ha.position
  unfold Position at hpos
  rw [List.length_append, List.length_singleton]
  cases hs : v.flow.state with
  | txSf => exact absurd hs (ha.segmented.mpr hm)
  | idle | txFc | waitCf | waitFc => simp [isotpFill, hs] at hfl
  | txFf =>
    -- the first frame is the one at index zero
    obtain ⟨hnil, -, hrem', hwire⟩ := hsends.firstFrame ha ht hs hfl
    have hlong := ffMax_lt_sfMax cfg
    unfold Sending.Segmented at hm
    refine ⟨hcut.snoc (hwire.trans (by rw [hnil]; rfl)) ?_, hrem'.trans (by rw [hnil]; rfl)⟩
    rw [hnil]
    show m.data.length ≠ 0
    omega
  | txCf =>
    rw [hs] at hpos
    obtain ⟨-, hdue, -⟩ := hpos
    obtain ⟨hsn, hne, -⟩ := hdue ht
    -- a consecutive frame continues where `remaining_data` says, which is what is left
    obtain ⟨hrem, -, hrem', hwire⟩ := hsends.consecutiveFrame ha ht hs hfl
    have hleft := hrest (by rw [hs]; decide)
    obtain ⟨k, hk⟩ := Nat.exists_eq_succ_of_ne_zero (List.length_pos_of_ne_nil hne).ne'
    rw [hsn] at hwire
    rw [hleft] at hwire hrem' hrem
    refine ⟨hcut.snoc (hwire.trans ?_) hrem, hrem'.trans ?_⟩
    · rw [hk]
      rfl
    · rw [hk]
      rfl

/-- **The confirmation of a frame** hands over nothing. -/
theorem outputSwitch (h : Cuts cfg v) {pcb : IsotpPcb} {slot : Bool}
    (hw : OutputSwitch pcb p slot w v') (hl : w.log = v.log) (hf : w.flow = v.flow) :
    Cuts cfg v' := by
  have h' : Cuts cfg w := by
    unfold Cuts
    rw [hl, hf]
    exact h
  cases hw with
  | skip => exact h'
  | complete =>
    refine h'.keep (View.emitIf_log ..) (quiet_emitIf trivial) fun hni => ?_
    rw [View.emitIf_flow] at hni
    exact absurd rfl hni
  | ff hs =>
    exact h'.keep (l := [.waitFc p]) rfl (List.forall_mem_singleton.mpr trivial)
      fun _ => ⟨by rw [hs]; decide, rfl⟩
  | cf hs =>
    exact h'.keep (l := []) (List.append_nil _).symm (by rintro _ ⟨⟩)
      fun _ => ⟨by rw [hs]; decide, rfl⟩
  | block hs =>
    exact h'.keep (l := [.waitFc p]) rfl (List.forall_mem_singleton.mpr trivial)
      fun _ => ⟨by rw [hs]; decide, rfl⟩

/-- **Every transition of an output flow** cuts the frames from the message. -/
theorem step (hn : e ≠ .call .isotpNew) (hb : AtMostOne (s.view (p, .output)))
    (hsends : Sends cfg (s.view (p, .output))) (h : Cuts cfg (s.view (p, .output)))
    (hst : OutputStep cfg s p (s.view (p, .output)) e v') : Cuts cfg v' := by
  cases hst with
  | @send d g b buf hs hd hl hg hb' hbl hbb =>
    intro m hm hseg
    -- nothing is cut yet, and `isotp_send` sets `remaining_data` to the whole length
    change sending ((s.view (p, .output)).log ++ [.send p d]) = some m at hm
    rw [sending_append] at hm
    cases hm
    refine ⟨⟨rfl, by rintro _ ⟨⟩⟩, fun _ => ?_⟩
    show (View.sendFlow cfg _ _ d).remainingData = d.length
    unfold View.sendFlow
    split <;> rfl
  | skip => exact h
  | @output f canif filled n hf hcan ht hfl =>
    obtain ⟨m₀, buf, ha⟩ := hsends.active (hb.ne_idle_of_tx ht)
    intro m hm hseg
    change sending ((s.view (p, .output)).log ++ [_]) = some m at hm
    rw [sending_append, ha.current] at hm
    cases hm
    obtain ⟨hcut, hrest⟩ := h.handOver hsends ha ht hfl hseg (m₀.taken && true)
    exact ⟨hcut, fun _ => hrest⟩
  | @reject f ret canif filled n hf hcan ht hfl hr =>
    -- the frame that the driver refuses is handed over all the same
    obtain ⟨m₀, buf, ha⟩ := hsends.active (hb.ne_idle_of_tx ht)
    let u := ({ s.view (p, .output) with tx := (s.view (p, .output)).tx - 1 }.setFlow filled.1).emit
      (.output (p, .output) canif filled.2.canId filled.2.wire n ret)
    have hu : Cuts cfg u := by
      intro m hm hseg
      change sending ((s.view (p, .output)).log ++ [_]) = some m at hm
      rw [sending_append, ha.current] at hm
      cases hm
      obtain ⟨hcut, hrest⟩ := h.handOver hsends ha ht hfl hseg (m₀.taken && decide (ret = .ok))
      exact ⟨hcut, fun _ => hrest⟩
    exact hu.giveUp (l := []) (by rintro _ ⟨⟩) (View.fail_log ..) (View.fail_state ..)
  | expire hf herr =>
    exact h.giveUp (l := []) (by rintro _ ⟨⟩) (View.fail_log ..) (View.fail_state ..)
  | confirm hsn hsw => exact h.outputSwitch hsw rfl rfl
  | refuse hsn herr =>
    exact h.giveUp (l := []) (by rintro _ ⟨⟩) (View.refused_log ..) (by rw [View.refused_flow])
  | resume hsn hsw => exact h.outputSwitch hsw rfl rfl
  | wait hfind hs hf hnw =>
    exact h.keep rfl (List.forall_mem_singleton.mpr trivial) fun _ => ⟨by rw [hs]; decide, rfl⟩
  | @abort canif f g hfind hs hf hr =>
    exact h.giveUp
      (l := [.flowControl p (f.data 0 &&& 0x0F).toNat (f.data 1).toNat (f.data 2).toNat])
      (List.forall_mem_singleton.mpr trivial)
      ((View.fail_log ..).trans (List.append_assoc _ _ _)) (View.fail_state ..)
  | proceed hfind hs hf =>
    exact h.keep rfl (List.forall_mem_singleton.mpr trivial) fun _ => ⟨by rw [hs]; decide, rfl⟩
  | new => exact absurd rfl hn

end Cuts

/-! ### CAN FD frames -/

/-- How much the last consecutive frame of a message of `n` bytes has to carry, if all others are
full -/
def lastRest (n : Nat) : Nat := (n - 58 - 1) % 63 + 1

/-- A consecutive frame is full while more than 48 bytes are left. -/
theorem cfMax_fd_long {cfg : Config} (hc : cfg.canfd = true) {n : Nat} (h : 48 < n) :
    cfMax cfg n = min n 63 := by
  have hlen : getPaddingLength n = 64 := if_pos h
  rw [cfMax, dataFrameLen, if_pos hc, hlen]
  rfl

/-- The lookup with `n` bytes left finds room for them and the header byte, unless `n` is a step of
the table: then it finds room for one byte less. -/
theorem cfMax_fd {cfg : Config} (hc : cfg.canfd = true) {n : Nat} (h : n ≤ 63) :
    cfMax cfg n = if n ∈ paddingSteps then n - 1 else n := by
  -- the table is finite, so it is searched
  have hall : ∀ n ≤ 63, min n (getPaddingLength n - cfDataOffset) =
      if n ∈ paddingSteps then n - 1 else n := by decide
  rw [cfMax, dataFrameLen, if_pos hc]
  exact hall n h

/-- **63 bytes a frame**, up to the rest -/
theorem restAfter_fd {cfg : Config} (hc : cfg.canfd = true) {n : Nat} (hn : 58 < n) {j : Nat}
    (hj : j ≤ (n - 58 - 1) / 63) :
    restAfter cfg n (j + 1) = 63 * ((n - 58 - 1) / 63 - j) + lastRest n := by
  have hmod := Nat.div_add_mod (n - 58 - 1) 63
  have hlt := Nat.mod_lt (n - 58 - 1) (show 0 < 63 by decide)
  have hff : ffMax cfg = 58 := by simp [ffMax, maxDlen, ffOffset, hc, canfdMaxDlen, fdFfDataOffset]
  unfold lastRest
  -- frame by frame: more than 63 bytes are left before each of these
  induction j with
  | zero =>
    show n - ffMax cfg = _
    omega
  | succ j ih =>
    have hrest := ih (by omega)
    have hlong : 48 < restAfter cfg n (j + 1) := by omega
    calc restAfter cfg n (j + 2)
        = restAfter cfg n (j + 1) - cfMax cfg (restAfter cfg n (j + 1)) := rfl
      _ = restAfter cfg n (j + 1) - 63 := by rw [cfMax_fd_long hc hlong]; omega
      _ = _ := by omega

/-- The lengths of `padding_length`, which pads every frame to eight bytes at least -/
def paddedLengths : List Nat := paddingSteps ++ [64]

/-- The lengths a CAN FD frame can have -/
def canfdLengths : List Nat := List.range 8 ++ paddedLengths

namespace Sending

/-- **A message in consecutive frames without a short one in the middle**: as many as it takes, all
full but the last, and that one with all the rest, in the least of `lengths` with room for it. -/
structure SegmentedIn (lengths : List Nat) (m : Sending) : Prop where
  count : m.frames.length = 1 + (m.data.length - 58 + 62) / 63
  full : ∀ i, i + 2 < m.frames.length → ∃ x : List UInt8, x.length = 63 ∧
    x <+: m.data.drop (58 + 63 * i) ∧ m.frames[i + 1]? = some (cfHeader ((i + 1) % 16) :: x)
  last : ∃ b pad w, m.frames.getLast? = some w ∧
    w = b :: (m.data.drop (58 + 63 * (m.frames.length - 2)) ++ pad) ∧ w.length ∈ lengths ∧
      ∀ l ∈ lengths, 1 + (m.data.drop (58 + 63 * (m.frames.length - 2))).length ≤ l → w.length ≤ l

variable {cfg : Config} {m : Sending}

/-- **How many frames**: one too many if the rest is a step of the table. -/
theorem Cut.length_fd (h : m.Cut cfg) (hc : cfg.canfd = true) (hl : 62 < m.data.length)
    (hz : restAfter cfg m.data.length m.frames.length = 0) :
    m.frames.length =
      (m.data.length - 58 - 1) / 63 + 2 + if lastRest m.data.length ∈
      paddingSteps then 1 else 0 := by
  have hrest := fun j (hj : j ≤ (m.data.length - 58 - 1) / 63) =>
    restAfter_fd hc (n := m.data.length) (by omega) hj
  have hr : 0 < lastRest m.data.length ∧ lastRest m.data.length ≤ 63 := by
    unfold lastRest
    omega
  -- after the full frames the rest is left
  have hfirst : restAfter cfg m.data.length ((m.data.length - 58 - 1) / 63 + 1) =
      lastRest m.data.length := by
    rw [hrest _ le_rfl]
    omega
  -- the frame after them takes as much of it as the table has room for
  have hnext : restAfter cfg m.data.length ((m.data.length - 58 - 1) / 63 + 2) =
      lastRest m.data.length - cfMax cfg (lastRest m.data.length) := by
    show restAfter cfg _ (_ + 1) - cfMax cfg (restAfter cfg _ (_ + 1)) = _
    rw [hfirst]
  -- so none of these frames is empty
  have hbefore : ∀ k < (m.data.length - 58 - 1) / 63 + 2, restAfter cfg m.data.length k ≠ 0 := by
    intro k hk
    cases k with
    | zero =>
      show m.data.length ≠ 0
      omega
    | succ j =>
      have := hrest j (by omega)
      omega
  rw [cfMax_fd hc hr.2] at hnext
  by_cases hstep : lastRest m.data.length ∈ paddingSteps
  · -- one byte is left for a frame of its own
    rw [if_pos hstep] at hnext ⊢
    have hone : restAfter cfg m.data.length ((m.data.length - 58 - 1) / 63 + 2) = 1 := by omega
    refine h.length_eq (fun k hk => ?_) ?_ hz
    · obtain hk | rfl := Nat.lt_succ_iff_lt_or_eq.mp hk
      · exact hbefore k hk
      · rw [hone]
        decide
    · show restAfter cfg _ (_ + 1) - cfMax cfg (restAfter cfg _ (_ + 1)) = 0
      rw [hone, cfMax_fd hc (by decide)]
      decide
  · rw [if_neg hstep] at hnext ⊢
    exact h.length_eq hbefore (hnext.trans (Nat.sub_self _)) hz

/-- The frames are those of `wireAt`. -/
theorem Cut.getElem? (h : m.Cut cfg) {k : Nat} (hk : k < m.frames.length) :
    m.frames[k]? = some (wireAt cfg m.data k) := by
  rw [h.frames, List.getElem?_map, List.getElem?_range hk]
  rfl

/-- **A frame before the last** is full: the header byte and the next 63 bytes. -/
theorem wireAt_full {cfg : Config} (hc : cfg.canfd = true) {d : List UInt8} {i : Nat}
    (hi : 58 + 63 * (i + 1) < d.length) :
    wireAt cfg d (i + 1) = cfHeader ((i + 1) % 16) :: (d.drop (58 + 63 * i)).take 63 := by
  have hr : 0 < lastRest d.length ∧
      d.length = 58 + 63 * ((d.length - 58 - 1) / 63) + lastRest d.length := by
    unfold lastRest
    omega
  have hleft := restAfter_fd hc (n := d.length) (by omega) (j := i) (by omega)
  -- a byte more than this frame takes is left, so the table is not asked
  have hlong : 63 < restAfter cfg d.length (i + 1) := by omega
  have hfull : cfMax cfg (restAfter cfg d.length (i + 1)) = 63 := by
    rw [cfMax_fd_long hc (by omega)]
    omega
  have hdata : dataFrameLen cfg (restAfter cfg d.length (i + 1)) = 64 := by
    rw [dataFrameLen, if_pos hc]
    exact if_pos (by omega)
  simp only [wireAt, hfull, hdata, cfDataOffset]
  rw [show d.length - restAfter cfg d.length (i + 1) = 58 + 63 * i by omega]
  simp

/-- **The last frame** carries the rest, padded to the length that the table has for the rest,
unless that is a step of the table. -/
theorem wireAt_last {cfg : Config} (hc : cfg.canfd = true) {d : List UInt8} (hl : 62 < d.length)
    (hstep : lastRest d.length ∉ paddingSteps) :
    wireAt cfg d ((d.length - 58 - 1) / 63 + 1) =
      cfHeader (((d.length - 58 - 1) / 63 + 1) % 16) ::
        (d.drop (58 + 63 * ((d.length - 58 - 1) / 63)) ++
          List.replicate (getPaddingLength (lastRest d.length) - 1 - lastRest d.length)
            cfg.paddingByte) := by
  have hr : lastRest d.length ≤ 63 ∧
      d.length = 58 + 63 * ((d.length - 58 - 1) / 63) + lastRest d.length := by
    unfold lastRest
    omega
  have hmax := cfMax_fd hc hr.1
  rw [if_neg hstep] at hmax
  have hleft := restAfter_fd hc (n := d.length) (by omega) le_rfl
  rw [Nat.sub_self, Nat.mul_zero, Nat.zero_add] at hleft
  have hdrop : (d.drop (58 + 63 * ((d.length - 58 - 1) / 63))).length ≤ lastRest d.length := by
    rw [List.length_drop]
    omega
  simp only [wireAt, hleft, hmax]
  rw [show d.length - lastRest d.length = 58 + 63 * ((d.length - 58 - 1) / 63) by omega,
    List.take_of_length_le hdrop, dataFrameLen, if_pos hc]
  rfl

/-- **What is cut is segmented** if and only if the rest is no step of the table, and the table has
the least length with room for it. -/
theorem Cut.segmentedIn_iff (h : m.Cut cfg) (hc : cfg.canfd = true) (hl : 62 < m.data.length)
    (hz : restAfter cfg m.data.length m.frames.length = 0) (lengths : List Nat) :
    m.SegmentedIn lengths ↔ lastRest m.data.length ∉ paddingSteps ∧
      getPaddingLength (lastRest m.data.length) ∈ lengths ∧
        ∀ l ∈ lengths, 1 + lastRest m.data.length ≤ l →
          getPaddingLength (lastRest m.data.length) ≤ l := by
  have hlen := h.length_fd hc hl hz
  have hr : 0 < lastRest m.data.length ∧ lastRest m.data.length ≤ 63 ∧
      m.data.length = 58 + 63 * ((m.data.length - 58 - 1) / 63) + lastRest m.data.length := by
    unfold lastRest
    omega
  by_cases hstep : lastRest m.data.length ∈ paddingSteps
  · -- one frame too many
    refine iff_of_false (fun hs => ?_) fun hs => hs.1 hstep
    rw [if_pos hstep] at hlen
    have hcount := hs.count
    omega
  rw [if_neg hstep] at hlen
  -- off the steps the table has room for the rest and the header byte
  have hroom : lastRest m.data.length + 1 ≤ getPaddingLength (lastRest m.data.length) := by
    have hmax := cfMax_fd hc hr.2.1
    rw [if_neg hstep, cfMax, dataFrameLen, if_pos hc, cfDataOffset] at hmax
    omega
  have hbefore : m.frames.length - 2 = (m.data.length - 58 - 1) / 63 := by omega
  have hrest : (m.data.drop (58 + 63 * (m.frames.length - 2))).length = lastRest m.data.length := by
    rw [List.length_drop]
    omega
  -- the last frame follows the full ones
  have hlast : m.frames.getLast? =
      some (wireAt cfg m.data ((m.data.length - 58 - 1) / 63 + 1)) := by
    rw [List.getLast?_eq_getElem?, h.getElem? (by omega)]
    congr 2
    omega
  have hwire := wireAt_last hc hl hstep
  rw [← hbefore] at hwire hlast
  have hwlen : (wireAt cfg m.data (m.frames.length - 2 + 1)).length =
      getPaddingLength (lastRest m.data.length) := by
    rw [hwire, List.length_cons, List.length_append, hrest, List.length_replicate]
    omega
  constructor
  · intro hs
    obtain ⟨b, pad, w, hw, -, hmem, hleast⟩ := hs.last
    obtain rfl := Option.some.inj (hw.symm.trans hlast)
    rw [hwlen] at hmem hleast
    rw [hrest] at hleast
    exact ⟨hstep, hmem, hleast⟩
  · rintro ⟨-, hmem, hleast⟩
    refine ⟨by omega, fun i hi => ?_, _, _, _, hlast, hwire, by rwa [hwlen], ?_⟩
    · refine ⟨(m.data.drop (58 + 63 * i)).take 63, ?_, List.take_prefix .., ?_⟩
      · rw [List.length_take, List.length_drop]
        omega
      · rw [h.getElem? (by omega)]
        exact congrArg some (wireAt_full hc (by omega))
    · rw [hwlen, hrest]
      exact hleast

end Sending

/-- The table has the least of its lengths with room for the header byte, but at its steps. -/
theorem getPaddingLength_least {r : Nat} (h₀ : 0 < r) (h : r ≤ 63) (hstep : r ∉ paddingSteps) :
    (getPaddingLength r ∈ paddedLengths ∧
        ∀ l ∈ paddedLengths, 1 + r ≤ l → getPaddingLength r ≤ l) ∧
      ((getPaddingLength r ∈ canfdLengths ∧
        ∀ l ∈ canfdLengths, 1 + r ≤ l → getPaddingLength r ≤ l) ↔ 7 ≤ r) := by
  have hpadded : ∀ r ≤ 63, 0 < r → r ∉ paddingSteps → getPaddingLength r ∈ paddedLengths ∧
      ∀ l ∈ paddedLengths, 1 + r ≤ l → getPaddingLength r ≤ l := by decide
  have hlong : ∀ r ≤ 63, 7 ≤ r → r ∉ paddingSteps → getPaddingLength r ∈ canfdLengths ∧
      ∀ l ∈ canfdLengths, 1 + r ≤ l → getPaddingLength r ≤ l := by decide
  -- a shorter rest would fit a frame of less than eight bytes
  have hshort : ∀ r < 7, 1 + r ∈ canfdLengths ∧ ¬ getPaddingLength r ≤ 1 + r := by decide
  refine ⟨hpadded r h h₀ hstep, fun hleast => ?_, fun hr => hlong r h hr hstep⟩
  by_contra hr
  obtain ⟨hmem, hlt⟩ := hshort r (by omega)
  exact hlt (hleast.2 _ hmem le_rfl)

namespace Node

variable {cfg : Config} {s s' : Node} {e : Event} {es : List Event} {p : Nat}

theorem cuts_run (hr : Run cfg es s) (hk : RunAlong cfg KeepsPcbs es)
    (hc : RunAlong cfg ConfirmsAccepted es) (ho : RunAlong cfg SendsOutside es) :
    AtMostOne (s.view (p, .output)) ∧ Sends cfg (s.view (p, .output)) ∧
      Cuts cfg (s.view (p, .output)) :=
  output_inv_confirmed (I := fun v => Sends cfg v ∧ Cuts cfg v) p
    ⟨Sends.initial, by rintro _ ⟨⟩⟩
    (fun _ hn hca _ _ hb hi hst => ⟨Sends.step hn hca hb hi.1 hst, Cuts.step hn hb hi.1 hi.2 hst⟩)
    hr hk hc ho hc

/-- **A transfer runs to completion**: the confirmation of its last frame leaves the flow idle. -/
structure Completes (cfg : Config) (s : Node) (p : Nat) (s' : Node) : Prop where
  step : step cfg s (.sent (p, .output) .ok) = some s'
  owed : (p, .output) ∈ s.confirms
  busy : (s.flow (p, .output)).state ≠ .idle
  idle : (s'.flow (p, .output)).state = .idle

/-- **When a transfer completes**, nothing is left of its message. -/
theorem Completes.cut (h : Completes cfg s p s') (hs : Sound s) (hu : Unused cfg s)
    (hsends : Sends cfg (s.view (p, .output))) (hcuts : Cuts cfg (s.view (p, .output)))
    {m : Sending} (hm : sending (s'.logOf (p, .output)) = some m) (hseg : m.Segmented cfg) :
    m.Cut cfg ∧ restAfter cfg m.data.length m.frames.length = 0 := by
  obtain ⟨m₀, buf, ha⟩ := hsends.active h.busy
  have hi := h.idle
  change sending (s'.view (p, .output)).log = some m at hm
  rw [← view_flow] at hi
  -- the step moved the flow, and of its transitions only the completion ends idle
  obtain he | ⟨-, hstep⟩ := output_moves hs hu h.step p
  · rw [he] at hi
    exact absurd hi h.busy
  generalize s'.view (p, .output) = v' at hi hm hstep
  cases hstep with
  | confirm hsn hsw =>
    cases hsw with
    | skip => exact absurd hi h.busy
    | ff | cf | block => cases hi
    | complete hd =>
      rw [View.emitIf_log] at hm
      have hquiet : ∀ n, Obs.Quiet (.sent p (s.pcb p).callbackArg n) := fun _ => trivial
      obtain ⟨m₁, hm₁, hd₁, hf₁⟩ := sending_quiet (quiet_emitIf (hquiet _)) hm
      obtain rfl := Option.some.inj (ha.current.symm.trans hm₁)
      have hseg₀ : m₀.Segmented cfg := by
        rw [Sending.Segmented, hd₁]
        exact hseg
      obtain ⟨hcut, hrest⟩ := hcuts m₀ ha.current hseg₀
      -- a segmented message is not completed by a single frame
      obtain hsf | ⟨-, hzero⟩ := hd
      · exact absurd hsf (ha.segmented.mpr hseg₀)
      · rw [← hd₁, ← hf₁, ← hrest h.busy]
        exact ⟨hcut.congr hd₁ hf₁, hzero⟩
  | refuse hsn herr => exact absurd rfl herr

/-- **A message of more than 62 bytes is cut as it should be** when its transfer completes, if and
only if what is left for the last frame is no step of `padding_length`; and its last frame has the
least of all CAN FD lengths if it carries seven bytes at least, since no frame is shorter than
eight. -/
theorem segmented_iff (hcfg : cfg.canfd = true) (hr : Run cfg es s) (hk : RunAlong cfg KeepsPcbs es)
    (hc : RunAlong cfg ConfirmsAccepted es) (ho : RunAlong cfg SendsOutside es)
    (h : Completes cfg s p s') {m : Sending} (hm : sending (s'.logOf (p, .output)) = some m)
    (hl : 62 < m.data.length) :
    (m.SegmentedIn paddedLengths ↔ lastRest m.data.length ∉ paddingSteps) ∧
      (m.SegmentedIn canfdLengths ↔
        lastRest m.data.length ∉ paddingSteps ∧ 7 ≤ lastRest m.data.length) := by
  obtain ⟨hsound, hu⟩ := kept_run hr hk
  obtain ⟨-, hsends, hcuts⟩ := cuts_run (p := p) hr hk hc ho
  have hseg : m.Segmented cfg := by
    simpa [Sending.Segmented, sfMax, hcfg, canfdMaxDlen, fdSfDataOffset] using hl
  obtain ⟨hcut, hz⟩ := h.cut hsound hu hsends hcuts hm hseg
  have hrest : 0 < lastRest m.data.length ∧ lastRest m.data.length ≤ 63 := by
    unfold lastRest
    omega
  -- what remains is whether the table has the least length for the rest
  rw [hcut.segmentedIn_iff hcfg hl hz, hcut.segmentedIn_iff hcfg hl hz]
  refine ⟨and_iff_left_of_imp fun hstep => ?_, and_congr_right fun hstep => ?_⟩
  · exact (getPaddingLength_least hrest.1 hrest.2 hstep).1
  · exact (getPaddingLength_least hrest.1 hrest.2 hstep).2

/-- A CAN FD connection that has handed over two frames of a message: all is sent if that is all it
takes. -/
def twoHandedOver (d : List UInt8) : List Event := connected ++
  [.call (.isotpSend (some 0) (some d) ⟨some 1, some 2, fun _ => 0⟩),
    .timer ⟨0, 0, 0, fun _ => 0⟩ .ok, .sent (0, .output) .ok,
    .input 0 readyFrame ⟨none, none, fun _ => 0⟩, .timer ⟨0, 0, 0, fun _ => 0⟩ .ok]

/-- A run of the connection that completes -/
def FdCompletes (s : Node) (n : Nat) : Prop :=
  (sending ((s.next fdConfig (.sent (0, .output) .ok)).logOf (0, .output))).map
      (fun m => m.data.length) = some n ∧
    s.Enabled (.sent (0, .output) .ok) ∧ (0, .output) ∈ s.confirms ∧
    (s.flow (0, .output)).state ≠ .idle ∧
    ((s.next fdConfig (.sent (0, .output) .ok)).flow (0, .output)).state = .idle

instance (s : Node) (n : Nat) : Decidable (FdCompletes s n) :=
  inferInstanceAs (Decidable (_ ∧ _ ∧ _ ∧ _ ∧ _))

theorem segmented_sixtyEight : ∃ s s' m, Run fdConfig (twoHandedOver (List.replicate 68 0x55)) s ∧
    Completes fdConfig s 0 s' ∧ sending (s'.logOf (0, .output)) = some m ∧ m.data.length = 68 ∧
    m.SegmentedIn paddedLengths := by
  obtain ⟨s, hr, hm, he, hca, hni, hi⟩ := exists_run fdConfig
    (twoHandedOver (List.replicate 68 0x55)) (fun s => FdCompletes s 68) (by decide +kernel)
  obtain ⟨m, hm, hd⟩ := Option.map_eq_some_iff.mp hm
  have h : Completes fdConfig s 0 (s.next fdConfig (.sent (0, .output) .ok)) :=
    ⟨step_eq_some.mpr ⟨he, rfl⟩, hca, hni, hi⟩
  refine ⟨s, _, m, hr, h, hm, hd, ?_⟩
  refine (segmented_iff (p := 0) rfl hr (by decide +kernel) (by decide +kernel)
    (by decide +kernel) h hm (by rw [hd]; decide)).1.mpr ?_
  rw [hd]
  decide

/-- **A short frame in the middle.** Of 66 bytes the first frame leaves eight. The next frame is
eight bytes long with its header, and a third one carries the last byte. -/
theorem segmented_spills :
    ¬∀ (cfg : Config) (es : List Event) (s s' : Node) (p : Nat) (m : Sending), cfg.canfd = true →
      Run cfg es s → RunAlong cfg KeepsPcbs es → RunAlong cfg ConfirmsAccepted es →
      RunAlong cfg SendsOutside es → Completes cfg s p s' →
      sending (s'.logOf (p, .output)) = some m → 62 < m.data.length →
      m.SegmentedIn paddedLengths := by
  intro h
  obtain ⟨s, hr, ⟨hm, he, hca, hni, hi⟩, hframes⟩ := exists_run fdConfig
    (twoHandedOver (List.replicate 66 0x55) ++
      [.sent (0, .output) .ok, .timer ⟨0, 0, 0, fun _ => 0⟩ .ok])
    (fun s => FdCompletes s 66 ∧ ((sending ((s.next fdConfig (.sent (0, .output) .ok)).logOf
      (0, .output))).map fun m => m.frames.length) = some 3) (by decide +kernel)
  obtain ⟨m, hm, hd⟩ := Option.map_eq_some_iff.mp hm
  have hcount := (h fdConfig _ s _ 0 m rfl hr (by decide +kernel) (by decide +kernel)
    (by decide +kernel) ⟨step_eq_some.mpr ⟨he, rfl⟩, hca, hni, hi⟩ hm (by rw [hd]; decide)).count
  -- two frames would carry it
  have hthree : m.frames.length = 3 := by
    rw [hm] at hframes
    exact Option.some.inj hframes
  rw [hthree, hd] at hcount
  exact absurd hcount (by decide)

end Node
end Lwcan
