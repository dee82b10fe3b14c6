import Lwcan.Blocks
import Lwcan.Reassembly
import Lwcan.Sender

/-!
# The block size is honoured, up to a point

Sender and receiver count the frames of a block in the same way (`Lwcan.Blocks`), and both count
wrong in long messages.

* `blocksOut`, `blocksIn` — the blocks of the message sent last, and of the message opened last, as
  the log tells them.
* `BlocksOut`, `BlocksIn` — what the flows decide follows the frames.
* `blocks_honoured` — a sender honours the block size in messages of no more than `limit`
  consecutive frames, and breaks it in every longer message that it hands over; a receiver honours
  it as long as its messages go on after fewer than `limit` consecutive frames, and no longer.
* `blocks_broken` — the third frame of a message in blocks of two is followed by a flow control.
-/

namespace Lwcan

open Monitor

/-! ### The blocks of a message -/

/-- The wire bytes are those of a consecutive frame. -/
def isCf (w : List UInt8) : Bool := wireData w 0 &&& frameTypeMask = cfType

/-- The wire bytes are those of a flow-control frame that is READY. -/
def isReady (w : List UInt8) : Bool := wireData w 0 = fcType

/-- The blocks of the message sent last, after an entry of the log -/
def blocksOutStep (bs : Nat) (b : Blocks) : Obs → Blocks
  | .send _ _ => {}
  | .output _ _ _ w _ _ => if isCf w then b.frame bs else b
  | .waitFc _ => b.gate bs
  | _ => b

/-- The blocks of the message opened last, after an entry of the log -/
def blocksInStep (bs : Nat) (b : Blocks) : Obs → Blocks
  | .opened _ _ _ => {}
  | .consecutive _ _ => b.frame bs
  | .output _ _ _ w _ _ => if isReady w then b.gate bs else b
  | _ => b

/-- **The blocks of the message sent last**: a block ends where the flow enters `ISOTP_WAIT_FC`. -/
def blocksOut (bs : Nat) (log : List Obs) : Blocks := log.foldl (blocksOutStep bs) {}

/-- **The blocks of the message opened last**: a block ends where flow control is emitted. -/
def blocksIn (bs : Nat) (log : List Obs) : Blocks := log.foldl (blocksInStep bs) {}

theorem blocksOut_append (bs : Nat) (l l' : List Obs) :
    blocksOut bs (l ++ l') = l'.foldl (blocksOutStep bs) (blocksOut bs l) :=
  List.foldl_append

theorem blocksIn_append (bs : Nat) (l l' : List Obs) :
    blocksIn bs (l ++ l') = l'.foldl (blocksInStep bs) (blocksIn bs l) :=
  List.foldl_append

/-- A consecutive frame and the copy it leads to -/
theorem blocksIn_frame (bs p : Nat) (l : List Obs) (w : List UInt8) (off n c : Nat) :
    blocksIn bs ((l ++ [.consecutive p w]) ++ [.store p off n c]) = (blocksIn bs l).frame bs := by
  rw [blocksIn_append, blocksIn_append]
  rfl

/-- How many consecutive frames carry `n` bytes -/
def cfNum (cfg : Config) (n : Nat) : Nat :=
  if h : n = 0 then 0
  else
    have := cfMax_pos cfg h
    cfNum cfg (n - cfMax cfg n) + 1

theorem cfNum_eq {cfg : Config} {n : Nat} (h : n ≠ 0) :
    cfNum cfg n = cfNum cfg (n - cfMax cfg n) + 1 := by
  rw [cfNum, dif_neg h]

theorem cfNum_zero (cfg : Config) : cfNum cfg 0 = 0 := by
  rw [cfNum, dif_pos rfl]

/-- How many consecutive frames a message of `n` bytes needs -/
def cfsOf (cfg : Config) (n : Nat) : Nat := cfNum cfg (n - ffMax cfg)

/-- The message sent last -/
def lastSent (log : List Obs) : Option (List UInt8) := (sending log).map Sending.data

/-- Only `isotp_send` changes the message sent last. -/
theorem lastSent_append {l l' : List Obs} (h : ∀ o ∈ l', ∀ p d, o ≠ .send p d) :
    lastSent (l ++ l') = lastSent l := by
  unfold lastSent
  rw [sending_append]
  generalize sending l = cur
  -- by induction on the new entries, for any message before them
  induction l' generalizing cur with
  | nil => rfl
  | cons o l' ih =>
    have ho := h o List.mem_cons_self
    rw [List.foldl_cons, ih fun o' ho' => h o' (List.mem_cons_of_mem _ ho')]
    cases o with
    | send p d => exact absurd rfl (ho p d)
    | output | flowControl | waitFc | sent | error => cases cur <;> rfl
    | _ => rfl

/-! ### The sender -/

/-- What the sender decides follows the frames of a message of `n` bytes. -/
def OutPhase (cfg : Config) (bs n : Nat) (v : View) (b : Blocks) : Prop :=
  match v.flow.state with
  | .txFf => b = {} ∧ (0 < v.confirms → v.flow.remainingData = n - ffMax cfg)
  | .waitFc => b.AtGate bs ∧ v.flow.cfSn = (b.sent + 1) % 16 ∧
    b.sent + cfNum cfg v.flow.remainingData = cfsOf cfg n
  | .txCf => v.flow.bs = bs ∧ b.sent + cfNum cfg v.flow.remainingData = cfsOf cfg n ∧
    (0 < v.tx → v.flow.cfSn = (b.sent + 1) % 16 ∧
      (b.AtGate bs ∨ b.AfterFrame bs ∧ blockOpen bs (b.sent % 16) = true)) ∧
    (0 < v.confirms → v.flow.cfSn = b.sent % 16 ∧ b.AfterFrame bs)
  | _ => True

theorem OutPhase.of_idle {cfg : Config} {bs n : Nat} {v : View} {b : Blocks}
    (h : v.flow.state = .idle) : OutPhase cfg bs n v b := by
  unfold OutPhase
  rw [h]
  trivial

/-- The blocks of a segmented message of `n` bytes -/
structure BlocksOf (cfg : Config) (bs n : Nat) (v : View) (b : Blocks) : Prop where
  limited : b.Limited bs
  passed : b.passed < cfsOf cfg n
  all : b.sent = cfsOf cfg n → b.passed + 1 = cfsOf cfg n
  phase : OutPhase cfg bs n v b

/-- **The invariant of a sender's blocks** -/
def BlocksOut (cfg : Config) (bs : Nat) (v : View) : Prop :=
  ∀ d, lastSent v.log = some d → sfMax cfg < d.length →
    BlocksOf cfg bs d.length v (blocksOut bs v.log)

namespace Node

/-- The flow-control frames for a pcb that are READY carry this block size. -/
def ReadyCarries (bs p : Nat) (s : Node) : Event → Prop
  | .input canif frame _ => s.findPcb canif frame = some p →
    frame.data 0 &&& frameTypeMask = fcType → (frame.data 0 &&& 0x0F).toNat = fsReady →
      (frame.data 1).toNat = bs
  | _ => True

instance (bs p : Nat) (s : Node) : (e : Event) → Decidable (ReadyCarries bs p s e)
  | .input canif frame _ => inferInstanceAs (Decidable (s.findPcb canif frame = some p →
    frame.data 0 &&& frameTypeMask = fcType → (frame.data 0 &&& 0x0F).toNat = fsReady →
      (frame.data 1).toNat = bs))
  | .call _ | .timer _ _ | .sent _ _ | .resume | .tick _ => isTrue True.intro

end Node

theorem isCf_ffHeader (cfg : Config) (n : Nat) (x : List UInt8) :
    isCf (ffHeader cfg n ++ x) = false := by
  unfold isCf ffHeader
  refine decide_eq_false ?_
  cases cfg.canfd with
  | true =>
    show ¬ ffType &&& frameTypeMask = cfType
    decide
  | false =>
    show ¬ (ffType ||| (UInt8.ofNat (n >>> 8) &&& 0x0F)) &&& frameTypeMask = cfType
    rw [ffHeader_type]
    decide

theorem isCf_cfHeader (sn : Nat) (x : List UInt8) : isCf (cfHeader sn :: x) = true :=
  decide_eq_true (cfHeader_type sn)

namespace BlocksOut

open Node

variable {cfg : Config} {s : Node} {p bs : Nat} {e : Event} {v v' w : View}

theorem initial : BlocksOut cfg bs View.initial := by rintro _ ⟨⟩

/-- A transition within a message, by its entries of the log -/
theorem next (h : BlocksOut cfg bs v) {l : List Obs} (hl : w.log = v.log ++ l)
    (hs : ∀ o ∈ l, ∀ p d, o ≠ .send p d)
    (hstep : ∀ d, lastSent v.log = some d → sfMax cfg < d.length →
      BlocksOf cfg bs d.length v (blocksOut bs v.log) →
        BlocksOf cfg bs d.length w (l.foldl (blocksOutStep bs) (blocksOut bs v.log))) :
    BlocksOut cfg bs w := by
  intro d hd hlong
  rw [hl, lastSent_append hs] at hd
  rw [hl, blocksOut_append]
  exact hstep d hd hlong (h d hd hlong)

/-- A transition to an idle flow whose entries are no part of a block -/
theorem finish (h : BlocksOut cfg bs v) {l : List Obs} (hl : w.log = v.log ++ l)
    (hs : ∀ o ∈ l, ∀ p d, o ≠ .send p d) (hi : w.flow.state = .idle)
    (hb : ∀ b, l.foldl (blocksOutStep bs) b = b) : BlocksOut cfg bs w :=
  h.next hl hs fun d hd hlong hof => by
    rw [hb]
    exact ⟨hof.limited, hof.passed, hof.all, .of_idle hi⟩

/-- A transition that changes neither the flow nor its log -/
theorem same (h : BlocksOut cfg bs v) (hl : w.log = v.log) (hf : w.flow = v.flow)
    (ht : w.tx ≤ v.tx) (hc : w.confirms ≤ v.confirms) : BlocksOut cfg bs w :=
  h.next (l := []) (by rw [hl, List.append_nil]) (by simp) fun d hd hlong hof => by
    refine ⟨hof.limited, hof.passed, hof.all, ?_⟩
    have hph := hof.phase
    unfold OutPhase at hph ⊢
    rw [hf]
    split
    · next hs =>
      rw [hs] at hph
      exact ⟨hph.1, fun h => hph.2 (by omega)⟩
    · next hs =>
      rw [hs] at hph
      exact hph
    · next hs =>
      rw [hs] at hph
      exact ⟨hph.1, hph.2.1, fun h => hph.2.2.1 (by omega), fun h => hph.2.2.2 (by omega)⟩
    · trivial

section Ends

variable {k : FlowId} {o : Option Nat} {c : Bool} {arg : Ptr} {err : Lwcanerr}

/-- What the error paths log is no message and no part of a block. -/
theorem ends_not_send :
    ∀ x ∈ (Obs.dropped k o :: if c then [Obs.error k arg err] else []), ∀ p d, x ≠ .send p d := by
  cases c <;> simp

theorem foldl_ends (b : Blocks) :
    (Obs.dropped k o :: if c then [Obs.error k arg err] else []).foldl (blocksOutStep bs) b =
    b := by
  cases c <;> rfl

end Ends

/-! ### Reaching a state -/

/-- At a flow control with more to come -/
theorem ofGate {n : Nat} {b : Blocks} (hb : b.AtGate bs)
    (hn : b.sent + cfNum cfg w.flow.remainingData = cfsOf cfg n) (hr : w.flow.remainingData ≠ 0)
    (hph : OutPhase cfg bs n w b) : BlocksOf cfg bs n w b := by
  -- something is left, so a frame is to come
  rw [cfNum_eq hr] at hn
  have hover := hb.passed
  exact ⟨hb.limited, by omega, fun h => by omega, hph⟩

/-- After a frame -/
theorem ofFrame {n : Nat} {b : Blocks} (hb : b.AfterFrame bs)
    (hn : b.sent + cfNum cfg w.flow.remainingData = cfsOf cfg n)
    (hph : OutPhase cfg bs n w b) : BlocksOf cfg bs n w b := by
  have hover := hb.passed
  exact ⟨hb.limited, by omega, fun h => by omega, hph⟩

/-- Before the first consecutive frame -/
theorem ofStart {n : Nat} (hlong : sfMax cfg < n) (hph : OutPhase cfg bs n w {}) :
    BlocksOf cfg bs n w {} := by
  have hlt := ffMax_lt_sfMax cfg
  have hne : n - ffMax cfg ≠ 0 := by omega
  have hpos : 0 < cfsOf cfg n := by
    unfold cfsOf
    rw [cfNum_eq hne]
    exact Nat.succ_pos _
  exact ⟨Blocks.atGate_start.limited, hpos, fun h => absurd h hpos.ne, hph⟩

/-! ### Transitions -/

/-- **A message accepted** for sending -/
theorem sendMessage (hb : AtMostOne v) (hi : v.flow.state = .idle) {d : List UInt8} {b : Nat}
    {buf : LwcanBuffer} (slot : Bool) :
    BlocksOut cfg bs ((({ v with
      flow := View.sendFlow cfg v.flow b d
      chain := (b, buf) :: v.chain }.emit (.send p d)).armOutput slot)) := by
  obtain ⟨-, -, hconf⟩ := hb.of_idle hi
  intro d' hd' hlong
  have hcur : lastSent (v.log ++ [.send p d]) = some d := by
    rw [lastSent, sending_append]
    rfl
  change lastSent (v.log ++ [.send p d]) = some d' at hd'
  rw [hcur] at hd'
  cases hd'
  have hblocks : blocksOut bs (v.log ++ [.send p d]) = {} := by
    rw [blocksOut_append]
    rfl
  rw [View.sendFlow, if_pos hlong]
  change BlocksOf cfg bs d.length _ (blocksOut bs (v.log ++ [.send p d]))
  rw [hblocks]
  refine ofStart hlong ⟨rfl, fun hc => ?_⟩
  exact absurd hconf (Nat.pos_iff_ne_zero.mp hc)

section Transitions

variable (hbs : 1 ≤ bs) (hbs' : bs ≤ 255)

include hbs hbs'

/-- **Handing a frame over**: the first frame begins the message, a consecutive frame its block goes
on. -/
theorem handOver (hs : Sends cfg v) {m : Sending} {buf : LwcanBuffer} (ha : Active cfg v m buf)
    (ht : 0 < v.tx) {f : CanFrame} {filled : IsotpFlow × CanFrame} {n : Nat}
    (hfl : isotpFill cfg v.headBuffer v.flow f = some (filled, n)) {b : Blocks}
    (hph : OutPhase cfg bs m.data.length v b) (hseg : m.Segmented cfg) :
    (v.flow.state = .txFf ∧ (if isCf filled.2.wire then b.frame bs else b) = {} ∧
        filled.1.remainingData = m.data.length - ffMax cfg) ∨
      (v.flow.state = .txCf ∧ v.flow.bs = bs ∧
        (if isCf filled.2.wire then b.frame bs else b).AfterFrame bs ∧
        v.flow.cfSn = (if isCf filled.2.wire then b.frame bs else b).sent % 16 ∧
        (if isCf filled.2.wire then b.frame bs else b).sent +
          cfNum cfg filled.1.remainingData = cfsOf cfg m.data.length) := by
  unfold OutPhase at hph
  cases hst : v.flow.state with
  | txSf => exact absurd hst (ha.segmented.mpr hseg)
  | idle | txFc | waitCf | waitFc => simp [isotpFill, hst] at hfl
  | txFf =>
    -- a first frame is no frame of a block
    obtain ⟨-, -, hrem, hwire⟩ := hs.firstFrame ha ht hst hfl
    rw [hst] at hph
    rw [hwire, isCf_ffHeader]
    exact Or.inl ⟨rfl, hph.1, hrem⟩
  | txCf =>
    -- a consecutive frame begins a block at a gate, or goes on with an open one
    obtain ⟨hrem, -, hrem', hwire⟩ := hs.consecutiveFrame ha ht hst hfl
    rw [hst] at hph
    obtain ⟨hb, hn, hdue, -⟩ := hph
    obtain ⟨hsn, hphase⟩ := hdue ht
    rw [hwire, isCf_cfHeader, if_pos rfl, hrem']
    rw [cfNum_eq hrem] at hn
    refine Or.inr ⟨rfl, hb, ?_, hsn, ?_⟩
    · rcases hphase with hg | ⟨hf, hopen⟩
      · exact hg.frame hbs
      · exact hf.frame hbs hbs' hopen
    · show b.sent + 1 + _ = _
      omega

/-- **The confirmation of a frame** -/
theorem outputSwitch (h : BlocksOut cfg bs v) (hs : Sends cfg v) (hb : AtMostOne v)
    (hc : 0 < v.confirms) {pcb : IsotpPcb} {slot : Bool}
    (hw : OutputSwitch pcb p slot { v with confirms := v.confirms - 1 } v') :
    BlocksOut cfg bs v' := by
  obtain ⟨h₁, h₂, h₃, h₄, hsends⟩ := hb.of_confirms_pos hc
  obtain ⟨m, buf, ha⟩ := hs.active (ne_idle_of_sends hsends)
  have hpos := ha.position
  have hlast : lastSent v.log = some m.data := by rw [lastSent, ha.current]; rfl
  have hnc : ¬ 0 < v.confirms - 1 := by omega
  unfold Position at hpos
  cases hw with
  | skip => exact h.same rfl rfl le_rfl (Nat.sub_le ..)
  | complete =>
    refine h.finish (View.emitIf_log ..) (fun o ho p d he => ?_) (by rw [View.emitIf_flow]; rfl)
      fun b => ?_
    · subst he
      split at ho
      · cases List.mem_singleton.mp ho
      · cases ho
    · split <;> rfl
  | ff hst =>
    change v.flow.state = .txFf at hst
    rw [hst] at hpos
    obtain ⟨hsn, -, hone⟩ := hpos
    obtain ⟨-, hrem⟩ := hone hc
    refine h.next rfl (by simp) fun d hd hlong hof => ?_
    have hph := hof.phase
    unfold OutPhase at hph
    rw [hst] at hph
    have hstart := hph.1
    rw [hph.1]
    -- flow control comes after the first frame, before any block
    have hg : (Blocks.gate bs {}).AtGate bs := Blocks.atGate_start.gate rfl
    have hn : (Blocks.gate bs {}).sent + cfNum cfg v.flow.remainingData = cfsOf cfg d.length := by
      rw [hph.2 hc]
      exact Nat.zero_add _
    exact ofGate hg hn hrem ⟨hg, hsn, hn⟩
  | cf hst hr hopen =>
    change v.flow.state = .txCf at hst
    refine h.next (l := []) (List.append_nil _).symm (by simp) fun d hd hlong hof => ?_
    have hph := hof.phase
    unfold OutPhase at hph
    rw [hst] at hph
    obtain ⟨hbb, hn, -, hlast⟩ := hph
    obtain ⟨hsn, hf⟩ := hlast hc
    -- `cf_sn` is the number of frames sent, up to a multiple of 16, and decides
    change blockOpen v.flow.bs v.flow.cfSn = true at hopen
    rw [hbb, hsn] at hopen
    refine ofFrame hf hn ⟨hbb, hn, fun _ => ⟨?_, Or.inr ⟨hf, hopen⟩⟩, fun h => absurd h hnc⟩
    show nextSn v.flow.cfSn = _
    rw [hsn, nextSn_mod]
    rfl
  | block hst hr hclosed =>
    change v.flow.state = .txCf at hst
    refine h.next rfl (by simp) fun d hd hlong hof => ?_
    have hph := hof.phase
    unfold OutPhase at hph
    rw [hst] at hph
    obtain ⟨hbb, hn, -, hlast⟩ := hph
    obtain ⟨hsn, hf⟩ := hlast hc
    change ¬ blockOpen v.flow.bs v.flow.cfSn = true at hclosed
    rw [hbb, hsn, Bool.not_eq_true] at hclosed
    -- the block is closed by the same comparison
    have hg := hf.gate hbs hbs' hclosed
    refine ofGate hg hn hr ⟨hg, ?_, hn⟩
    show nextSn v.flow.cfSn = _
    rw [hsn, nextSn_mod]
    rfl

/-- **A frame handed over** that the driver accepts -/
theorem accepted (h : BlocksOut cfg bs v) (hs : Sends cfg v) (hb : AtMostOne v) (ht : 0 < v.tx)
    {f : CanFrame} {filled : IsotpFlow × CanFrame} {n canif : Nat}
    (hfl : isotpFill cfg v.headBuffer v.flow f = some (filled, n)) :
    BlocksOut cfg bs (({ v with tx := v.tx - 1 }.setFlow filled.1).accepted (p, .output) canif
      filled.2 n) := by
  obtain ⟨htx, -, -, -, hsends⟩ := hb.of_tx_pos ht
  obtain ⟨m, buf, ha⟩ := hs.active (ne_idle_of_sends hsends)
  have hflow := Sends.isotpFill_flow hfl
  have hnt : ¬ 0 < v.tx - 1 := by omega
  refine h.next rfl (by simp) fun d hd hlong hof => ?_
  obtain rfl : m.data = d := by
    rw [lastSent, ha.current] at hd
    exact Option.some.inj hd
  rcases handOver hbs hbs' hs ha ht hfl hof.phase hlong with
    ⟨hst, hbe, hrem⟩ | ⟨hst, hbb, haf, hsn, hnum⟩
  · -- the first frame
    show BlocksOf cfg bs _ _ (if isCf filled.2.wire then _ else _)
    rw [hbe]
    refine ofStart hlong ?_
    unfold OutPhase
    show match filled.1.state with | .txFf => _ | .waitFc => _ | .txCf => _ | _ => _
    rw [isotpFill_state hfl, hst]
    exact ⟨rfl, fun _ => hrem⟩
  · -- a consecutive frame
    refine ofFrame haf hnum ?_
    unfold OutPhase
    show match filled.1.state with | .txFf => _ | .waitFc => _ | .txCf => _ | _ => _
    rw [isotpFill_state hfl, hst]
    refine ⟨?_, hnum, fun ht' => absurd ht' hnt, fun _ => ⟨?_, haf⟩⟩
    · show filled.1.bs = bs
      rw [hflow]
      exact hbb
    · show filled.1.cfSn = _
      rw [hflow]
      exact hsn

/-- **A frame handed over** that the driver rejects is a frame of its block all the same. -/
theorem rejected (h : BlocksOut cfg bs v) (hs : Sends cfg v) (hb : AtMostOne v) (ht : 0 < v.tx)
    {f : CanFrame} {filled : IsotpFlow × CanFrame} {n canif : Nat}
    (hfl : isotpFill cfg v.headBuffer v.flow f = some (filled, n)) (pcb : IsotpPcb)
    (ret : Lwcanerr) :
    BlocksOut cfg bs (({ v with tx := v.tx - 1 }.setFlow filled.1).rejected (p, .output) pcb canif
      filled.2 n ret) := by
  obtain ⟨m, buf, ha⟩ := hs.active (hb.ne_idle_of_tx ht)
  refine h.next ((View.fail_log ..).trans (List.append_assoc _ [_] _))
    (fun o ho => ?_) fun d hd hlong hof => ?_
  · rcases List.mem_cons.mp ho with rfl | ho
    · simp
    · exact ends_not_send o ho
  · obtain rfl : m.data = d := by
      rw [lastSent, ha.current] at hd
      exact Option.some.inj hd
    rw [List.cons_append, List.nil_append, List.foldl_cons, foldl_ends]
    rcases handOver hbs hbs' hs ha ht hfl hof.phase hlong with
      ⟨-, hbe, -⟩ | ⟨-, -, haf, -, hnum⟩
    · show BlocksOf cfg bs _ _ (if isCf filled.2.wire then _ else _)
      rw [hbe]
      exact ofStart hlong (.of_idle (View.fail_state ..))
    · refine ofFrame haf ?_ (.of_idle (View.fail_state ..))
      rw [View.rejected, View.fail, View.emitIf_flow]
      exact hnum

/-- **Every transition of an output flow** -/
theorem step (hn : e ≠ .call .isotpNew) (hca : ConfirmsAccepted s e) (hrc : ReadyCarries bs p s e)
    (hb : AtMostOne (s.view (p, .output))) (hs : Sends cfg (s.view (p, .output)))
    (h : BlocksOut cfg bs (s.view (p, .output)))
    (hst : OutputStep cfg s p (s.view (p, .output)) e v') : BlocksOut cfg bs v' := by
  -- what is counted are the frames since the last flow control
  cases hst with
  | send hsi => exact sendMessage hb hsi _
  | skip => exact h.same rfl rfl (Nat.sub_le ..) le_rfl
  | output hf hcan ht hfl => exact accepted hbs hbs' h hs hb ht hfl
  | reject hf hcan ht hfl => exact rejected hbs hbs' h hs hb ht hfl _ _
  | expire =>
    exact h.finish (View.fail_log ..) ends_not_send (View.fail_state ..) foldl_ends
  | confirm hsn hsw => exact outputSwitch hbs hbs' h hs hb (List.count_pos_iff.mpr hca) hsw
  | refuse hsn herr =>
    exact h.finish (View.refused_log ..) ends_not_send (by rw [View.refused_flow]) foldl_ends
  | resume hsn hsw =>
    have hsi := hb.idle_of_suspended hsn rfl
    rw [hsw.eq_of_idle hsi]
    exact h.same rfl rfl le_rfl le_rfl
  | wait hfind hst hf hnw =>
    refine h.next rfl (by simp) fun d hd hlong hof => ⟨hof.limited, hof.passed, hof.all, ?_⟩
    -- `OutPhase` reads the state, which a wait leaves as it is.
    have hph := hof.phase
    unfold OutPhase at hph
    rw [hst] at hph
    unfold OutPhase
    show match (s.view (p, .output)).flow.state with
      | .txFf => _ | .waitFc => _ | .txCf => _ | _ => _
    rw [hst]
    exact hph
  | @abort canif f g hfind hst hf hr =>
    refine h.finish ((View.fail_log ..).trans (List.append_assoc _ [_] _)) (fun o ho => ?_)
      (View.fail_state ..) foldl_ends
    rcases List.mem_cons.mp ho with rfl | ho
    · simp
    · exact ends_not_send o ho
  | proceed hfind hst hf ht =>
    -- a flow control that says go ahead opens the next block, of the size it carries
    obtain ⟨h₁, h₂, h₃, h₄⟩ := hb.of_waits (by rw [hst]; rfl)
    refine h.next rfl (by simp) fun d hd hlong hof => ⟨hof.limited, hof.passed, hof.all, ?_⟩
    have hph := hof.phase
    unfold OutPhase at hph
    rw [hst] at hph
    exact ⟨hrc hfind ht hf, hph.2.2, fun _ => ⟨hph.2.1, Or.inl hph.1⟩,
      fun hc => absurd h₃ (Nat.pos_iff_ne_zero.mp hc)⟩
  | new => exact absurd rfl hn

end Transitions

end BlocksOut

/-! ### The receiver -/

/-- What the receiver decides follows the frames. -/
def InPhase (bs : Nat) (v : View) (b : Blocks) : Prop :=
  match v.flow.state with
  | .txFc => v.flow.fs = fsReady → v.flow.bs = bs ∧ v.flow.cfSn = (b.sent + 1) % 16 ∧
    (0 < v.tx → b.AtGate bs ∧ b.sent = 0 ∨
      b.AfterFrame bs ∧ blockOpen bs (b.sent % 16) = false) ∧
    (0 < v.confirms → b.AtGate bs)
  | .waitCf => v.flow.bs = bs ∧ v.flow.cfSn = (b.sent + 1) % 16 ∧
    (b.AtGate bs ∨ b.AfterFrame bs ∧ blockOpen bs (b.sent % 16) = true)
  | _ => True

theorem InPhase.of_idle {bs : Nat} {v : View} {b : Blocks} (h : v.flow.state = .idle) :
    InPhase bs v b := by
  unfold InPhase
  rw [h]
  trivial

/-- **The invariant of a receiver's blocks** -/
structure BlocksIn (bs : Nat) (v : View) : Prop where
  limited : (blocksIn bs v.log).Limited bs
  status : v.flow.fs = fsReady ∨ v.flow.fs = fsOverflow
  phase : InPhase bs v (blocksIn bs v.log)
  suspended : ∀ q, v.suspended = some (.receivedFfOutput q) → v.flow.fs ≠ fsReady

/-- The flow-control frame of a flow says READY if its status does. -/
theorem isReady_fillFc {cfg : Config} {fl : IsotpFlow} {f : CanFrame}
    (h : fl.fs = fsReady ∨ fl.fs = fsOverflow) :
    isReady (isotpFillFc cfg fl f).wire = decide (fl.fs = fsReady) := by
  rw [isotpFillFc_wire]
  show decide (fcType ||| UInt8.ofNat (fl.fs &&& 0x0F) = fcType) = _
  rcases h with h | h <;> rw [h] <;> decide

/-- A flow-control frame handed over ends a block if it says READY. -/
theorem blocksIn_output (cfg : Config) {fl : IsotpFlow} (f : CanFrame) (bs : Nat) (l : List Obs)
    (k : FlowId) (canif id : Nat) (h : fl.fs = fsReady ∨ fl.fs = fsOverflow) (t : Nat)
    (ret : Lwcanerr) :
    blocksIn bs (l ++ [.output k canif id (isotpFillFc cfg fl f).wire t ret]) =
      if fl.fs = fsReady then (blocksIn bs l).gate bs else blocksIn bs l := by
  rw [blocksIn_append]
  show (if isReady (isotpFillFc cfg fl f).wire then _ else _) = _
  rw [isReady_fillFc h]
  by_cases hr : fl.fs = fsReady <;> simp [hr]

namespace BlocksIn

open Node

variable {cfg : Config} {s : Node} {p bs : Nat} {e : Event} {v v' w : View}

theorem initial : BlocksIn bs View.initial :=
  ⟨Blocks.atGate_start.limited, Or.inl rfl, trivial, by rintro _ ⟨⟩⟩

/-- A transition to an idle flow whose entries are no part of a block -/
theorem finish (h : BlocksIn bs v) {l : List Obs} (hl : w.log = v.log ++ l)
    (hb : ∀ b, l.foldl (blocksInStep bs) b = b) (hi : w.flow.state = .idle)
    (hf : w.flow.fs = v.flow.fs) (hs : ∀ q, w.suspended = some (.receivedFfOutput q) →
      v.suspended = some (.receivedFfOutput q)) : BlocksIn bs w := by
  refine ⟨?_, by rw [hf]; exact h.status, .of_idle hi, fun q hq => by
    rw [hf]; exact h.suspended q (hs q hq)⟩
  rw [hl, blocksIn_append, hb]
  exact h.limited

/-- A transition that changes neither the flow nor the blocks -/
theorem same (h : BlocksIn bs v) {l : List Obs} (hl : w.log = v.log ++ l)
    (hb : ∀ b, l.foldl (blocksInStep bs) b = b) (hst : w.flow.state = v.flow.state)
    (hf : w.flow.fs = v.flow.fs) (hbs : w.flow.bs = v.flow.bs) (hsn : w.flow.cfSn = v.flow.cfSn)
    (ht : w.tx ≤ v.tx) (hc : w.confirms ≤ v.confirms)
    (hs : ∀ q, w.suspended = some (.receivedFfOutput q) →
      v.suspended = some (.receivedFfOutput q)) : BlocksIn bs w := by
  have hlog : blocksIn bs w.log = blocksIn bs v.log := by rw [hl, blocksIn_append, hb]
  refine ⟨by rw [hlog]; exact h.limited, by rw [hf]; exact h.status, ?_,
    fun q hq => by rw [hf]; exact h.suspended q (hs q hq)⟩
  have hph := h.phase
  unfold InPhase at hph ⊢
  rw [hlog, hst, hf, hbs, hsn]
  split
  · next hs' =>
    rw [hs'] at hph
    intro hr
    obtain ⟨h₁, h₂, h₃, h₄⟩ := hph hr
    exact ⟨h₁, h₂, fun h => h₃ (by omega), fun h => h₄ (by omega)⟩
  · next hs' =>
    rw [hs'] at hph
    exact hph
  · trivial

theorem emitIf (h : BlocksIn bs v) (c : Bool) {o : Obs} (ho : ∀ b, blocksInStep bs b o = b) :
    BlocksIn bs (v.emitIf c o) := by
  unfold View.emitIf
  split
  · exact h.same (l := [o]) rfl ho rfl rfl rfl rfl le_rfl le_rfl fun _ h => h
  · exact h

/-- **Flow control is due for a new message**, or a message is refused. -/
theorem ffOutput (h : BlocksIn bs v) (hbs : u8 cfg.receiveBs = bs) (hc : v.confirms = 0)
    (hm : v.flow.fs = fsReady → v.flow.cfSn = 1 ∧ blocksIn bs v.log = {}) {slot : Bool}
    (hs : ∀ q, v.suspended ≠ some (.receivedFfOutput q)) : BlocksIn bs (v.ffOutput cfg slot) := by
  refine ⟨h.limited, h.status, fun hr => ?_, fun q hq => absurd hq (hs q)⟩
  obtain ⟨hsn, hb⟩ := hm hr
  rw [show blocksIn bs (v.ffOutput cfg slot).log = {} from hb]
  exact ⟨hbs, hsn, fun _ => Or.inl ⟨Blocks.atGate_start, rfl⟩, fun hc' => absurd hc hc'.ne'⟩

/-- A new message -/
theorem ffStore (hbs : u8 cfg.receiveBs = bs) (hc : v.confirms = 0) {frame : CanFrame}
    {b : Nat} {buf : LwcanBuffer} {slot : Bool}
    (hs : ∀ q, v.suspended ≠ some (.receivedFfOutput q)) (hi : v.flow.state = .idle) :
    BlocksIn bs (v.ffStore cfg p frame b buf slot) := by
  have hlog : ∀ o, blocksIn bs ((v.log ++ [.opened p b frame.wire]) ++ [.store p 0 o buf.length]) =
      {} :=
    fun o => by
      rw [blocksIn_append, blocksIn_append]
      rfl
  have h₀ : ∀ w : View, (∃ o, w.log = (v.log ++ [.opened p b frame.wire]) ++
      [.store p 0 o buf.length]) →
      w.flow.cfSn = 1 → w.flow.fs = fsReady → w.flow.state = .idle → w.confirms = v.confirms →
      w.suspended = v.suspended → BlocksIn bs (w.ffOutput cfg slot) := by
    rintro w ⟨o, hl⟩ hsn hfs hst hco hsus
    have hw : blocksIn bs w.log = {} := by rw [hl, hlog]
    refine ffOutput ⟨?_, Or.inl hfs, .of_idle hst, fun q hq => absurd (hsus ▸ hq) (hs q)⟩ hbs
      (hco.trans hc) (fun _ => ⟨hsn, hw⟩) fun q => hsus ▸ hs q
    rw [hw]
    exact Blocks.atGate_start.limited
  exact h₀ _ ⟨_, rfl⟩ rfl rfl hi rfl rfl

/-- Handing a message over is no part of a block. -/
theorem deliver (h : BlocksIn bs v) (hi : v.flow.state = .idle) (pcb : IsotpPcb) :
    BlocksIn bs (v.deliver pcb p) := by
  unfold View.deliver
  split
  · exact h
  · split
    · exact h.finish (l := [_]) rfl (fun _ => rfl) hi rfl fun _ h => h
    · exact h.finish (l := [_]) (w := (View.emit v _).removeHead) rfl (fun _ => rfl) hi rfl
        fun _ h => h

/-- A single frame has no blocks. -/
theorem single (h : BlocksIn bs v) (hi : v.flow.state = .idle)
    (hs : ∀ q, v.suspended ≠ some (.receivedFfOutput q)) (pcb : IsotpPcb) {frame : CanFrame}
    {b : Nat} {buf : LwcanBuffer} :
    BlocksIn bs ((((v.push b buf buf.length).emit (.opened p b frame.wire)).storeSf cfg p
      frame.data).deliver pcb p) := by
  have h₀ : BlocksIn bs (((v.push b buf buf.length).emit (.opened p b frame.wire)).storeSf cfg p
      frame.data) := by
    refine ⟨?_, h.status, .of_idle hi, fun q hq => absurd hq (hs q)⟩
    show (blocksIn bs ((v.log ++ [_]) ++ [_])).Limited bs
    rw [blocksIn_append, blocksIn_append]
    exact Blocks.atGate_start.limited
  exact h₀.deliver hi pcb

/-! ### Transitions -/

section Transitions

variable (hbs : 1 ≤ bs) (hbs' : bs ≤ 255)

include hbs hbs'

/-- **A consecutive frame** of the message: its block goes on. -/
theorem consecutive (h : BlocksIn bs v) (hs : v.flow.state = .waitCf) :
    v.flow.bs = bs ∧ v.flow.cfSn = ((blocksIn bs v.log).frame bs).sent % 16 ∧
      ((blocksIn bs v.log).frame bs).AfterFrame bs := by
  have hph := h.phase
  unfold InPhase at hph
  rw [hs] at hph
  obtain ⟨hb, hsn, hphase⟩ := hph
  refine ⟨hb, hsn, ?_⟩
  rcases hphase with hg | ⟨hf, hopen⟩
  · exact hg.frame hbs
  · exact hf.frame hbs hbs' hopen

/-- **The flow control of a block** ends it. -/
theorem output (h : BlocksIn bs v) (hs : v.flow.state = .txFc) (ht : 0 < v.tx)
    (hr : v.flow.fs = fsReady) : ((blocksIn bs v.log).gate bs).AtGate bs := by
  have hph := h.phase
  unfold InPhase at hph
  rw [hs] at hph
  rcases (hph hr).2.2.1 ht with ⟨hg, hz⟩ | ⟨hf, hclosed⟩
  · exact hg.gate hz
  · exact hf.gate hbs hbs' hclosed

/-- **A consecutive frame with more to come**: within its block, or at the end of it, where flow
control is due. -/
theorem continues (h : BlocksIn bs v) (hs : v.flow.state = .waitCf) (hc : v.confirms = 0)
    (hnone : ∀ q, v.suspended ≠ some (.receivedFfOutput q)) {w : View} {frame : CanFrame}
    {off len cap : Nat}
    (hl : w.log = (v.log ++ [.consecutive p frame.wire]) ++ [.store p off len cap])
    (hbw : w.flow.bs = v.flow.bs) (hsn : w.flow.cfSn = nextSn v.flow.cfSn)
    (hcw : w.confirms = v.confirms) (hsw : w.suspended = v.suspended)
    (hw : w.flow.state = .waitCf ∧ w.flow.fs = v.flow.fs ∧ blockOpen v.flow.bs v.flow.cfSn = true ∨
      w.flow.state = .txFc ∧ w.flow.fs = fsReady ∧ blockOpen v.flow.bs v.flow.cfSn = false) :
    BlocksIn bs w := by
  obtain ⟨hfb, hfsn, hf⟩ := consecutive hbs hbs' h hs
  have hlog : blocksIn bs w.log = (blocksIn bs v.log).frame bs := by
    rw [hl]
    exact blocksIn_frame bs p v.log frame.wire off len cap
  have hnext : w.flow.cfSn = (((blocksIn bs v.log).frame bs).sent + 1) % 16 := by
    rw [hsn, hfsn, nextSn_mod]
  refine ⟨hlog ▸ hf.limited, ?_, ?_, fun q hq => absurd (hsw ▸ hq) (hnone q)⟩
  · rcases hw with ⟨-, hfs, -⟩ | ⟨-, hfs, -⟩
    · exact hfs ▸ h.status
    · exact Or.inl hfs
  · unfold InPhase
    -- the block goes on, or flow control for the next one is due
    rcases hw with ⟨hst, -, hopen⟩ | ⟨hst, -, hclosed⟩
    · rw [hst, hlog]
      rw [hfb, hfsn] at hopen
      exact ⟨hbw.trans hfb, hnext, Or.inr ⟨hf, hopen⟩⟩
    · rw [hst, hlog]
      rw [hfb, hfsn] at hclosed
      exact fun _ => ⟨hbw.trans hfb, hnext, fun _ => Or.inr ⟨hf, hclosed⟩,
        fun hc' => absurd (hcw.trans hc) (Nat.pos_iff_ne_zero.mp hc')⟩

/-- **Flow control handed over** that the driver accepts -/
theorem accepted (h : BlocksIn bs v) (hb : AtMostOne v) (hs : v.flow.state = .txFc) (ht : 0 < v.tx)
    (f : CanFrame) (canif : Nat) :
    BlocksIn bs (View.accepted { v with tx := v.tx - 1 } (p, .input) canif
      (isotpFillFc cfg v.flow f) cfg.nBr) := by
  obtain ⟨htx, -, -, -, -⟩ := hb.of_tx_pos ht
  have hlog := blocksIn_output cfg f bs v.log (p, .input) canif f.canId h.status cfg.nBr .ok
  have hnt : ¬ 0 < v.tx - 1 := by omega
  -- READY begins the next block, and OVERFLOW ends the message
  by_cases hr : v.flow.fs = fsReady
  · have hg := output hbs hbs' h hs ht hr
    have hph := h.phase
    unfold InPhase at hph
    rw [hs] at hph
    obtain ⟨hfb, hfsn, -, -⟩ := hph hr
    rw [if_pos hr] at hlog
    refine ⟨hlog.symm ▸ hg.limited, h.status, ?_, h.suspended⟩
    unfold InPhase
    show match v.flow.state with | .txFc => _ | .waitCf => _ | _ => _
    rw [hs]
    exact fun _ => ⟨hfb, hlog.symm ▸ hfsn, fun ht' => absurd ht' hnt, fun _ => hlog.symm ▸ hg⟩
  · rw [if_neg hr] at hlog
    refine ⟨hlog.symm ▸ h.limited, h.status, ?_, h.suspended⟩
    unfold InPhase
    show match v.flow.state with | .txFc => _ | .waitCf => _ | _ => _
    rw [hs]
    exact fun hr' => absurd hr' hr

/-- **Flow control handed over** that the driver rejects ends its block all the same. -/
theorem rejected (h : BlocksIn bs v) (hs : v.flow.state = .txFc) (ht : 0 < v.tx) (f : CanFrame)
    (canif : Nat) (pcb : IsotpPcb) (ret : Lwcanerr) :
    BlocksIn bs (View.rejected { v with tx := v.tx - 1 } (p, .input) pcb canif
      (isotpFillFc cfg v.flow f) cfg.nBr ret) := by
  have hlog := blocksIn_output cfg f bs v.log (p, .input) canif f.canId h.status cfg.nBr ret
  refine ⟨?_, ?_, .of_idle (View.fail_state ..), ?_⟩
  · have hends : ∀ b : Blocks, (Obs.dropped (p, .input) v.flow.buffer.head? ::
        if pcb.error then [.error (p, .input) pcb.callbackArg ret] else []).foldl
          (blocksInStep bs) b = b := fun b => by split <;> rfl
    rw [View.rejected, View.fail_log, blocksIn_append]
    refine (hends _).symm ▸ hlog.symm ▸ ?_
    split
    · next hr => exact (output hbs hbs' h hs ht hr).limited
    · exact h.limited
  · rw [View.rejected, View.fail, View.emitIf_flow]
    exact h.status
  · rw [View.rejected, View.fail, View.emitIf_suspended, View.emitIf_flow]
    exact h.suspended

omit hbs hbs' in
/-- **The confirmation of flow control**: the peer may go on. -/
theorem inputSwitch (h : BlocksIn bs v) (hc : 0 < v.confirms) {pcb : IsotpPcb} {slot : Bool}
    (hw : InputSwitch pcb p slot { v with confirms := v.confirms - 1 } v') : BlocksIn bs v' := by
  have h₀ : BlocksIn bs { v with confirms := v.confirms - 1 } :=
    h.same (List.append_nil _).symm (fun _ => rfl) rfl rfl rfl rfl le_rfl (Nat.sub_le ..)
      fun _ h => h
  cases hw with
  | skip => exact h₀
  | abort hs hfs =>
    refine BlocksIn.emitIf ?_ _ fun _ => rfl
    exact h₀.finish (List.append_nil _).symm (fun _ => rfl) rfl rfl fun _ h => h
  | ready hs hfs =>
    have hph := h.phase
    unfold InPhase at hph
    change v.flow.state = .txFc at hs
    rw [hs] at hph
    obtain ⟨hfb, hfsn, -, hg⟩ := hph hfs
    exact ⟨h.limited, h.status, ⟨hfb, hfsn, Or.inl (hg hc)⟩, h.suspended⟩

/-- **Every transition of an input flow** -/
theorem step (he : s.Enabled e) (hn : e ≠ .call .isotpNew) (hca : ConfirmsAccepted s e)
    (hcfg : u8 cfg.receiveBs = bs) (hb : AtMostOne (s.view (p, .input)))
    (h : BlocksIn bs (s.view (p, .input)))
    (hst : InputStep cfg s p (s.view (p, .input)) e v') : BlocksIn bs v' := by
  -- no frame comes in while a function waits for its callback
  have hnone : ∀ {canif frame g}, e = .input canif frame g →
      ∀ q, (s.view (p, .input)).suspended ≠ some (.receivedFfOutput q) := by
    rintro canif frame g rfl q hq
    rw [he.input_not_suspended] at hq
    cases hq
  cases hst with
  | sfMemory => exact h.emitIf _ fun _ => rfl
  | sf hp ht hs =>
    exact h.single hs (hnone rfl) _
  | ffMemory hp ht hs =>
    obtain ⟨-, -, hc⟩ := hb.of_idle hs
    -- no memory: the flow control that is due says OVERFLOW
    have h₀ : BlocksIn bs ((s.view (p, .input)).setFlow
        { (s.view (p, .input)).flow with fs := fsOverflow }) :=
      ⟨h.limited, Or.inr rfl, .of_idle hs, fun q hq => absurd hq (hnone rfl q)⟩
    exact h₀.ffOutput hcfg hc (fun hr => absurd (show fsOverflow = fsReady from hr) (by decide))
      (hnone rfl)
  | ffMemoryCallback hp ht hs =>
    refine ⟨?_, Or.inr rfl, .of_idle hs, fun q _ => (by decide : fsOverflow ≠ fsReady)⟩
    show (blocksIn bs ((s.view (p, .input)).log ++ [_])).Limited bs
    rw [blocksIn_append]
    exact h.limited
  | ff hp ht hs =>
    -- the message is opened, and the first block with it
    obtain ⟨-, -, hc⟩ := hb.of_idle hs
    exact ffStore hcfg hc (hnone rfl) hs
  | ffCallback hp ht hs =>
    exact h.finish (l := [_]) rfl (fun _ => rfl) hs rfl (by rintro _ ⟨⟩)
  | resumeFf hsn =>
    have hs := hb.idle_of_suspended hsn rfl
    obtain ⟨-, -, hc⟩ := hb.of_idle hs
    exact ffStore (v := { s.view (p, .input) with suspended := none }) hcfg hc
      (by rintro _ ⟨⟩) hs
  | resumeFfMemory hsn =>
    have hs := hb.idle_of_suspended hsn rfl
    obtain ⟨-, -, hc⟩ := hb.of_idle hs
    -- the callback that returns was told of the missing memory
    have hfs := h.suspended p (view_suspended hsn rfl)
    have h₀ : BlocksIn bs { s.view (p, .input) with suspended := none } :=
      h.same (List.append_nil _).symm (fun _ => rfl) rfl rfl rfl rfl le_rfl le_rfl
        (by rintro _ ⟨⟩)
    exact h₀.ffOutput hcfg hc (fun hr => absurd hr hfs) (by rintro _ ⟨⟩)
  | cfWrong hp ht hs =>
    obtain ⟨-, -, hf⟩ := consecutive hbs hbs' h hs
    refine ⟨?_, Or.inr rfl, fun hr => absurd (show fsOverflow = fsReady from hr) (by decide),
      fun q hq => absurd hq (hnone rfl q)⟩
    show (blocksIn bs (((s.view (p, .input)).log ++ [_]) ++ [_])).Limited bs
    rw [blocksIn_append, blocksIn_append]
    exact hf.limited
  | @cfLast canif frame g w hp ht hs hsn hv hr =>
    obtain ⟨-, -, hf⟩ := consecutive hbs hbs' h hs
    subst hv
    refine deliver ?_ rfl _
    refine ⟨?_, h.status, trivial, fun q hq => absurd hq (hnone rfl q)⟩
    exact (blocksIn_frame bs p _ frame.wire _ _ _).symm ▸ hf.limited
  | cf hp ht hs hsn hv hr hopen =>
    -- the counter is not at the end of the block: the next frame is waited for
    obtain ⟨-, -, hc, -⟩ := hb.of_waits (by rw [hs]; rfl)
    subst hv
    exact continues hbs hbs' h hs hc (hnone rfl) rfl rfl rfl rfl rfl (Or.inl ⟨rfl, rfl, hopen⟩)
  | block hp ht hs hsn hv hr hclosed =>
    -- the block is over: the next flow control is due
    obtain ⟨-, -, hc, -⟩ := hb.of_waits (by rw [hs]; rfl)
    rw [Bool.not_eq_true] at hclosed
    subst hv
    exact continues hbs hbs' h hs hc (hnone rfl) rfl rfl rfl rfl rfl (Or.inr ⟨rfl, rfl, hclosed⟩)
  | skip =>
    exact h.same (List.append_nil _).symm (fun _ => rfl) rfl rfl rfl rfl (Nat.sub_le ..) le_rfl
      fun _ h => h
  | output hf hcan hs ht => exact accepted hbs hbs' h hb hs ht _ _
  | reject hf hcan hs ht => exact rejected hbs hbs' h hs ht _ _ _ _
  | expire =>
    refine h.finish (View.fail_log ..) (fun b => ?_) (View.fail_state ..) ?_ ?_
    · split <;> rfl
    · rw [View.fail, View.emitIf_flow]
      rfl
    · rw [View.fail, View.emitIf_suspended]
      exact fun _ h => h
  | confirm hsn hsw => exact h.inputSwitch (List.count_pos_iff.mpr hca) hsw
  | refuse hsn herr =>
    refine h.finish (View.refused_log ..) (fun b => ?_) (by rw [View.refused_flow])
      (by rw [View.refused_flow]) fun q hq => ?_
    · split <;> rfl
    · rcases View.refused_suspended_cases hq with hq | hq
      · cases hq
      · exact hq
  | resume hsn hsw =>
    have hsi := hb.idle_of_suspended hsn rfl
    rw [hsw.eq_of_idle hsi]
    exact h.same (List.append_nil _).symm (fun _ => rfl) rfl rfl rfl rfl le_rfl le_rfl
      (by rintro _ ⟨⟩)
  | release =>
    exact h.same (l := [_]) rfl (fun _ => rfl) rfl rfl rfl rfl le_rfl le_rfl fun _ h => h
  | new => exact absurd rfl hn

end Transitions

end BlocksIn

/-! ### Runs -/

namespace Node

variable {cfg : Config} {s : Node} {es : List Event} {p : Nat}

theorem blocksOut_run {bs : Nat} (hbs : 1 ≤ bs) (hbs' : bs ≤ 255) (hr : Run cfg es s)
    (hk : RunAlong cfg KeepsPcbs es) (hc : RunAlong cfg ConfirmsAccepted es)
    (ho : RunAlong cfg SendsOutside es) (hrc : RunAlong cfg (ReadyCarries bs p) es) :
    BlocksOut cfg bs (s.view (p, .output)) :=
  (output_inv_confirmed (I := fun v => Sends cfg v ∧ BlocksOut cfg bs v) p
    ⟨Sends.initial, BlocksOut.initial⟩
    (fun _ hn hca _ hrc hb hi hst => ⟨Sends.step hn hca hb hi.1 hst,
      BlocksOut.step hbs hbs' hn hca hrc hb hi.1 hi.2 hst⟩) hr hk hc ho hrc).2.2

theorem blocksIn_run (hbs : 1 ≤ cfg.receiveBs) (hbs' : cfg.receiveBs ≤ 255) (hr : Run cfg es s)
    (hk : RunAlong cfg KeepsPcbs es) (hc : RunAlong cfg ConfirmsAccepted es) :
    BlocksIn cfg.receiveBs (s.view (p, .input)) :=
  (input_inv_confirmed p BlocksIn.initial
    (fun _ he hn hca _ hb hi hst => BlocksIn.step hbs hbs' he hn hca
      (u8_natCast (Nat.lt_succ_of_le hbs')) hb hi hst) hr hk hc hc).2

/-- **The block size is honoured up to the limit**, and no further. A sender honours it in every
segmented message that needs no more than `limit` consecutive frames, and breaks it in every longer
message that it hands over to the last frame. A receiver honours it as long as its message went on
after fewer than `limit` consecutive frames, and not from there on. -/
theorem blocks_honoured (hr : Run cfg es s) (hk : RunAlong cfg KeepsPcbs es)
    (hc : RunAlong cfg ConfirmsAccepted es) (ho : RunAlong cfg SendsOutside es) :
    (∀ bs, 1 ≤ bs → bs ≤ 255 → RunAlong cfg (ReadyCarries bs p) es →
      ∀ m ∈ sending (s.logOf (p, .output)), m.Segmented cfg →
        (cfsOf cfg m.data.length ≤ limit bs → (blocksOut bs (s.logOf (p, .output))).honoured) ∧
        ((blocksOut bs (s.logOf (p, .output))).sent = cfsOf cfg m.data.length →
          ((blocksOut bs (s.logOf (p, .output))).honoured ↔
            cfsOf cfg m.data.length ≤ limit bs))) ∧
    (1 ≤ cfg.receiveBs → cfg.receiveBs ≤ 255 →
      ((blocksIn cfg.receiveBs (s.logOf (p, .input))).honoured ↔
        (blocksIn cfg.receiveBs (s.logOf (p, .input))).passed < limit cfg.receiveBs)) := by
  refine ⟨fun bs hbs hbs' hrc m hm hseg => ?_, fun hbs hbs' =>
    (blocksIn_run hbs hbs' hr hk hc).limited⟩
  have hlast : lastSent (s.view (p, .output)).log = some m.data :=
    (congrArg (Option.map Sending.data) hm : _)
  have hof := blocksOut_run hbs hbs' hr hk hc ho hrc m.data hlast hseg
  have hover := hof.passed
  refine ⟨fun hle => hof.limited.mpr (by omega), fun hall => ?_⟩
  have hlim := hof.limited
  -- with all frames sent, the last one is the one after the last that was passed
  have := hof.all hall
  exact hlim.trans ⟨fun h => by omega, fun h => by omega⟩

/-- The peer's flow control: READY, blocks of two, no separation time -/
def readyTwo : CanFrame := ⟨0x7E8, 8, 0, fun i => [0x30, 2, 0].getD i 0xAA⟩

/-- A message of `n` bytes is accepted and its first frame is sent. -/
def firstSent (n : Nat) : List Event := connected ++
  [.call (.isotpSend (some 0) (some (List.replicate n 0)) ⟨some 1, some 2, fun _ => 0⟩),
    .timer ⟨0, 0, 0, fun _ => 0⟩ .ok, .sent (0, .output) .ok]

/-- Another consecutive frame is sent. -/
def nextSent : List Event := [.timer ⟨0, 0, 0, fun _ => 0⟩ .ok, .sent (0, .output) .ok]

/-- The peer allows two more frames. -/
def twoAllowed : List Event := [.input 0 readyTwo ⟨none, none, fun _ => 0⟩]

/-- The peer's flow control: READY, blocks of one, no separation time -/
def readyOne : CanFrame := ⟨0x7E8, 8, 0, fun i => [0x30, 1, 0].getD i 0xAA⟩

/-- A first frame that announces 27 bytes -/
def ffTwentySeven : CanFrame := ⟨0x7E8, 8, 0, fun i => [0x10, 27].getD i 0⟩

/-- A consecutive frame of zeros -/
def cfNumbered (sn : UInt8) : CanFrame := ⟨0x7E8, 8, 0, fun i => [0x20 ||| sn].getD i 0⟩

/-- The flow control that is due is handed over and confirmed. -/
def fcSent : List Event := [.timer ⟨0, 0, 0, fun _ => 0⟩ .ok, .sent (0, .input) .ok]

/-- A message of 28 bytes is sent in four blocks of one frame, and one of 27 bytes is received in
three. -/
def blocksOfOne : List Event :=
  firstSent 28 ++
    (List.replicate 4 (.input 0 readyOne ⟨none, none, fun _ => 0⟩ :: nextSent)).flatten ++
    [.input 0 ffTwentySeven ⟨some 3, some 4, fun _ => 0⟩] ++ fcSent ++
    [.input 0 (cfNumbered 1) ⟨none, none, fun _ => 0⟩] ++ fcSent ++
    [.input 0 (cfNumbered 2) ⟨none, none, fun _ => 0⟩] ++ fcSent ++
    [.input 0 (cfNumbered 3) ⟨none, none, fun _ => 0⟩]

/-- Both sides keep to blocks of one: the sender through four of them, the receiver through
three. -/
theorem blocks_honoured_ones : ∃ s, Run { receiveBs := 1 } blocksOfOne s ∧
    (blocksOut 1 (s.logOf (0, .output))).sent = 4 ∧
    (blocksOut 1 (s.logOf (0, .output))).honoured ∧
    (blocksIn 1 (s.logOf (0, .input))).sent = 3 ∧
    (blocksIn 1 (s.logOf (0, .input))).honoured := by
  obtain ⟨s, hr, hm, hout, hin, hpassed⟩ := exists_run { receiveBs := 1 } blocksOfOne (fun s =>
    (sending (s.logOf (0, .output))).map Sending.data = some (List.replicate 28 0) ∧
      (blocksOut 1 (s.logOf (0, .output))).sent = 4 ∧ (blocksIn 1 (s.logOf (0, .input))).sent = 3 ∧
      (blocksIn 1 (s.logOf (0, .input))).passed < limit 1) (by decide)
  obtain ⟨m, hm, hd⟩ := Option.map_eq_some_iff.mp hm
  have hseg : m.Segmented { receiveBs := 1 } := by
    rw [Sending.Segmented, hd]
    decide
  -- 22 bytes follow the first six: seven, seven, seven and one
  have hn : cfsOf { receiveBs := 1 } m.data.length = 4 := by
    rw [hd, cfsOf, cfNum_eq (by decide), cfNum_eq (by decide), cfNum_eq (by decide),
      cfNum_eq (by decide)]
    exact congrArg (· + 1 + 1 + 1 + 1) (cfNum_zero _)
  obtain ⟨hsender, hreceiver⟩ := blocks_honoured (p := 0) hr (by decide) (by decide) (by decide)
  obtain ⟨hkept, -⟩ := hsender 1 (by decide) (by decide) (by decide) m hm hseg
  refine ⟨s, hr, hout, hkept ?_, hin, (hreceiver (by decide) (by decide)).mpr hpassed⟩
  rw [hn]
  decide

/-- **A block broken**: with block size two, the sender enters `ISOTP_WAIT_FC` after the second
frame and after the third. -/
theorem blocks_broken : ∃ s, Run {}
    (firstSent 28 ++ twoAllowed ++ nextSent ++ nextSent ++ twoAllowed ++
      nextSent) s ∧
    RunAlong {} (ReadyCarries 2 0)
      (firstSent 28 ++ twoAllowed ++ nextSent ++ nextSent ++ twoAllowed ++
      nextSent) ∧
    blocksOut 2 (s.logOf (0, .output)) = ⟨3, 0, 3, false⟩ := by
  obtain ⟨s, hr, hb⟩ := exists_run {} (firstSent 28 ++ twoAllowed ++ nextSent ++ nextSent ++
    twoAllowed ++ nextSent) (fun s => blocksOut 2 (s.logOf (0, .output)) = ⟨3, 0, 3, false⟩)
    (by decide)
  exact ⟨s, hr, by decide, hb⟩

end Node
end Lwcan
