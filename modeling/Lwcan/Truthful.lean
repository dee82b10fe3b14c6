import Lwcan.Progress
import Lwcan.Reassembly
import Lwcan.Segmentation

/-!
# What the sent callback says is true

Callbacks are free to send the next message. Where the callback is the last thing a function does,
such a call is like one made after it. `isotp_sent` is the exception: after the error callback for a
failed confirmation it goes on to its `switch`, and finds the state of whatever was sent inside the
callback. A single frame is then reported as sent although no driver has seen it.

* `history` — what happens to a flow in a run: the entries of its log, and the confirmations that
  come in.
* `Truthful` — what holds where a callback is made: the sent callback tells that frames with all the
  bytes were accepted and confirmed, and no callback was made for the message before.
* `sent_truthful` — the histories of runs in which nothing is sent inside that one callback, and the
  frames received fit.
-/

namespace Lwcan

open Monitor

/-! ### Histories -/

/-- An entry of a flow's history: one of its log, or a confirmation -/
inductive Entry
  | obs (o : Obs)
  | confirmed (err : Lwcanerr)
  deriving DecidableEq, Repr

/-- The message accepted last and what was done for it, and the confirmations that came for its
frames -/
structure Told where
  cur : Option Sending
  answers : List Lwcanerr

namespace Told

/-- Before the first message -/
def start : Told := ⟨none, []⟩

def step (t : Told) : Entry → Told
  | .obs (.send p d) => ⟨Sending.step t.cur (.send p d), []⟩
  | .obs o => ⟨Sending.step t.cur o, t.answers⟩
  | .confirmed err => ⟨t.cur, t.answers ++ [err]⟩

/-- A message accepted begins a new account, all else goes on with the old one. -/
theorem foldl_obs {l : List Obs} (h : ∀ p d, Obs.send p d ∉ l) (t : Told) :
    (l.map Entry.obs).foldl step t = ⟨l.foldl Sending.step t.cur, t.answers⟩ := by
  induction l generalizing t with
  | nil => rfl
  | cons o l ih =>
    have hstep : step t (.obs o) = ⟨Sending.step t.cur o, t.answers⟩ := by
      cases o <;> first | rfl | exact absurd List.mem_cons_self (h _ _)
    rw [List.map_cons, List.foldl_cons, ih fun p d hm => h p d (List.mem_cons_of_mem _ hm), hstep]
    rfl

theorem foldl_obs_cur (l : List Obs) (t : Told) :
    ((l.map Entry.obs).foldl step t).cur = l.foldl Sending.step t.cur := by
  induction l generalizing t with
  | nil => rfl
  | cons o l ih =>
    rw [List.map_cons, List.foldl_cons, ih, List.foldl_cons]
    cases o <;> rfl

/-- Confirmations are counted. -/
theorem foldl_confirmed (l : List Lwcanerr) (t : Told) :
    (l.map Entry.confirmed).foldl step t = ⟨t.cur, t.answers ++ l⟩ := by
  induction l generalizing t with
  | nil =>
    rw [List.append_nil]
    rfl
  | cons err l ih =>
    rw [List.map_cons, List.foldl_cons, ih]
    show (⟨t.cur, t.answers ++ [err] ++ l⟩ : Told) = _
    rw [List.append_assoc]
    rfl

end Told

/-- **The frames carry all the bytes** of the message: in a single frame, or in a first frame and
consecutive frames. -/
def Sending.Carried (cfg : Config) (m : Sending) : Prop :=
  (∃ pad, m.frames = [sfHeader cfg m.data.length ++ m.data ++ pad]) ∨
    ∃ xs, Stream cfg m.data.length m.frames xs ∧ xs.flatten = m.data

/-- Without a frame nothing is carried. -/
theorem Sending.Carried.frames_ne {cfg : Config} {m : Sending} (h : m.Carried cfg)
    (hd : m.data ≠ []) : m.frames ≠ [] := by
  intro hnil
  obtain ⟨pad, hf⟩ | ⟨xs, hxs, hflat⟩ := h
  · rw [hnil] at hf
    cases hf
  · rw [hxs.eq_nil hnil] at hflat
    exact hd hflat.symm

/-- **A callback is truthful.** The sent callback is made for a message with frames that carry all
its bytes, each accepted and each confirmed with `ERROR_OK`; and it is the first callback for its
message, as the error callback is. -/
def Truthful (cfg : Config) (t : Told) : Entry → Prop
  | .obs (.sent _ _ n) => ∃ m, t.cur = some m ∧ n = m.data.length ∧ m.Carried cfg ∧ m.taken ∧
    t.answers = List.replicate m.frames.length .ok ∧ m.callbacks = []
  | .obs (.error _ _ _) => ∃ m, t.cur = some m ∧ m.callbacks = []
  | _ => True

namespace Node

/-- The confirmation that an event is for a flow -/
def answer (k : FlowId) : Event → List Lwcanerr
  | .sent k' err => if k' = k then [err] else []
  | _ => []

/-- What an event adds to the history of a flow -/
def seen (k : FlowId) (s : Node) (e : Event) (s' : Node) : List Entry :=
  (answer k e).map .confirmed ++ ((s'.logOf k).drop (s.logOf k).length).map .obs

/-- **The history of a flow**, from a state on -/
def history (cfg : Config) (k : FlowId) : Node → List Event → List Entry
  | _, [] => []
  | s, e :: es => (step cfg s e).elim [] fun s' => seen k s e s' ++ history cfg k s' es

/-! ### Conditions -/

/-- A message fits the frames it is sent in: in a CAN FD build, a single frame has room for it
behind its header. -/
def Fits (cfg : Config) (d : List UInt8) : Prop :=
  cfg.canfd = true → d.length ≤ sfMax cfg → ∀ D ∈ paddingSteps, D ≠ d.length ∧ D ≠ d.length + 1

/-- Only messages that fit are sent. -/
def SendsFitting (cfg : Config) (_ : Node) : Event → Prop
  | .call (.isotpSend _ (some d) _) => Fits cfg d
  | _ => True

/-- `isotp_new` hands out no pcb whose output flow still has something pending, from before it was
removed. -/
def NewIsClean (cfg : Config) (s : Node) : Event → Prop
  | .call .isotpNew => ∀ p ∈ (s.isotpNew cfg).1, (s.view (p, .output)).tx = 0 ∧
    (s.view (p, .output)).err = 0 ∧ (s.view (p, .output)).confirms = 0
  | _ => True

instance (cfg : Config) (d : List UInt8) : Decidable (Fits cfg d) :=
  inferInstanceAs (Decidable (cfg.canfd = true → d.length ≤ sfMax cfg →
    ∀ D ∈ paddingSteps, D ≠ d.length ∧ D ≠ d.length + 1))

instance (cfg : Config) (s : Node) : (e : Event) → Decidable (SendsFitting cfg s e)
  | .call (.isotpSend _ (some d) _) => inferInstanceAs (Decidable (Fits cfg d))
  | .call (.isotpSend _ none _) | .call .isotpNew | .call (.isotpBind _ _) | .call (.isotpRemove _)
  | .call (.isotpSetCallbacks _ _ _ _ _) | .call (.isotpSetCallbackArg _ _)
  | .call (.isotpReceived _ _) | .call (.canifAdd _ _ _) | .call (.canifRemove _)
  | .call (.lwcanTimeout _ _ _) | .call (.lwcanUntimeout _ _) | .input _ _ _ | .timer _ _
  | .sent _ _ | .resume | .tick _ => isTrue True.intro

instance (cfg : Config) (s : Node) : (e : Event) → Decidable (NewIsClean cfg s e)
  | .call .isotpNew => inferInstanceAs (Decidable (∀ p ∈ (s.isotpNew cfg).1,
    (s.view (p, .output)).tx = 0 ∧ (s.view (p, .output)).err = 0 ∧
      (s.view (p, .output)).confirms = 0))
  | .call (.isotpSend _ _ _) | .call (.isotpBind _ _) | .call (.isotpRemove _)
  | .call (.isotpSetCallbacks _ _ _ _ _) | .call (.isotpSetCallbackArg _ _)
  | .call (.isotpReceived _ _) | .call (.canifAdd _ _ _) | .call (.canifRemove _)
  | .call (.lwcanTimeout _ _ _) | .call (.lwcanUntimeout _ _) | .input _ _ _ | .timer _ _
  | .sent _ _ | .resume | .tick _ => isTrue True.intro

end Node

/-! ### One flow -/

/-- **A single frame** that has room for its message carries it. -/
theorem isotpFillSf_carries {cfg : Config} {buf : LwcanBuffer} {flow : IsotpFlow} (frame : CanFrame)
    (hrem : flow.remainingData = buf.bytes.length) (hne : buf.bytes ≠ [])
    (hshort : buf.bytes.length ≤ sfMax cfg) (hfits : Node.Fits cfg buf.bytes) :
    ∃ pad, (isotpFillSf cfg (some buf) flow frame).2.wire =
      sfHeader cfg buf.bytes.length ++ buf.bytes ++ pad := by
  have hpos : flow.remainingData ≠ 0 := by
    rw [hrem]
    exact (List.length_pos_of_ne_nil hne).ne'
  have hlen : buf.bytes.length = buf.length := by
    rw [LwcanBuffer.bytes, Mem.length_slice]
  have hbytes : Mem.slice buf.data 0 flow.remainingData = buf.bytes := by
    rw [hrem, hlen]
    rfl
  -- a classic frame is as long as its data; a CAN FD frame has to be looked up in the table
  cases hc : cfg.canfd with
  | false =>
    have hmax : sfMax cfg = 7 := by simp [sfMax, hc, canMaxDlen, sfDataOffset]
    obtain ⟨-, hwire⟩ := isotpFillSf_classic buf flow frame hc (by omega)
    exact ⟨_, by rw [hwire, hbytes, hrem]⟩
  | true =>
    have hmax : sfMax cfg = 62 := by simp [sfMax, hc, canfdMaxDlen, fdSfDataOffset]
    obtain ⟨hl, hdata⟩ := isotpFillSf_fd buf flow frame hc
    generalize (isotpFillSf cfg (some buf) flow frame).2 = f at *
    have hroom : 2 + flow.remainingData ≤ f.len := by
      rw [hl, room_iff hpos (by omega), hrem]
      exact hfits hc hshort
    -- what is beyond the data is padding
    obtain ⟨k, hk⟩ := Nat.exists_eq_add_of_le hroom
    refine ⟨Mem.slice f.data (2 + flow.remainingData) k, ?_⟩
    rw [CanFrame.wire, hk, Mem.slice_add, hdata, hbytes, hrem, Nat.zero_add]

/-- What the sender has been told of its message. -/
structure Answered (cfg : Config) (v : View) (as : List Lwcanerr) : Prop where
  /-- The frames accepted are confirmed, but for those that the driver still owes. -/
  answers : v.flow.state ≠ .idle → ∀ m, sending v.log = some m →
    ∃ n, as = List.replicate n .ok ∧ n + v.confirms = m.frames.length
  /-- A single frame is due, or it was handed over. -/
  single : v.flow.state = .txSf → ∀ m, sending v.log = some m →
    (0 < v.tx → m.frames = [] ∧ v.flow.remainingData = m.data.length) ∧
      (0 < v.confirms → m.Carried cfg)
  /-- The message of a single frame fits it. -/
  fits : v.flow.state = .txSf → ∀ m, sending v.log = some m → Node.Fits cfg m.data ∧ m.data ≠ []

/-- **A transition told truthfully**: its entries of the log, the callbacks among them, and what the
sender has been told after it. -/
def Tells (cfg : Config) (v v' : View) (as : List Lwcanerr) : Prop :=
  ∃ l, v'.log = v.log ++ l ∧
    AtEach Told.step (Truthful cfg) ⟨sending v.log, as⟩ (l.map .obs) ∧
    Answered cfg v' ((l.map Entry.obs).foldl Told.step ⟨sending v.log, as⟩).answers

namespace Answered

open Node

variable {cfg : Config} {s : Node} {p : Nat} {e : Event} {v v' w : View} {m : Sending}
  {buf : LwcanBuffer} {as : List Lwcanerr}

theorem initial : Answered cfg View.initial [] :=
  ⟨fun h => absurd rfl h, by rintro ⟨⟩, by rintro ⟨⟩⟩

/-- In an idle flow there is nothing to be told. -/
theorem of_idle (h : v.flow.state = .idle) : Answered cfg v as := by
  refine ⟨fun hni => absurd h hni, fun hs => ?_, fun hs => ?_⟩
  · rw [h] at hs
    cases hs
  · rw [h] at hs
    cases hs

/-- A transition that hands over nothing, and is told of `j` confirmations -/
theorem keep (h : Answered cfg v as) {l : List Obs} {j : Nat} (hl : w.log = v.log ++ l)
    (hq : ∀ o ∈ l, o.Quiet) (hni : v.flow.state ≠ .idle) (hs : w.flow.state ≠ .txSf)
    (hc : w.confirms + j = v.confirms) : Answered cfg w (as ++ List.replicate j .ok) := by
  refine ⟨fun _ m hm => ?_, fun h => absurd h hs, fun h => absurd h hs⟩
  rw [hl] at hm
  -- quiet entries leave the frames as they are, so only the confirmations change
  obtain ⟨m₀, hm₀, -, hf⟩ := sending_quiet hq hm
  obtain ⟨n, rfl, hn⟩ := h.answers hni m₀ hm₀
  refine ⟨n + j, List.replicate_append_replicate, ?_⟩
  rw [← hf, ← hn]
  omega

/-- A transition without a callback -/
theorem tells (h : Answered cfg w as) {l : List Obs} (hl : w.log = v.log ++ l)
    (hq : ∀ o ∈ l, (∀ p d, o ≠ .send p d) ∧ ∀ t, Truthful cfg t (.obs o)) : Tells cfg v w as := by
  refine ⟨l, hl, AtEach.of_forall fun x hx t => ?_, ?_⟩
  · obtain ⟨o, ho, rfl⟩ := List.mem_map.mp hx
    exact (hq o ho).2 t
  · rw [Told.foldl_obs fun p d hm => (hq _ hm).1 p d rfl]
    exact h

/-- **The error paths** end the message with its first callback. -/
theorem giveUp (hcur : sending v.log = some m) {l : List Obs} {n : Sending} {k : FlowId}
    {b : Option Nat} {c : Bool} {arg : Ptr} {err : Lwcanerr}
    (hl : w.log = v.log ++ (l ++ .dropped k b :: if c then [.error k arg err] else []))
    (hs : w.flow.state = .idle)
    (hq : ∀ o ∈ l, (∀ p d, o ≠ .send p d) ∧ ∀ t, Truthful cfg t (.obs o))
    (hm : l.foldl Sending.step (some m) = some n) (hcb : n.callbacks = []) : Tells cfg v w as := by
  have hnone : ∀ p d, Obs.send p d ∉ l := fun p d hmem => (hq _ hmem).1 p d rfl
  refine ⟨_, hl, ?_, of_idle hs⟩
  -- no message begins here, so the error callback is read against the message that ends
  rw [List.map_append, AtEach.append, Told.foldl_obs hnone, hcur, hm]
  refine ⟨AtEach.of_forall fun x hx t => ?_, trivial, ?_⟩
  · obtain ⟨o, ho, rfl⟩ := List.mem_map.mp hx
    exact (hq o ho).2 t
  · cases c with
    | false => trivial
    | true => exact ⟨⟨n, rfl, hcb⟩, trivial⟩

/-- **The confirmation of a frame**, and the sent callback if it was the last -/
theorem outputSwitch (h : Answered cfg v as) (hb : AtMostOne v) (hsends : Sends cfg v)
    (hc : 0 < v.confirms) {pcb : IsotpPcb} {slot : Bool}
    (hw : OutputSwitch pcb p slot { v with confirms := v.confirms - 1 } v') :
    Tells cfg v v' (as ++ [.ok]) := by
  obtain ⟨hone, -, -, -, hsd⟩ := hb.of_confirms_pos hc
  have hni := ne_idle_of_sends hsd
  obtain ⟨m, buf, ha⟩ := hsends.active hni
  obtain ⟨n, hans, hn⟩ := h.answers hni m ha.current
  have hnone : v.confirms - 1 + 1 = v.confirms := by omega
  cases hw with
  | skip hsk =>
    -- a driver that owes a confirmation excludes both states in which nothing is done
    obtain hsk | hsk := hsk
    · exact absurd hsk hni
    · change v.flow.state = .waitFc at hsk
      rw [hsk] at hsd
      cases hsd
  | complete hd =>
    -- all is sent: a single frame, or consecutive frames up to the last byte
    have hcarried : m.Carried cfg := by
      obtain hsf | ⟨hcf, hrem⟩ := hd
      · exact (h.single hsf m ha.current).2 hc
      · change v.flow.state = .txCf at hcf
        change v.flow.remainingData = 0 at hrem
        have hseg : m.Segmented cfg := ha.segmented.mp (by rw [hcf]; decide)
        obtain ⟨xs, hxs, hpre, hsize⟩ := hsends.stream m ha.current hseg
        have hsize := hsize hni
        exact Or.inr ⟨xs, hxs, hpre.eq_of_length (by omega)⟩
    -- `ISOTP_SENT` reports the length of the buffer, which is that of the message
    have hcap : View.capacity { v with confirms := v.confirms - 1 } = m.data.length := by
      show v.headBuffer.elim 0 LwcanBuffer.length = _
      rw [ha.head, Option.elim_some, ← ha.bytes, LwcanBuffer.bytes, Mem.length_slice]
    have hanswers : as ++ [Lwcanerr.ok] = List.replicate m.frames.length .ok := by
      rw [hans, ← hn, hone, List.replicate_succ']
    refine ⟨_, View.emitIf_log .., ?_, of_idle (by rw [View.emitIf_flow]; rfl)⟩
    split
    · exact ⟨⟨m, ha.current, hcap, hcarried, ha.taken, hanswers, ha.silent⟩, trivial⟩
    · trivial
  | ff hs =>
    refine tells (l := [.waitFc p]) ?_ rfl
      (List.forall_mem_singleton.mpr ⟨by rintro _ _ ⟨⟩, fun _ => trivial⟩)
    exact h.keep (l := [.waitFc p]) (j := 1) rfl (List.forall_mem_singleton.mpr trivial) hni
      (by rintro ⟨⟩) hnone
  | cf hs hr hopen =>
    refine tells (l := []) ?_ (List.append_nil _).symm (by rintro _ ⟨⟩)
    exact h.keep (l := []) (j := 1) (List.append_nil _).symm (by rintro _ ⟨⟩) hni
      (by rintro ⟨⟩) hnone
  | block hs hr hclosed =>
    refine tells (l := [.waitFc p]) ?_ rfl
      (List.forall_mem_singleton.mpr ⟨by rintro _ _ ⟨⟩, fun _ => trivial⟩)
    exact h.keep (l := [.waitFc p]) (j := 1) rfl (List.forall_mem_singleton.mpr trivial) hni
      (by rintro ⟨⟩) hnone

/-- **A frame handed over** that the driver accepts -/
theorem output (h : Answered cfg v as) (hb : AtMostOne v) (hsends : Sends cfg v) (ht : 0 < v.tx)
    {f : CanFrame} {filled : IsotpFlow × CanFrame} {n canif timeout : Nat}
    (hfl : isotpFill cfg v.headBuffer v.flow f = some (filled, n)) :
    Tells cfg v (({ v with tx := v.tx - 1 }.setFlow filled.1).accepted (p, .output) canif filled.2
      timeout) as := by
  obtain ⟨htx, -, -, -, hsd⟩ := hb.of_tx_pos ht
  have hni := ne_idle_of_sends hsd
  obtain ⟨m, buf, ha⟩ := hsends.active hni
  have hstate := isotpFill_state hfl
  have hcur : sending (v.log ++ [.output (p, .output) canif filled.2.canId filled.2.wire timeout
      .ok]) = some { m with frames := m.frames ++ [filled.2.wire], taken := m.taken && true } := by
    rw [sending_append, ha.current]
    rfl
  refine tells (l := [.output (p, .output) canif filled.2.canId filled.2.wire timeout .ok])
    ⟨fun _ m' hm' => ?_, fun hs m' hm' => ⟨fun htx' => ?_, fun _ => ?_⟩, fun hs m' hm' => ?_⟩ rfl
    fun o ho => ?_
  · cases hcur.symm.trans hm'
    -- one frame more, and one confirmation more that the driver owes
    obtain ⟨j, hans, hj⟩ := h.answers hni m ha.current
    refine ⟨j, hans, ?_⟩
    show j + (v.confirms + 1) = (m.frames ++ [filled.2.wire]).length
    rw [List.length_append, ← hj]
    rfl
  · -- no second frame is due
    change 0 < v.tx - 1 at htx'
    omega
  · -- the one frame of a short message
    cases hcur.symm.trans hm'
    have hsf : v.flow.state = .txSf := hstate.symm.trans hs
    obtain ⟨hnil, hrem⟩ := (h.single hsf m ha.current).1 ht
    obtain ⟨hfits, hne⟩ := h.fits hsf m ha.current
    have hshort : m.data.length ≤ sfMax cfg := by
      by_contra hlong
      exact ha.segmented.mpr (not_le.mp hlong) hsf
    rw [← ha.bytes] at hrem hne hshort hfits
    obtain ⟨pad, hwire⟩ := isotpFillSf_carries f hrem hne hshort hfits
    simp only [isotpFill, hsf, ha.head, Option.some.injEq, Prod.mk.injEq] at hfl
    obtain ⟨rfl, -⟩ := hfl
    refine Or.inl ⟨pad, ?_⟩
    show m.frames ++ [_] = [sfHeader cfg m.data.length ++ m.data ++ pad]
    rw [hnil, hwire, ha.bytes]
    rfl
  · cases hcur.symm.trans hm'
    exact h.fits (hstate.symm.trans hs) m ha.current
  · obtain rfl := List.mem_singleton.mp ho
    exact ⟨by rintro _ _ ⟨⟩, fun _ => trivial⟩

/-- **Every transition of an output flow** is told truthfully. -/
theorem step (hn : e ≠ .call .isotpNew) (hca : ConfirmsAccepted s e) (hfit : SendsFitting cfg s e)
    (hb : AtMostOne (s.view (p, .output))) (hsends : Sends cfg (s.view (p, .output)))
    (h : Answered cfg (s.view (p, .output)) as)
    (hst : OutputStep cfg s p (s.view (p, .output)) e v') :
    Tells cfg (s.view (p, .output)) v' (as ++ answer (p, .output) e) := by
  have hquiet : ∀ fs bs st, ∀ o ∈ [Obs.flowControl p fs bs st], o.Quiet ∧
      (∀ p d, o ≠ .send p d) ∧ ∀ t, Truthful cfg t (.obs o) := by
    intro fs bs st o ho
    obtain rfl := List.mem_singleton.mp ho
    exact ⟨trivial, by rintro _ _ ⟨⟩, fun _ => trivial⟩
  cases hst with
  | @send d g b buf hs hd hl hg hb' hbl hbb =>
    obtain ⟨-, -, hconf⟩ := hb.of_idle hs
    have hcur : sending ((s.view (p, .output)).log ++ [.send p d]) =
        some ⟨d, [], true, false, 0, []⟩ := by
      rw [sending_append]
      rfl
    -- a new message: nothing is handed over and nothing confirmed
    refine ⟨[.send p d], rfl, ⟨trivial, trivial⟩, fun _ m hm => ?_, fun _ m hm => ⟨fun _ => ?_, ?_⟩,
      fun _ m hm => ?_⟩
    · cases hcur.symm.trans hm
      exact ⟨0, rfl, (Nat.zero_add _).trans hconf⟩
    · cases hcur.symm.trans hm
      refine ⟨rfl, ?_⟩
      show (View.sendFlow cfg _ _ d).remainingData = d.length
      unfold View.sendFlow
      split <;> rfl
    · intro hc
      exact absurd hconf (Nat.pos_iff_ne_zero.mp hc)
    · cases hcur.symm.trans hm
      exact ⟨hfit, fun hnil => hd (List.length_eq_zero_iff.mpr hnil)⟩
  | skip hf hcan ht =>
    rw [show answer (p, .output) _ = [] from rfl, List.append_nil]
    -- `isotp_out_flow_output` returns early, and the frame stays due
    refine tells (l := []) ⟨h.answers, fun hs m hm => ?_, h.fits⟩ (List.append_nil _).symm
      (by rintro _ ⟨⟩)
    refine ⟨fun htx => (h.single hs m hm).1 ht, (h.single hs m hm).2⟩
  | output hf hcan ht hfl =>
    rw [show answer (p, .output) _ = [] from rfl, List.append_nil]
    exact h.output hb hsends ht hfl
  | @reject f ret canif filled n hf hcan ht hfl hr =>
    obtain ⟨m, buf, ha⟩ := hsends.active (hb.ne_idle_of_tx ht)
    refine giveUp ha.current (l := [.output (p, .output) canif filled.2.canId filled.2.wire n ret])
      ((View.fail_log ..).trans (List.append_assoc _ _ _)) (View.fail_state ..)
      (List.forall_mem_singleton.mpr ?_) rfl ha.silent
    exact ⟨by rintro _ _ ⟨⟩, fun _ => trivial⟩
  | expire hf herr =>
    obtain ⟨m, buf, ha⟩ := hsends.active (hb.ne_idle_of_err herr)
    exact giveUp ha.current (l := []) (View.fail_log ..) (View.fail_state ..) (by rintro _ ⟨⟩) rfl
      ha.silent
  | confirm hsn hsw =>
    rw [show answer (p, .output) (.sent (p, .output) .ok) = [.ok] from if_pos rfl]
    exact h.outputSwitch hb hsends (List.count_pos_iff.mpr hca) hsw
  | refuse hsn herr =>
    obtain ⟨m, buf, ha⟩ := hsends.active (hb.ne_idle_of_confirms (List.count_pos_iff.mpr hca))
    -- the confirmation says the frame was not sent
    exact giveUp ha.current (l := []) (View.refused_log ..) (by rw [View.refused_flow])
      (by rintro _ ⟨⟩) rfl ha.silent
  | resume hsn hsw =>
    -- the flow is idle: nothing was sent inside the error callback
    have hsi := hb.idle_of_suspended hsn rfl
    rw [hsw.eq_of_idle hsi]
    exact tells (l := []) (of_idle hsi) (List.append_nil _).symm (by rintro _ ⟨⟩)
  | wait hfind hs hf hnw =>
    refine tells ?_ rfl fun o ho => (hquiet _ _ _ o ho).2
    exact h.keep (j := 0) rfl (fun o ho => (hquiet _ _ _ o ho).1) (by rw [hs]; decide)
      (fun hsf => by cases hs.symm.trans hsf) rfl
  | @abort canif f g hfind hs hf hr =>
    obtain ⟨m, buf, ha⟩ := hsends.active (by rw [hs]; decide)
    exact giveUp ha.current
      (l := [.flowControl p (f.data 0 &&& 0x0F).toNat (f.data 1).toNat (f.data 2).toNat])
      ((View.fail_log ..).trans (List.append_assoc _ _ _)) (View.fail_state ..)
      (fun o ho => (hquiet _ _ _ o ho).2) rfl ha.silent
  | proceed hfind hs hf =>
    refine tells ?_ rfl fun o ho => (hquiet _ _ _ o ho).2
    exact h.keep (j := 0) rfl (fun o ho => (hquiet _ _ _ o ho).1) (by rw [hs]; decide)
      (by rintro ⟨⟩) rfl
  | new => exact absurd rfl hn

end Answered

/-! ### Runs -/

/-- **`isotp_new`** makes the flow idle, and ends no message with a callback. -/
theorem Sends.reset {v w : View} (h : Sends cfg v) (hl : w.log = v.log)
    (hs : w.flow.state = .idle) : Sends cfg w := by
  refine ⟨by rw [hl]; exact h.permitted, fun m hm hseg => ?_, fun _ m hm => ?_, fun hni => ?_⟩
  · rw [hl] at hm
    obtain ⟨xs, hxs, hpre⟩ := h.stream_prefix hm hseg
    exact ⟨xs, hxs, hpre, fun hni => absurd hs hni⟩
  · rw [hl] at hm
    -- a message that was being sent had no callback yet
    by_cases hi : v.flow.state = .idle
    · exact h.ended hi m hm
    · obtain ⟨m₀, buf, ha⟩ := h.active hi
      obtain rfl := Option.some.inj (ha.current.symm.trans hm)
      rw [ha.silent]
      exact Nat.zero_le _
  · exact absurd hs hni

namespace Node

variable {cfg : Config} {s s' : Node} {p : Nat} {e : Event} {es : List Event} {t : Told}

/-- What a run with re-entrant sends is free of. -/
structure Admissible (cfg : Config) (s : Node) (e : Event) : Prop where
  confirms : ConfirmsAccepted s e
  outside : SendsOutside s e
  fitting : SendsFitting cfg s e
  clean : NewIsClean cfg s e

/-- The state of an output flow, and what was told of it -/
structure Reported (cfg : Config) (s : Node) (p : Nat) (t : Told) : Prop where
  sound : Sound s
  pending : AtMostOne (s.view (p, .output))
  sends : Sends cfg (s.view (p, .output))
  current : t.cur = sending (s.view (p, .output)).log
  answered : Answered cfg (s.view (p, .output)) t.answers

theorem Reported.initial (cfg : Config) (p : Nat) : Reported cfg (lwcanInit cfg) p Told.start := by
  refine ⟨Sound.initial cfg, ?_, ?_, ?_, ?_⟩
  · rw [view_lwcanInit]
    exact AtMostOne.initial
  · rw [view_lwcanInit]
    exact Sends.initial
  · rw [view_lwcanInit]
    rfl
  · rw [view_lwcanInit]
    exact Answered.initial

/-- **One transition** of the flow keeps its message and what is pending for it, also where the flow
is handed out anew. -/
theorem paced_step (hca : ConfirmsAccepted s e) (ho : SendsOutside s e) (hnew : NewIsClean cfg s e)
    (hb : AtMostOne (s.view (p, .output))) (hsends : Sends cfg (s.view (p, .output))) {v' : View}
    (hst : OutputStep cfg s p (s.view (p, .output)) e v') : AtMostOne v' ∧ Sends cfg v' := by
  by_cases hn : e = .call .isotpNew
  · subst hn
    cases hst with
    | new hp =>
      obtain ⟨htx, herr, hconf⟩ := hnew p hp
      exact ⟨AtMostOne.idle rfl htx herr hconf, hsends.reset rfl rfl⟩
  · exact ⟨hb.output_step hn hca ho hst, Sends.step hn hca hb hsends hst⟩

/-- ... and what it adds to the history is told truthfully. -/
theorem Reported.output_step (h : Reported cfg s p t) (hc : Admissible cfg s e)
    (hst : OutputStep cfg s p (s.view (p, .output)) e (s'.view (p, .output))) :
    AtMostOne (s'.view (p, .output)) ∧ Sends cfg (s'.view (p, .output)) ∧
      Tells cfg (s.view (p, .output)) (s'.view (p, .output))
        (t.answers ++ answer (p, .output) e) := by
  obtain ⟨hb, hsends⟩ := paced_step hc.confirms hc.outside hc.clean h.pending h.sends hst
  refine ⟨hb, hsends, ?_⟩
  by_cases hn : e = .call .isotpNew
  · subst hn
    generalize s'.view (p, .output) = v' at *
    cases hst with
    | new hp =>
      exact Answered.tells (l := []) (Answered.of_idle rfl) (List.append_nil _).symm
        (by rintro _ ⟨⟩)
  · exact Answered.step hn hc.confirms hc.fitting h.pending h.sends h.answered hst

/-- **One step of the node**: what it adds to the history is truthful, and accounted for. -/
theorem Reported.step (h : Reported cfg s p t) (hc : Admissible cfg s e)
    (hst : step cfg s e = some s') :
    AtEach Told.step (Truthful cfg) t (seen (p, .output) s e s') ∧
      Reported cfg s' p ((seen (p, .output) s e s').foldl Told.step t) := by
  have hconfirmed : ∀ as : List Lwcanerr,
      AtEach Told.step (Truthful cfg) t (as.map Entry.confirmed) := fun as => by
    refine AtEach.of_forall fun x hx t => ?_
    obtain ⟨err, -, rfl⟩ := List.mem_map.mp hx
    trivial
  have hseen : seen (p, .output) s e s' = (answer (p, .output) e).map .confirmed ++
      ((s'.view (p, .output)).log.drop (s.view (p, .output)).log.length).map .obs := rfl
  -- the confirmation comes first, then what the event adds to the log
  rw [hseen, AtEach.append, List.foldl_append, Told.foldl_confirmed, h.current]
  obtain heq | hmove := (h.sound.moves hst).output p
  · -- the flow sees nothing of the step, so that was no confirmation for it
    have hans : answer (p, .output) e = [] := by
      cases e with
      | sent k err =>
        refine if_neg fun hk => ?_
        subst hk
        refine view_ne_of_concerns hst (decide_eq_true rfl) (fun err' he => ?_) heq
        exact hc.confirms
      | call | input | timer | resume | tick => rfl
    rw [hans, heq, List.drop_length, List.append_nil]
    exact ⟨⟨trivial, trivial⟩, h.sound.step hst, by rw [heq]; exact h.pending,
      by rw [heq]; exact h.sends, by rw [heq]; rfl, by rw [heq]; exact h.answered⟩
  · obtain ⟨hpending, hsends, l, hl, htruth, hanswered⟩ := h.output_step hc hmove
    have hdrop : (s'.view (p, .output)).log.drop (s.view (p, .output)).log.length = l := by
      rw [hl, List.drop_left]
    rw [hdrop]
    refine ⟨⟨hconfirmed _, htruth⟩, h.sound.step hst, hpending, hsends, ?_, hanswered⟩
    rw [hl, sending_append]
    exact Told.foldl_obs_cur l _

/-- The history of a run whose driver confirms what it accepts, that sends nothing inside the error
callback of its own failed confirmation, whose single frames have room for their messages, and whose
new connections find nothing of a removed one pending -/
theorem truthful_history (h : RunAlong cfg (Admissible cfg) es) :
    AtEach Told.step (Truthful cfg) Told.start (history cfg (p, .output) (lwcanInit cfg) es) := by
  -- along the run, from any state that was reported truthfully
  have key : ∀ (es : List Event) (s : Node) (t : Told), Reported cfg s p t →
      Runs.Along (Node.step cfg) (Admissible cfg) s es →
      AtEach Told.step (Truthful cfg) t (history cfg (p, .output) s es) := by
    intro es
    induction es with
    | nil => exact fun _ _ _ _ => trivial
    | cons e es ih =>
      intro s t hacc hc
      unfold history
      cases hst : Node.step cfg s e with
      | none => trivial
      | some s' =>
        obtain ⟨htruth, hacc'⟩ := hacc.step hc.1 hst
        exact AtEach.append.mpr ⟨htruth, ih s' _ hacc' (hc.2 s' hst)⟩
  exact key es _ _ (Reported.initial cfg p) h

/-- **The sent callback is truthful**, and every message accepted has one callback at most, in every
admissible run whose frames fit. There the history of a flow is its own: no frame received is copied
over what another flow has to send. -/
theorem sent_truthful (h : RunAlong cfg (Admissible cfg) es) (hc : RunAlong cfg (Confined cfg) es) :
    AtEach Told.step (Truthful cfg) Told.start (history cfg (p, .output) (lwcanInit cfg) es) ∧
      ∀ s, Run cfg es s → CopiesInside s :=
  ⟨truthful_history h, fun _ hr => Confined.copiesInside hr hc⟩

instance (cfg : Config) (s : Node) (e : Event) : Decidable (Admissible cfg s e) :=
  decidable_of_iff
    (ConfirmsAccepted s e ∧ SendsOutside s e ∧ SendsFitting cfg s e ∧ NewIsClean cfg s e)
    ⟨fun h => ⟨h.1, h.2.1, h.2.2.1, h.2.2.2⟩, fun h => ⟨h.1, h.2, h.3, h.4⟩⟩

/-- A connection with callbacks has handed over a single frame, and its driver reports a failure. -/
def failedFrame : List Event := connected ++
  [.call (.isotpSetCallbacks 0 false false true true),
    .call (.isotpSend (some 0) (some [1, 2, 3]) ⟨some 1, some 2, fun _ => 0⟩),
    .timer ⟨0, 0, 0, fun _ => 0⟩ .ok, .sent (0, .output) (.driver (-1))]

/-- The next message, which may be the same one -/
def sendAgain : Event := .call (.isotpSend (some 0) (some [4, 5, 6]) ⟨some 3, some 4, fun _ => 0⟩)

/-- The next message is sent when the callback has returned, while another one comes in. -/
def sentAfter : List Event := failedFrame ++ [.resume, sendAgain, .timer ⟨0, 0, 0, fun _ => 0⟩ .ok,
  .input 0 firstFrame ⟨some 5, some 6, fun _ => 0⟩, .sent (0, .output) .ok]

theorem sent_truthful_retry :
    AtEach Told.step (Truthful Config.classic) Told.start
      (history Config.classic (0, .output) (lwcanInit Config.classic) sentAfter) ∧
    ∃ s, Run Config.classic sentAfter s ∧ CopiesInside s := by
  have hadmissible : RunAlong Config.classic (Admissible Config.classic) sentAfter := by
    decide
  obtain ⟨htruth, hinside⟩ := sent_truthful (p := 0) hadmissible (by decide)
  obtain ⟨s, hr, -⟩ := exists_run Config.classic sentAfter (fun _ => True) (by decide)
  exact ⟨htruth, s, hr, hinside s hr⟩

/-- **A message is reported as sent that no driver has seen**: it is accepted inside the error
callback, and `isotp_sent` goes on to take the confirmation for its own. -/
theorem sent_untruthful : ¬∀ (cfg : Config) (es : List Event) (s : Node) (p : Nat), Run cfg es s →
    RunAlong cfg KeepsPcbs es → RunAlong cfg ConfirmsAccepted es → RunAlong cfg (Confined cfg) es →
    AtEach Told.step (Truthful cfg) Told.start (history cfg (p, .output) (lwcanInit cfg) es) := by
  intro h
  obtain ⟨s, hr, -⟩ := exists_run Config.classic (failedFrame ++ [sendAgain, .resume])
    (fun _ => True) (by decide)
  have htruth := h Config.classic _ s 0 hr (by decide) (by decide) (by decide)
  generalize hl : history Config.classic (0, .output) (lwcanInit Config.classic)
    (failedFrame ++ [sendAgain, .resume]) = l at htruth
  -- the last entry is the sent callback
  have hlast : l.getLast? = some (.obs (.sent 0 .null 3)) := by
    rw [← hl]
    decide
  -- it is made for the second message, none of whose frames was handed over
  have hcur : (l.dropLast.foldl Told.step Told.start).cur.map (fun m => (m.data, m.frames)) =
      some ([4, 5, 6], []) := by
    rw [← hl]
    decide
  rw [← List.dropLast_append_getLast? _ hlast] at htruth
  obtain ⟨m, hm, -, hcarried, -⟩ := htruth.of_split
  rw [hm] at hcur
  obtain ⟨hd, hf⟩ := Prod.mk.inj (Option.some.inj hcur)
  exact hcarried.frames_ne (by rw [hd]; decide) hf

end Node
end Lwcan
