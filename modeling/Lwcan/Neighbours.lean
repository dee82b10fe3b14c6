import Lwcan.Hosted
import Lwcan.Independence
import Lwcan.Sender

/-!
# Buffers side by side

The buffers lie in one memory, next to each other and to the headers of the allocator, and what is
copied behind the end of one is the start of the next. So what the node does with one message
depends on what a peer announces for another: that every block is accounted for, that a sender sends
the message it was given and that the flows are independent holds in the one memory as long as
frames fit, and not beyond.

* `Permitted` — what the peer, the drivers and the application may do;
* `Guarded` — frames fit, and no buffer is released while it is being filled;
* `blocks_accounted`, `sender_safe`, `flows_independent` — the three results, for every run of
  permitted and guarded events;
* `blocks_leak`, `sends_foreign`, `flows_interfere` — runs of permitted events after which they do
  not hold: two in which a first frame announces one byte and carries six, and one in which a buffer
  is released twice.
-/

namespace Lwcan
namespace Hosted

open Node

variable {cfg : Config} {c : MemConfig} {bufferSize : Nat} {es : List Event}

/-! ### What may happen -/

/-- Any peer, any driver, any order: no pcb is removed, frames are no longer than the build's frames
can be, no length is larger than a `size_t`, and the application uses the heap for its own blocks
only. -/
def Permitted (cfg : Config) (c : MemConfig) (h : Hosted) : Event → Prop
  | .memory e => MemoryHeap.Allowed c { h.memory with live := h.own } e
  | .node e _ _ =>
    h.node.Enabled (e.withGrant none none) ∧ KeepsPcbs h.node e ∧ ValidFrames cfg h.node e ∧
      ∀ n ∈ h.node.asks cfg e, n < 2 ^ c.sizeBits

/-- Frames fit, and the application does not release the message under reassembly. -/
def Guarded (cfg : Config) (h : Hosted) : Event → Prop
  | .memory _ => True
  | .node e _ _ => KeepsOpen h.node e ∧ FramesFit cfg h.node (e.withGrant (some 0) (some 0))

instance (cfg : Config) (c : MemConfig) (h : Hosted) : (e : Event) → Decidable (h.Permitted cfg c e)
  | .memory e =>
    inferInstanceAs (Decidable (MemoryHeap.Allowed c { h.memory with live := h.own } e))
  | .node _ _ _ => inferInstanceAs (Decidable (_ ∧ _ ∧ _ ∧ _))

instance (cfg : Config) (h : Hosted) : (e : Event) → Decidable (h.Guarded cfg e)
  | .memory _ => isTrue True.intro
  | .node _ _ _ => inferInstanceAs (Decidable (_ ∧ _))

/-- The two together are what the allocator needs of a run. -/
theorem Permitted.allowed {h : Hosted} {e : Event} (hp : h.Permitted cfg c e)
    (hg : h.Guarded cfg e) : h.Allowed cfg c e := by
  cases e with
  | memory e => exact hp
  | node e header cells =>
    obtain ⟨hen, hk, hv, hsize⟩ := hp
    obtain ⟨ho, hf⟩ := hg
    refine ⟨hen, ⟨?_, ?_, ?_, hf⟩, hsize⟩
    · cases e with
      | call c => cases c <;> exact hk
      | _ => exact hk
    · cases e with
      | call c => cases c <;> exact hv
      | _ => exact hv
    · cases e with
      | call c => cases c <;> exact ho
      | _ => exact ho

theorem allowed_along
    (hp : Runs.Along (step cfg c bufferSize) (Permitted cfg c) { node := lwcanInit cfg } es)
    (hg : Runs.Along (step cfg c bufferSize) (Guarded cfg) { node := lwcanInit cfg } es) :
    Runs.Along (step cfg c bufferSize) (Allowed cfg c) { node := lwcanInit cfg } es :=
  (hp.and hg).mono fun _ _ h => h.1.allowed h.2

/-! ### Every block is accounted for -/

/-- **The blocks are accounted for**: those of the node are its buffers', those in use in the
allocator's heap are the application's and the node's, and when both have none left the heap is
whole again. -/
structure BlocksAccounted (c : MemConfig) (h : Hosted) : Prop where
  node : BlocksOwned h.node
  heap : h.memory.pxEnd = none ∧ h.memory.live = [] ∨ ∃ bs, MemoryHeap.Integrity c h.memory bs
  live : (h.memory.live.map Prod.fst).Perm (h.own.map Prod.fst ++ h.node.heap.blocks)
  whole : h.own = [] → h.node.heap.blocks = [] → h.memory.pxEnd ≠ none →
    h.memory.xFreeBytesRemaining = c.endAddress - c.alignedHeap

/-- **Every block is accounted for**, in every run in which frames fit and the message under
reassembly is not released. No step of such a run is one that the library does not survive. -/
theorem blocks_accounted
    (hp : Runs.Along (step cfg c bufferSize) (Permitted cfg c) { node := lwcanInit cfg } es)
    (hg : Runs.Along (step cfg c bufferSize) (Guarded cfg) { node := lwcanInit cfg } es) :
    ∃ h, Runs.run (step cfg c bufferSize) { node := lwcanInit cfg } es = some h ∧
      BlocksAccounted c h := by
  obtain ⟨h, hr, hh, hnode, hcareful, -⟩ := Hosts.run (allowed_along hp hg) onNode_true
  have hheap : h.memory.pxEnd = none ∧ h.memory.live = [] ∨
      ∃ bs, MemoryHeap.Integrity c h.memory bs :=
    hh.memory.imp id fun ⟨bs, hi⟩ => ⟨bs, hi.integrity⟩
  refine ⟨h, hr, blocksOwned_run hnode (Reached.keepsPcbs hcareful), hheap, hh.partition, ?_⟩
  intro hown hblocks hinit
  have hlive : h.memory.live = [] := by
    have hpart := hh.partition
    rw [hown, hblocks] at hpart
    exact List.map_eq_nil_iff.mp (List.perm_nil.mp hpart)
  obtain ⟨bs, hi⟩ := hheap.resolve_left fun hno => hinit hno.1
  -- one free block is left, and it is counted
  rw [hi.bytes, hi.restored hlive]
  exact Nat.add_zero _

/-- A frame for the connection of `connected` -/
def toConnected (bytes : List UInt8) : CanFrame :=
  ⟨0x7E8, bytes.length, 0, fun i => bytes.getD i 0xAA⟩

/-- An event of the node: what it stores over a header of the allocator reads as zeros there. -/
def onNode (e : Lwcan.Event) : Event := .node e (fun _ => {}) fun _ => {}

/-- A frame of the peer -/
def peers (bytes : List UInt8) : Event :=
  onNode (.input 0 (toConnected bytes) ⟨none, none, fun _ => 0⟩)

/-- The timeout that is due, with a driver that takes its frame -/
def due : Event := onNode (.timer ⟨0, 0, 0, fun _ => 0⟩ .ok)

/-- A message is accepted. -/
def sends (d : List UInt8) : Event :=
  onNode (.call (.isotpSend (some 0) (some d) ⟨none, none, fun _ => 0⟩))

/-- Two messages are delivered and kept, a third one is under reassembly, and a fourth is being
sent. -/
def queued : List Event := connected.map onNode ++
  [onNode (.call (.isotpSetCallbacks 0 true false false false)), peers [1, 0x51],
    peers [2, 0x52, 0x53],
    peers [0x10, 9, 1, 2, 3, 4, 5, 6], due, onNode (.sent (0, .input) .ok), sends [7, 8, 9]]

theorem blocks_accounted_queued : ∃ h,
    Runs.run (step {} MemoryHeap.smallHeap 12) { node := lwcanInit {} } queued = some h ∧
      (h.node.owned (0, .input)).length = 3 ∧ (h.node.owned (0, .output)).length = 1 ∧
      h.node.heap.blocks.length = 8 ∧ BlocksAccounted MemoryHeap.smallHeap h := by
  obtain ⟨h, hr, hin, hout, hlen⟩ := Runs.exists_run (step {} MemoryHeap.smallHeap 12)
    { node := lwcanInit {} } queued (fun h => (h.node.owned (0, .input)).length = 3 ∧
      (h.node.owned (0, .output)).length = 1 ∧ h.node.heap.blocks.length = 8) (by decide)
  have hp : Runs.Along (step {} MemoryHeap.smallHeap 12) (Permitted {} MemoryHeap.smallHeap)
      { node := lwcanInit {} } queued := by
    decide
  obtain ⟨t, ht, hacc⟩ := blocks_accounted hp (by decide)
  obtain rfl := Option.some.inj (hr.symm.trans ht)
  exact ⟨h, hr, hin, hout, hlen, hacc⟩

/-- A first frame announces one byte. While a message of three bytes is sent, two consecutive frames
put zeros over the header in front of its buffer, which then is not given back; nor does it help
that both messages come to their ends. -/
def leaking : List Event := connected.map onNode ++
  [peers [0x10, 1, 0, 0, 0, 0, 0, 0], due, onNode (.sent (0, .input) .ok), sends [1, 2, 3],
    -- the first of them leaves the size but for its lowest byte
    .node (.input 0 (toConnected [0x21, 0, 0, 0, 0, 0, 0, 0]) ⟨none, none, fun _ => 0⟩)
      (fun _ => {}) fun a => if a = 4144 then { xBlockSize := 0x80000000 } else {},
    peers [0x22, 0, 0, 0], due, onNode (.sent (0, .output) .ok), onNode (.tick 1000), due]

/-- A message is delivered and released. The next one gets the same buffer; the application releases
the first message once more. -/
def stale : List Event := connected.map onNode ++
  [onNode (.call (.isotpSetCallbacks 0 true false false false)), peers [1, 0x51],
    onNode (.call (.isotpReceived (some 0) (some 4112))), peers [0x10, 9, 1, 2, 3, 4, 5, 6], due,
    onNode (.sent (0, .input) .ok), onNode (.call (.isotpReceived (some 0) (some 4112)))]

/-- **Blocks get lost**: after `leaking` neither the node nor the application has a block, and 24
bytes of the heap are gone. After `stale`, `store_cf_data` reads the length of its buffer through
NULL. -/
theorem blocks_leak :
    (¬∀ (cfg : Config) (c : MemConfig) (bufferSize : Nat) (es : List Event) (h : Hosted),
      Runs.Along (step cfg c bufferSize) (Permitted cfg c) { node := lwcanInit cfg } es →
        Runs.run (step cfg c bufferSize) { node := lwcanInit cfg } es = some h →
          BlocksAccounted c h) ∧
    ¬∀ (cfg : Config) (c : MemConfig) (bufferSize : Nat) (es : List Event) (h : Hosted)
      (e : Lwcan.Event),
      Runs.Along (step cfg c bufferSize) (Permitted cfg c) { node := lwcanInit cfg }
        (es ++ [onNode e]) →
        Runs.run (step cfg c bufferSize) { node := lwcanInit cfg } es = some h →
          ¬h.node.ReadsNull e := by
  constructor
  · intro hall
    obtain ⟨h, hr, hown, hblocks, hinit, hfree⟩ := Runs.exists_run (step {} MemoryHeap.smallHeap 12)
      { node := lwcanInit {} } leaking (fun h => h.own = [] ∧ h.node.heap.blocks = [] ∧
        h.memory.pxEnd ≠ none ∧ h.memory.xFreeBytesRemaining = 472) (by decide)
    have hwhole :=
      (hall {} MemoryHeap.smallHeap 12 leaking h (by decide) hr).whole hown hblocks hinit
    rw [hfree] at hwhole
    exact absurd hwhole (by decide)
  · intro hall
    obtain ⟨h, hr, hnull⟩ := Runs.exists_run (step {} MemoryHeap.smallHeap 12)
      { node := lwcanInit {} }
      stale (fun h => h.node.ReadsNull (.input 0 (toConnected [0x21, 7, 8, 9])
        ⟨none, none, fun _ => 0⟩)) (by decide)
    exact hall {} MemoryHeap.smallHeap 12 stale h _ (by decide) hr hnull

/-! ### The sender keeps to the message -/

/-- An event is a confirmation whatever the allocator answers. -/
theorem withGrant_eq_sent {e : Lwcan.Event} {header payload : Option Nat} {k : FlowId}
    {err : Lwcanerr} : e.withGrant header payload = .sent k err ↔ e = .sent k err := by
  cases e with
  | call c => cases c <;> exact iff_of_false nofun nofun
  | input => exact iff_of_false nofun nofun
  | _ => exact Iff.rfl

theorem allSent_withGrant {e : Lwcan.Event} {header payload : Option Nat} {k : FlowId} {s : Node}
    {m : Sending} : AllSent cfg k (e.withGrant header payload) s m ↔ AllSent cfg k e s m :=
  ⟨fun h => ⟨h.whole, h.taken, withGrant_eq_sent.mp h.confirmed, h.owed⟩,
    fun h => ⟨h.whole, h.taken, withGrant_eq_sent.mpr h.confirmed, h.owed⟩⟩

/-- **The sender keeps to the message**, whatever its peer, its driver and time do, in every run in
which frames fit and the message under reassembly is not released. What it hands over is a first
frame and consecutive frames, numbered from 1 modulo 16, that carry the message from front to back
without a gap; no consecutive frame goes out before the peer has allowed it; no more than `N_WFT`
WAIT frames are put up with; and a message ends with one callback, the sent callback if and only if
all of it was sent. -/
theorem sender_safe {p : Nat}
    (hp : Runs.Along (step cfg c bufferSize) (Permitted cfg c) { node := lwcanInit cfg } es)
    (hg : Runs.Along (step cfg c bufferSize) (Guarded cfg) { node := lwcanInit cfg } es)
    (hc : Runs.Along (step cfg c bufferSize) (OnNode cfg c bufferSize ConfirmsAccepted)
      { node := lwcanInit cfg } es)
    (ho : Runs.Along (step cfg c bufferSize) (OnNode cfg c bufferSize SendsOutside)
      { node := lwcanInit cfg } es) :
    ∃ h, Runs.run (step cfg c bufferSize) { node := lwcanInit cfg } es = some h ∧
      (∀ l₁ canif id w t ret l₂,
        h.node.logOf (p, .output) = l₁ ++ .output (p, .output) canif id w t ret :: l₂ →
          ∃ m ∈ sending l₁, m.Segmented cfg → m.frames ≠ [] → m.ready) ∧
      ∀ m ∈ sending (h.node.logOf (p, .output)), m.Segmented cfg →
        (∃ xs, Stream cfg m.data.length m.frames xs ∧ xs.flatten <+: m.data) ∧
        ((h.node.flow (p, .output)).state ≠ .idle → m.waits ≤ cfg.nWft ∧ m.callbacks = []) ∧
        m.callbacks.length ≤ 1 ∧
        ∀ e header cells t, h.Permitted cfg c (.node e header cells) →
          h.Guarded cfg (.node e header cells) →
          h.OnNode cfg c bufferSize ConfirmsAccepted (.node e header cells) →
          h.step cfg c bufferSize (.node e header cells) = some t →
          (h.node.flow (p, .output)).state ≠ .idle → (t.node.flow (p, .output)).state = .idle →
          ∃ m', sending (t.node.logOf (p, .output)) = some m' ∧ m'.data = m.data ∧
            EndsWith (h.node.pcb p) p (AllSent cfg (p, .output) e t.node m') m' := by
  obtain ⟨h, hr, hh, hnode, hcareful, hcond⟩ := Hosts.run (allowed_along hp hg)
    ((hc.and ho).mono fun _ _ h => h.1.and h.2)
  obtain ⟨hframes, hends⟩ := sends_safely (p := p) hnode (Reached.keepsPcbs hcareful)
    (hcond.mono fun _ _ h => h.1) (hcond.mono fun _ _ h => h.2)
  refine ⟨h, hr, hframes, fun m hm hseg => ?_⟩
  obtain ⟨hstream, hwaits, hone, hlast⟩ := hends m hm hseg
  refine ⟨hstream, hwaits, hone, fun e header cells t hpe hge hce hst hbusy hidle => ?_⟩
  -- the node's part of the step ends the message
  obtain ⟨t', hst', -, -, -, r, memory, hans, hnst, -⟩ := hh.node_step (hpe.allowed hge)
  obtain rfl : t = t' := Option.some.inj (hst.symm.trans hst')
  obtain ⟨m', hm', hdata, hend⟩ := hlast _ _ hnst (hce.of_answer hans) hbusy hidle
  rw [allSent_withGrant] at hend
  exact ⟨m', hm', hdata, hend⟩

/-- A connection that has handed over the last frame of a message of eight bytes -/
def lastFrame : List Event := connected.map onNode ++
  [onNode (.call (.isotpSetCallbacks 0 false false true true)), sends eightBytes, due,
    onNode (.sent (0, .output) .ok), peers [0x30, 0, 0], due]

/-- The confirmation of the last frame ends the message. -/
theorem sender_safe_lastFrame : ∃ h t m,
    Runs.run (step {} MemoryHeap.smallHeap 12) { node := lwcanInit {} } lastFrame = some h ∧
    h.step {} MemoryHeap.smallHeap 12 (onNode (.sent (0, .output) .ok)) = some t ∧
    sending (t.node.logOf (0, .output)) = some m ∧ m.data = eightBytes ∧
    EndsWith (h.node.pcb 0) 0 (AllSent {} (0, .output) (.sent (0, .output) .ok) t.node m) m := by
  obtain ⟨h, hr, hm, hbusy, hpe, hge, hce, hstep⟩ := Runs.exists_run
    (step {} MemoryHeap.smallHeap 12) { node := lwcanInit {} } lastFrame (fun h =>
      let e := onNode (.sent (0, .output) .ok)
      (sending (h.node.logOf (0, .output))).map Sending.data = some eightBytes ∧
        (h.node.flow (0, .output)).state ≠ .idle ∧ h.Permitted {} MemoryHeap.smallHeap e ∧
        h.Guarded {} e ∧ h.OnNode {} MemoryHeap.smallHeap 12 ConfirmsAccepted e ∧
        (h.step {} MemoryHeap.smallHeap 12 e).any fun t => (t.node.flow (0, .output)).state = .idle)
    (by decide)
  obtain ⟨t, hst, hidle⟩ := (Option.any_eq_true _ _).mp hstep
  obtain ⟨m, hm, hd⟩ := Option.map_eq_some_iff.mp hm
  have hseg : m.Segmented {} := by
    rw [Sending.Segmented, hd]
    decide
  have hp : Runs.Along (step {} MemoryHeap.smallHeap 12) (Permitted {} MemoryHeap.smallHeap)
      { node := lwcanInit {} } lastFrame := by
    decide
  obtain ⟨h', hr', -, hends⟩ := sender_safe (p := 0) hp (by decide) (by decide) (by decide)
  obtain rfl : h = h' := Option.some.inj (hr.symm.trans hr')
  obtain ⟨m', hm', hd', hend⟩ := (hends m hm hseg).2.2.2 _ _ _ t hpe hge hce hst hbusy
    (of_decide_eq_true hidle)
  exact ⟨h, t, m', hr, hst, hm', hd'.trans hd, hend⟩

/-- While a message of three bytes is on its way, a first frame announces one byte. The confirmation
of the three leaves room in front of that message's buffer; a message of eight bytes is accepted,
its fields go there and its bytes right behind the one byte. Two consecutive frames come in, and its
first frame is due. -/
def foreign : List Event := connected.map onNode ++
  [sends [1, 2, 3], due, peers [0x10, 1, 0x51, 0x52, 0x53, 0x54, 0x55, 0x56], due,
    onNode (.sent (0, .input) .ok), onNode (.sent (0, .output) .ok), sends eightBytes,
    peers [0x21, 0x57, 0x58, 0x59, 0x5A, 0x5B, 0x5C, 0x5D],
    peers [0x22, 0x5E, 0x5F, 0x60, 0x61, 0x62, 0x63, 0x64], due]

/-- **What is sent is not what was given to `isotp_send`**: of the first six bytes four are the
peer's. -/
theorem sends_foreign :
    ¬∀ (cfg : Config) (c : MemConfig) (bufferSize : Nat) (es : List Event) (h : Hosted) (p : Nat),
      Runs.Along (step cfg c bufferSize) (Permitted cfg c) { node := lwcanInit cfg } es →
      Runs.Along (step cfg c bufferSize) (OnNode cfg c bufferSize ConfirmsAccepted)
        { node := lwcanInit cfg } es →
      Runs.Along (step cfg c bufferSize) (OnNode cfg c bufferSize CallsOutside)
        { node := lwcanInit cfg } es →
      Runs.run (step cfg c bufferSize) { node := lwcanInit cfg } es = some h →
      ∀ m ∈ sending (h.node.logOf (p, .output)), m.Segmented cfg →
        ∃ xs, Stream cfg m.data.length m.frames xs ∧ xs.flatten <+: m.data := by
  intro hall
  obtain ⟨h, hr, hsent⟩ := Runs.exists_run (step {} MemoryHeap.smallHeap 12)
    { node := lwcanInit {} }
    foreign (fun h => (sending (h.node.logOf (0, .output))).map (fun m => (m.data, m.frames)) =
      some (eightBytes, [[0x10, 8, 0x61, 0x62, 0x63, 0x64, 5, 6]])) (by decide)
  obtain ⟨m, hm, hparts⟩ := Option.map_eq_some_iff.mp hsent
  obtain ⟨hdata, hframes⟩ := Prod.mk.inj hparts
  obtain ⟨xs, hxs, hpre⟩ := hall {} MemoryHeap.smallHeap 12 foreign h 0 (by decide) (by decide)
    (by decide) hr m hm (by rw [Sending.Segmented, hdata]; decide)
  rw [hdata] at hpre
  rw [hdata, hframes] at hxs
  -- there is one frame, and it carries six bytes
  generalize hws : [([0x10, 8, 0x61, 0x62, 0x63, 0x64, 5, 6] : List UInt8)] = ws at hxs
  cases hxs with
  | nil => cases hws
  | ff x =>
    have hx : [0x61, 0x62, 0x63, 0x64, 5, 6] = x :=
      (List.cons.inj (List.cons.inj (List.cons.inj hws).1).2).2
    rw [← hx] at hpre
    exact absurd hpre (by decide)
  | @cf ws xs _ hne x _ k =>
    have hlen := congrArg List.length hws
    rw [List.length_append, List.length_singleton, List.length_singleton] at hlen
    exact hne (List.length_eq_zero_iff.mp (by omega))

/-! ### The flows are independent -/

/-- **The flows are independent**, in every run in which frames fit and the message under reassembly
is not released. Whatever the other flows do in between, a flow ends where its own events alone, in
the same order and with the same blocks from the allocator, bring it: with the same state, the same
buffers and contents, the same timers and deadlines, the same confirmations owed, the same frames
handed over and the same callbacks invoked. Cancelling a timer of another flow removes none of its
entries. -/
theorem flows_independent
    (hp : Runs.Along (step cfg c bufferSize) (Permitted cfg c) { node := lwcanInit cfg } es)
    (hg : Runs.Along (step cfg c bufferSize) (Guarded cfg) { node := lwcanInit cfg } es)
    (hc : Runs.Along (step cfg c bufferSize) (OnNode cfg c bufferSize ConfirmsAccepted)
      { node := lwcanInit cfg } es)
    (ho : Runs.Along (step cfg c bufferSize) (OnNode cfg c bufferSize CallsOutside)
      { node := lwcanInit cfg } es)
    (hw : Runs.Along (step cfg c bufferSize) (OnNode cfg c bufferSize (WakeSafe cfg))
      { node := lwcanInit cfg } es) (k : FlowId) :
    ∃ h, Runs.run (step cfg c bufferSize) { node := lwcanInit cfg } es = some h ∧
      (∃ s, Node.Run cfg (ownEvents cfg k (nodeRun cfg c bufferSize es)) s ∧
        s.view k = h.node.view k ∧ s.timeouts.entries k = h.node.timeouts.entries k) ∧
      ∀ j hd a, j ≠ k → armsFor j hd a →
        (h.node.timeouts.lwcanUntimeout hd a).entries k = h.node.timeouts.entries k := by
  obtain ⟨h, hr, -, hnode, hcareful, hcond⟩ := Hosts.run (allowed_along hp hg)
    ((hc.and (ho.and hw)).mono fun _ _ h => h.1.and (h.2.1.and h.2.2))
  obtain ⟨hown, hcancel⟩ := flows_apart hnode (Reached.keepsPcbs hcareful)
    (hcond.mono fun _ _ h => h.1) (hcond.mono fun _ _ h => h.2.1) (hcond.mono fun _ _ h => h.2.2) k
  exact ⟨h, hr, hown, hcancel⟩

/-- Two connections: a message is received in two frames over the one, and one is sent over the
other, the frame of which is confirmed in between. -/
def twoConnections : List Event := connected.map onNode ++
  [onNode (.call .isotpNew), onNode (.call (.isotpBind (some 84) (some (1, 0x7E1, 0x7E9)))),
    onNode (.call (.isotpSend (some 84) (some [0x11]) ⟨none, none, fun _ => 0⟩)),
    peers [0x10, 9, 1, 2, 3, 4, 5, 6], due, due, onNode (.sent (84, .output) .ok),
    onNode (.sent (0, .input) .ok), peers [0x21, 7, 8, 9]]

theorem flows_independent_two : ∃ h s,
    Runs.run (step {} MemoryHeap.smallHeap 12) { node := lwcanInit {} } twoConnections = some h ∧
    Node.Run {} (ownEvents {} (0, .input) (nodeRun {} MemoryHeap.smallHeap 12 twoConnections)) s ∧
    s.view (0, .input) = h.node.view (0, .input) ∧
    (ownEvents {} (0, .input) (nodeRun {} MemoryHeap.smallHeap 12 twoConnections)).length + 3 =
      twoConnections.length := by
  have hp : Runs.Along (step {} MemoryHeap.smallHeap 12) (Permitted {} MemoryHeap.smallHeap)
      { node := lwcanInit {} } twoConnections := by
    decide
  obtain ⟨h, hr, ⟨s, hs, hv, -⟩, -⟩ := flows_independent hp (by decide) (by decide) (by decide)
    (by decide) (0, .input)
  exact ⟨h, s, hr, hs, hv, by decide⟩

/-- `lwcan_buffer_new` returns a buffer. -/
def Supplied (cfg : Config) (s : Node) (e : Lwcan.Event) : Prop :=
  s.asks cfg e ≠ none → e.grant.granted

instance (cfg : Config) (s : Node) (e : Lwcan.Event) : Decidable (Supplied cfg s e) :=
  inferInstanceAs (Decidable (_ → _ = true))

/-- **A flow that receives changes what another one sends**, though allocations and timers succeed:
with its own events alone, the output flow of `foreign` sends the message it was given. -/
theorem flows_interfere :
    ¬∀ (cfg : Config) (c : MemConfig) (bufferSize : Nat) (es : List Event) (h : Hosted)
      (k : FlowId),
      Runs.Along (step cfg c bufferSize) (Permitted cfg c) { node := lwcanInit cfg } es →
      Runs.Along (step cfg c bufferSize) (OnNode cfg c bufferSize ConfirmsAccepted)
        { node := lwcanInit cfg } es →
      Runs.Along (step cfg c bufferSize) (OnNode cfg c bufferSize CallsOutside)
        { node := lwcanInit cfg } es →
      Runs.Along (step cfg c bufferSize) (OnNode cfg c bufferSize (WakeSafe cfg))
        { node := lwcanInit cfg } es →
      Runs.Along (step cfg c bufferSize) (OnNode cfg c bufferSize (Supplied cfg))
        { node := lwcanInit cfg } es →
      Runs.run (step cfg c bufferSize) { node := lwcanInit cfg } es = some h →
      (∀ p ∈ h.node.isotpPcbList, ∀ q ∈ h.node.isotpPcbList,
        (h.node.pcb p).ifIndex = (h.node.pcb q).ifIndex →
          (h.node.pcb p).rxId = (h.node.pcb q).rxId → p = q) →
      ∃ s, Node.Run cfg (ownEvents cfg k (nodeRun cfg c bufferSize es)) s ∧
        s.view k = h.node.view k := by
  intro hall
  obtain ⟨h, hr, hlist, hlast⟩ := Runs.exists_run (step {} MemoryHeap.smallHeap 12)
    { node := lwcanInit {} } foreign (fun h => h.node.isotpPcbList = [0] ∧
      (h.node.logOf (0, .output)).getLast? =
        some (.output (0, .output) 0 0x7E0 [0x10, 8, 0x61, 0x62, 0x63, 0x64, 5, 6] 1000 .ok))
    (by decide)
  obtain ⟨s, hs, hview⟩ := hall {} MemoryHeap.smallHeap 12 foreign h (0, .output) (by decide)
    (by decide) (by decide) (by decide) (by decide) hr fun p hp q hq _ _ => by
      rw [hlist] at hp hq
      exact (List.mem_singleton.mp hp).trans (List.mem_singleton.mp hq).symm
  obtain ⟨s', hs', hlast'⟩ := exists_run {}
    (ownEvents {} (0, .output) (nodeRun {} MemoryHeap.smallHeap 12 foreign))
    (fun s => (s.logOf (0, .output)).getLast? =
      some (.output (0, .output) 0 0x7E0 [0x10, 8, 1, 2, 3, 4, 5, 6] 1000 .ok)) (by decide)
  obtain rfl : s = s' := Option.some.inj (hs.symm.trans hs')
  have hlog : s.logOf (0, .output) = h.node.logOf (0, .output) := congrArg View.log hview
  rw [hlog, hlast] at hlast'
  exact absurd hlast' (by decide)

end Hosted
end Lwcan
