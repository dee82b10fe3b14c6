import Lwcan.TransferIn
import Lwcan.TransferOut

/-!
# Two nodes and a channel

Two nodes that talk to each other over a channel that neither loses nor reorders frames. Each node
runs as it does alone; what the driver of one accepts from the connection is what the other is
handed, and it is handed over no sooner than the driver has confirmed what it answers.

* `Link.step` — the two nodes, the frames on their way, and the contract of the environment.
* `Simulates` — the link is where the two parties of `Lwcan.Gated` are; `Simulates.step` is one
  step.
* `Simulates.canMove` — until both parties are done, an event of the connection can happen.
* `end_to_end` — a message that was accepted arrives, whatever the order of events: the run is over
  after a bounded number of events of the connection, and exactly when the message was delivered and
  answered.
-/

namespace Lwcan

open Transfer

/-- The two ends of a connection: the builds, the pcbs, and the interfaces their frames come in
by. -/
structure Ends where
  cfgA : Config
  cfgB : Config
  pcbA : Nat
  pcbB : Nat
  canifA : Nat
  canifB : Nat

namespace Ends

/-- The flow that sends -/
def out (c : Ends) : FlowId := (c.pcbA, .output)

/-- The flow that receives -/
def inp (c : Ends) : FlowId := (c.pcbB, .input)

/-- The block size that the receiver asks for -/
def bs (c : Ends) : Nat := u8 c.cfgB.receiveBs

end Ends

/-- The two nodes, and the frames of the connection that were handed over and have not arrived.
`moves` counts the events of the connection. -/
structure Link where
  a : Node
  b : Node
  ab : List (Nat × List UInt8)
  ba : List (Nat × List UInt8)
  moves : Nat

/-- What happens to a link. -/
inductive LinkEvent
  | atA (e : Event)
  | atB (e : Event)
  /-- The first frame on its way from `a` arrives at `b`, in memory that holds `frame`. -/
  | toB (frame : CanFrame) (g : Grant)
  /-- The first frame on its way from `b` arrives at `a`. -/
  | toA (frame : CanFrame) (g : Grant)

namespace Link

variable (c : Ends)

/-- **One step of a link.** A node may do what it does alone, as long as it does not disturb the
connection. A frame arrives after the one it answers was confirmed, where memory and a timer chunk
are available. -/
def step (L : Link) : LinkEvent → Option Link
  | .atA e =>
    if L.a.Undisturbed c.out e then
      (Node.step c.cfgA L.a e).map fun a =>
        { L with
          a
          ab := L.ab ++ handed (L.a.logOf c.out) (a.logOf c.out)
          moves := L.moves + (L.a.concerns c.out e).toNat }
    else none
  | .atB e =>
    if L.b.Undisturbed c.inp e then
      (Node.step c.cfgB L.b e).map fun b =>
        { L with
          b
          ba := L.ba ++ handed (L.b.logOf c.inp) (b.logOf c.inp)
          moves := L.moves + (L.b.concerns c.inp e).toNat }
    else none
  | .toB frame g =>
    match L.ab with
    | [] => none
    | (canId, w) :: ab =>
      if frame.canId = canId ∧ frame.wire = w ∧ c.inp ∉ L.b.confirms ∧ g.granted ∧
          L.b.timeouts.slotFree then
        (Node.step c.cfgB L.b (.input c.canifB frame g)).map fun b =>
          { L with
            b, ab
            ba := L.ba ++ handed (L.b.logOf c.inp) (b.logOf c.inp)
            moves := L.moves + 1 }
      else none
  | .toA frame g =>
    match L.ba with
    | [] => none
    | (canId, w) :: ba =>
      if frame.canId = canId ∧ frame.wire = w ∧ c.out ∉ L.a.confirms then
        (Node.step c.cfgA L.a (.input c.canifA frame g)).map fun a =>
          { L with
            a, ba
            ab := L.ab ++ handed (L.a.logOf c.out) (a.logOf c.out)
            moves := L.moves + 1 }
      else none

/-- **Bound**: two reachable nodes with a classic build, pcbs with mirrored identifiers whose frames
are dispatched to them, registered interfaces and callbacks, and nothing under way. -/
structure Bound (a b : Node) : Prop where
  runA : ∃ es, Node.Run c.cfgA es a
  runB : ∃ es, Node.Run c.cfgB es b
  classicA : c.cfgA.canfd = false
  classicB : c.cfgB.canfd = false
  live : c.pcbA ∈ a.isotpPcbList
  mirrored : (a.pcb c.pcbA).txId = (b.pcb c.pcbB).rxId ∧ (a.pcb c.pcbA).rxId = (b.pcb c.pcbB).txId
  dispatchA : ∀ frame, frame.canId = (a.pcb c.pcbA).rxId → a.findPcb c.canifA frame = some c.pcbA
  dispatchB : ∀ frame, frame.canId = (b.pcb c.pcbB).rxId → b.findPcb c.canifB frame = some c.pcbB
  registeredA : a.canif c.pcbA ≠ none
  registeredB : b.canif c.pcbB ≠ none
  sent : (a.pcb c.pcbA).sent = true
  receive : (b.pcb c.pcbB).receive = true
  quietA : Quiet (a.view c.out)
  quietB : Quiet (b.view c.inp)

/-- `isotp_send` accepts the message at `a`. -/
def start (a b : Node) (d : List UInt8) (g : Grant) : Link :=
  ⟨(a.isotpSend c.cfgA (some c.pcbA) (some d) g).2, b, [], [], 0⟩

/-- **Delivered**: the receive callback was handed the message once and the sent callback its length
once, no error callback was made, both flows are idle, and no frame is on its way. -/
structure Delivered (a₀ b₀ : Node) (d : List UInt8) (L : Link) : Prop where
  sent : answers (L.a.logOf c.out) = answers (a₀.logOf c.out) ++
    [.sent c.pcbA (a₀.pcb c.pcbA).callbackArg d.length]
  received : ∃ buffer, answers (L.b.logOf c.inp) = answers (b₀.logOf c.inp) ++
    [.receive c.pcbB (b₀.pcb c.pcbB).callbackArg buffer d]
  idleA : (L.a.flow c.out).state = .idle
  idleB : (L.b.flow c.inp).state = .idle
  ab : L.ab = []
  ba : L.ba = []

/-- **Busy**: a frame of the connection is due, not confirmed or on its way, or a callback has not
returned. -/
def Busy (L : Link) : Prop :=
  L.a.timeouts.pending .isotpOutFlowOutput (.pcb c.pcbA) ≠ 0 ∨ c.out ∈ L.a.confirms ∨
    L.b.timeouts.pending .isotpInFlowOutput (.pcb c.pcbB) ≠ 0 ∨ c.inp ∈ L.b.confirms ∨
      L.b.suspended.any (·.flow = c.inp) ∨ L.ab ≠ [] ∨ L.ba ≠ []

/-- **Clear**: no callback of another connection is waited for, and a timer chunk is free at both
ends. -/
structure Clear (L : Link) : Prop where
  returnedA : L.a.suspended = none
  returnedB : ∀ f ∈ L.b.suspended, f.flow = c.inp
  slotA : L.a.timeouts.slotFree
  slotB : L.b.timeouts.slotFree

/-- **An event of the connection can happen**, once others have had their turn. -/
def CanMove (L : Link) : Prop := ∃ fs L', Runs.run (step c) L fs = some L' ∧ L.moves < L'.moves

instance (L : Link) : Decidable (L.Busy c) :=
  inferInstanceAs (Decidable (_ ∨ _ ∨ _ ∨ _ ∨ _ ∨ _ ∨ _))

end Link

/-! ### The simulation -/

namespace Link

variable {c : Ends} {d : List UInt8} {a₀ b₀ : Node} {σ : Gated.State} {L L' : Link} {e : LinkEvent}

/-- The frames `m`, …, `n - 1` of the message, as they are on their way -/
def onTheWay (c : Ends) (a₀ : Node) (d : List UInt8) (m n : Nat) : List (Nat × List UInt8) :=
  (List.range' m (n - m)).map fun i => ((a₀.pcb c.pcbA).txId, wire c.cfgA.paddingByte d i)

theorem onTheWay_self (c : Ends) (a₀ : Node) (d : List UInt8) (m : Nat) :
    onTheWay c a₀ d m m = [] := by
  rw [onTheWay, Nat.sub_self]
  rfl

/-- One more frame is handed over. -/
theorem onTheWay_succ {m n : Nat} (h : m ≤ n) : onTheWay c a₀ d m (n + 1) =
    onTheWay c a₀ d m n ++ [((a₀.pcb c.pcbA).txId, wire c.cfgA.paddingByte d n)] := by
  unfold onTheWay
  rw [show n + 1 - m = (n - m) + 1 by omega, List.range'_concat, List.map_append]
  simp [show m + (n - m) = n by omega]

/-- The first frame on its way -/
theorem onTheWay_cons {m n : Nat} (h : m < n) : onTheWay c a₀ d m n =
    ((a₀.pcb c.pcbA).txId, wire c.cfgA.paddingByte d m) :: onTheWay c a₀ d (m + 1) n := by
  unfold onTheWay
  rw [show n - m = (n - (m + 1)) + 1 by omega, List.range'_succ]
  rfl

/-- The flow control that is on its way -/
def creditFrames (c : Ends) (b₀ : Node) (credit : Bool) : List (Nat × List UInt8) :=
  if credit then
    [((b₀.pcb c.pcbB).txId, fcWire c.cfgB.paddingByte c.bs (u8 c.cfgB.receiveSt))]
  else []

/-- What is handed over in a step, read from what the step logs -/
theorem handed_view {s s' : Node} {k : FlowId} {l : List Obs}
    (h : (s'.view k).log = (s.view k).log ++ l) :
    handed (s.logOf k) (s'.logOf k) = l.filterMap frameOf := by
  rw [show s'.logOf k = s.logOf k ++ l from h, handed_append]

theorem handed_of_view_eq {s s' : Node} {k : FlowId} (h : s'.view k = s.view k) :
    handed (s.logOf k) (s'.logOf k) = [] :=
  handed_view (l := []) (by rw [List.append_nil, h])

/-- **The simulation.** The link is where the two parties are. -/
structure Simulates (c : Ends) (d : List UInt8) (a₀ b₀ : Node) (σ : Gated.State) (L : Link) :
    Prop where
  soundA : L.a.Sound
  soundB : L.b.Sound
  setupA : a₀.SameSetup L.a
  setupB : b₀.SameSetup L.b
  inv : Gated.Inv (frames d) (gate c.bs d) σ
  sender : SenderAt c.pcbA (a₀.pcb c.pcbA).callbackArg d c.bs (answers (a₀.logOf c.out)) σ.sent
    σ.sender (L.a.view c.out)
  receiver : ReceiverAt c.cfgB c.pcbB (b₀.pcb c.pcbB).callbackArg d (answers (b₀.logOf c.inp))
    σ.received σ.receiver (L.b.view c.inp)
  asked : σ.receiver = .asked → σ.received = 1
  ab : L.ab = onTheWay c a₀ d σ.received σ.sent
  ba : L.ba = creditFrames c b₀ σ.credit
  moves : L.moves + Gated.rank Gated.State.initial ≤ Gated.rank σ

namespace Simulates

open Node

/-- A step of the link that is a step of the two parties climbs. -/
theorem climb (h : Simulates c d a₀ b₀ σ L) {σ' : Gated.State}
    (hst : Gated.Step (frames d) (gate c.bs d) σ σ') {n : Nat} (hn : n ≤ L.moves + 1) :
    n + Gated.rank Gated.State.initial ≤ Gated.rank σ' := by
  have := h.moves
  have := hst.rank_lt
  omega

theorem step_inv (h : Simulates c d a₀ b₀ σ L) {σ' : Gated.State}
    (hst : Gated.Step (frames d) (gate c.bs d) σ σ') : Gated.Inv (frames d) (gate c.bs d) σ' :=
  h.inv.step (gate_bounds c.bs d) hst

variable (hb : Bound c a₀ b₀) (hd : d ≠ []) (hl : d.length < 4096)

include hb hd hl

/-- **The sending node does something by itself.** -/
theorem atA (h : Simulates c d a₀ b₀ σ L) {e : Event} (hst : Link.step c L (.atA e) = some L') :
    ∃ σ', Simulates c d a₀ b₀ σ' L' := by
  simp only [Link.step] at hst
  split at hst
  case isFalse => cases hst
  case isTrue hu =>
  obtain ⟨a, ha, rfl⟩ := Option.map_eq_some_iff.mp hst
  have hsound := h.soundA.step ha
  have hsetup := h.setupA.trans (SameSetup.undisturbed hu ha)
  rcases (h.soundA.moves ha).output c.pcbA with heq | hmv
  · -- the flow sees nothing of it
    have hno : L.a.concerns c.out e = false := by
      by_contra hc
      exact view_ne_of_concerns ha (by simpa using hc) hu.owed heq
    refine ⟨σ, hsound, h.soundB, hsetup, h.setupB, h.inv, ?_, h.receiver, h.asked, ?_, h.ba, ?_⟩
    · show SenderAt _ _ _ _ _ _ _ (a.view (c.pcbA, .output))
      rw [heq]
      exact h.sender
    · show L.ab ++ handed _ _ = _
      rw [handed_of_view_eq (k := c.out) heq, List.append_nil, h.ab]
    · show L.moves + Bool.toNat _ + _ ≤ _
      rw [hno]
      exact h.moves
  · obtain ⟨l, hl', hcase⟩ := SenderAt.undisturbed (p := c.pcbA) hb.classicA hd hl
      ((h.setupA.proj IsotpPcb.sent (fun _ => rfl) c.pcbA).trans hb.sent)
      (h.setupA.proj IsotpPcb.callbackArg (fun _ => rfl) c.pcbA)
      (by rw [h.setupA.canif]; exact hb.registeredA) h.sender h.inv.sent_le h.inv.sender hu hmv
    have hto : (L.a.concerns c.out e).toNat ≤ 1 := Bool.toNat_le _
    rcases hcase with ⟨hph, hnext, hfr⟩ | ⟨hph, hnext, hfr⟩
    · have hgs : Gated.Step (frames d) (gate c.bs d) σ _ := .handOver hph
      refine ⟨_, hsound, h.soundB, hsetup, h.setupB, h.step_inv hgs, hnext, h.receiver, h.asked, ?_,
        h.ba, h.climb hgs (Nat.add_le_add_left hto _)⟩
      show L.ab ++ handed _ _ = onTheWay c a₀ d σ.received (σ.sent + 1)
      rw [handed_view (k := c.out) hl', hfr, h.ab, onTheWay_succ h.inv.received_le,
        h.setupA.proj IsotpPcb.txId fun _ => rfl]
    · have hgs : Gated.Step (frames d) (gate c.bs d) σ _ := .confirm hph
      refine ⟨_, hsound, h.soundB, hsetup, h.setupB, h.step_inv hgs, hnext, h.receiver, h.asked, ?_,
        ?_, h.climb hgs (Nat.add_le_add_left hto _)⟩
      · show L.ab ++ handed _ _ = onTheWay c a₀ d σ.received σ.sent
        rw [handed_view (k := c.out) hl', hfr, List.append_nil, h.ab]
      · exact h.ba

omit hd in
/-- **The receiving node does something by itself.** -/
theorem atB (h : Simulates c d a₀ b₀ σ L) {e : Event} (hst : Link.step c L (.atB e) = some L') :
    ∃ σ', Simulates c d a₀ b₀ σ' L' := by
  simp only [Link.step] at hst
  split at hst
  case isFalse => cases hst
  case isTrue hu =>
  obtain ⟨b, hb', rfl⟩ := Option.map_eq_some_iff.mp hst
  have hsound := h.soundB.step hb'
  have hsetup := h.setupB.trans (SameSetup.undisturbed hu hb')
  have hto : (L.b.concerns c.inp e).toNat ≤ 1 := Bool.toNat_le _
  -- a step after which the receiver is where it was
  have hstay : L.b.concerns c.inp e = false →
      ReceiverAt c.cfgB c.pcbB (b₀.pcb c.pcbB).callbackArg d (answers (b₀.logOf c.inp)) σ.received
        σ.receiver (b.view c.inp) → handed (L.b.logOf c.inp) (b.logOf c.inp) = [] →
      Simulates c d a₀ b₀ σ { L with
        b
        ba := L.ba ++ handed (L.b.logOf c.inp) (b.logOf c.inp)
        moves := L.moves + (L.b.concerns c.inp e).toNat } := by
    intro hno hrcv hfr
    refine ⟨h.soundA, hsound, h.setupA, hsetup, h.inv, h.sender, hrcv, h.asked, h.ab, ?_, ?_⟩
    · show L.ba ++ handed _ _ = _
      rw [hfr, List.append_nil, h.ba]
    · show L.moves + Bool.toNat _ + _ ≤ _
      rw [hno]
      exact h.moves
  rcases (h.soundB.moves hb').input c.pcbB with heq | hmv
  · -- the flow sees nothing of it
    have hno : L.b.concerns c.inp e = false := by
      by_contra hc
      exact view_ne_of_concerns hb' (by simpa using hc) hu.owed heq
    refine ⟨σ, hstay hno ?_ (handed_of_view_eq (k := c.inp) heq)⟩
    rw [show b.view c.inp = L.b.view c.inp from heq]
    exact h.receiver
  · obtain ⟨l, hl', hcase⟩ := ReceiverAt.undisturbed (p := c.pcbB) hb.classicB hl
      (by rw [h.setupB.canif]; exact hb.registeredB) h.receiver h.inv.receiver h.asked hu hmv
    rcases hcase with ⟨hno, hnext, hfr⟩ | ⟨hph, hnext, hfr⟩ | ⟨hph, hnext, hfr⟩ | ⟨hph, hnext, hfr⟩
    · exact ⟨σ, hstay hno hnext ((handed_view (k := c.inp) hl').trans hfr)⟩
    · have hgs : Gated.Step (frames d) (gate c.bs d) σ _ := .answer hph
      refine ⟨_, h.soundA, hsound, h.setupA, hsetup, h.step_inv hgs, h.sender, hnext,
        by rintro ⟨⟩, h.ab, ?_, h.climb hgs (Nat.add_le_add_left hto _)⟩
      show L.ba ++ handed _ _ = creditFrames c b₀ σ.credit
      rw [handed_view (k := c.inp) hl', hfr, List.append_nil, h.ba]
    · have hgs : Gated.Step (frames d) (gate c.bs d) σ _ := .grant hph
      refine ⟨_, h.soundA, hsound, h.setupA, hsetup, h.step_inv hgs, h.sender, hnext,
        by rintro ⟨⟩, h.ab, ?_, h.climb hgs (Nat.add_le_add_left hto _)⟩
      -- no credit is on its way while one is to be granted
      have hno : σ.credit = false := by
        rw [← Bool.not_eq_true, h.inv.credit]
        simp [hph]
      show L.ba ++ handed _ _ = creditFrames c b₀ true
      rw [handed_view (k := c.inp) hl', hfr, h.ba, hno, h.setupB.proj IsotpPcb.txId fun _ => rfl]
      rfl
    · have hgs : Gated.Step (frames d) (gate c.bs d) σ _ := .granted hph
      refine ⟨_, h.soundA, hsound, h.setupA, hsetup, h.step_inv hgs, h.sender, hnext,
        by rintro ⟨⟩, h.ab, ?_, h.climb hgs (Nat.add_le_add_left hto _)⟩
      show L.ba ++ handed _ _ = creditFrames c b₀ σ.credit
      rw [handed_view (k := c.inp) hl', hfr, List.append_nil, h.ba]

omit hb hd hl in
/-- While a frame is on its way and no confirmation is owed, the receiver is ready for it. -/
theorem ready (h : Simulates c d a₀ b₀ σ L) (hlt : σ.received < σ.sent)
    (hconf : c.inp ∉ L.b.confirms) : σ.receiver = .ready := by
  have hrcv := h.inv.receiver
  cases hr : σ.receiver with
  | ready => rfl
  | asked =>
    have := (h.inv.turn (Or.inl hr)).1
    omega
  | due =>
    have := (h.inv.turn (Or.inr hr)).1
    omega
  | out =>
    have hone : L.b.confirms.count c.inp = 1 := by
      have := h.receiver.confirms
      rwa [if_pos hr] at this
    exact absurd (List.count_pos_iff.mp (by rw [hone]; decide)) hconf
  | done =>
    rw [hr] at hrcv
    have : σ.received = frames d := hrcv
    have := h.inv.sent_le
    omega

/-- The frame that arrives is the next of the message, and takes the receiver one frame on: it is
the only one, the first one, or a consecutive one. -/
theorem arrived (h : Simulates c d a₀ b₀ σ L) {b : Node} {frame : CanFrame} {g : Grant}
    (hst : Node.step c.cfgB L.b (.input c.canifB frame g) = some b) (hm : σ.received < frames d)
    (hready : σ.receiver = .ready) (hfind : L.b.findPcb c.canifB frame = some c.pcbB)
    (hw : frame.wire = wire c.cfgA.paddingByte d σ.received) (hg : g.granted)
    (hslot : L.b.timeouts.slotFree) :
    (∃ r, Gated.Arrives (frames d) (gate c.bs d) (σ.received + 1) r ∧
      (r = .asked → σ.received + 1 = 1) ∧
        ReceiverAt c.cfgB c.pcbB (b₀.pcb c.pcbB).callbackArg d (answers (b₀.logOf c.inp))
          (σ.received + 1) r (b.view c.inp)) ∧
      ∃ l, (b.view c.inp).log = (L.b.view c.inp).log ++ l ∧ l.filterMap frameOf = [] := by
  have hrcv := h.receiver
  rw [hready] at hrcv
  have hrecv := (h.setupB.proj IsotpPcb.receive (fun _ => rfl) c.pcbB).trans hb.receive
  have harg := h.setupB.proj IsotpPcb.callbackArg (fun _ => rfl) c.pcbB
  have hstate : (L.b.flow c.inp).state = if σ.received = 0 then .idle else .waitCf := hrcv.state
  have hstep := fun haw => ((h.soundB.moves hst).input c.pcbB).resolve_left
    (view_ne_of_awaits hst hfind haw)
  by_cases hz : σ.received = 0
  · rw [hz] at hrcv hw hstate ⊢
    by_cases hshort : d.length ≤ 7
    · obtain ⟨ht, hdl, -⟩ := wire_single c.cfgB hb.classicB hshort hw
      obtain ⟨h₁, h₂⟩ := ReceiverAt.receive_single hb.classicB hd hshort hrecv harg hrcv hw hg
        (hstep (Or.inl ⟨ht, hstate, by rw [hdl]; simpa using hd, hg⟩))
      have hone : frames d = 1 := if_pos hshort
      exact ⟨⟨.done, by rw [Gated.Arrives, hone, if_pos rfl], by rintro ⟨⟩, h₁⟩, h₂⟩
    · rw [not_le] at hshort
      obtain ⟨-, ht, hdl, -⟩ := wire_first c.cfgB hb.classicB hshort hl hw
      obtain ⟨h₁, h₂⟩ := ReceiverAt.receive_first hb.classicB hshort hl hrcv hw hg hslot
        (hstep (Or.inr (Or.inl ⟨ht, hstate, by rw [hdl]; omega, hg⟩)))
      have hgate : gate c.bs d 1 = true := gate_one hshort
      -- flow control is due at once, or when the application has been asked
      have harr : ∀ r, r = .asked ∨ r = .due → Gated.Arrives (frames d) (gate c.bs d) 1 r := by
        intro r hr
        have := (gate_bounds _ _ _ hgate).2
        rw [Gated.Arrives, if_neg (by omega), if_pos hgate]
        exact hr
      rcases h₁ with h₁ | h₁
      · exact ⟨⟨.asked, harr _ (Or.inl rfl), fun _ => rfl, h₁⟩, h₂⟩
      · exact ⟨⟨.due, harr _ (Or.inr rfl), fun _ => rfl, h₁⟩, h₂⟩
  · rw [if_neg hz] at hstate
    have hlong : 7 < d.length := by
      by_contra hshort
      exact hz (eq_zero_of_short (not_lt.mp hshort) hm)
    obtain ⟨-, ht, -, -⟩ := wire_consecutive hlong (by omega) hw
    obtain ⟨⟨r, hna, h₁, h₂⟩, h₃⟩ := ReceiverAt.receive_consecutive h.soundB hlong hl (by omega) hm
      hrecv harg hrcv hw (hstep (Or.inr (Or.inr ⟨ht, hstate⟩)))
    exact ⟨⟨r, h₁, fun hr => absurd hr hna, h₂⟩, h₃⟩

/-- **A frame arrives at the receiving node.** -/
theorem toB (h : Simulates c d a₀ b₀ σ L) {frame : CanFrame} {g : Grant}
    (hst : Link.step c L (.toB frame g) = some L') : ∃ σ', Simulates c d a₀ b₀ σ' L' := by
  simp only [Link.step] at hst
  split at hst
  case h_1 => cases hst
  case h_2 id w ab hab =>
  split at hst
  case isFalse => cases hst
  case isTrue hcond =>
  obtain ⟨hid, hw, hconf, hg, hslot⟩ := hcond
  obtain ⟨b, hb', rfl⟩ := Option.map_eq_some_iff.mp hst
  have hsound := h.soundB.step hb'
  have hsetup := h.setupB.trans (SameSetup.step hb' (by rintro _ ⟨⟩))
  -- the frame is the next of the message
  have hlt : σ.received < σ.sent := by
    by_contra hge
    have heq : σ.received = σ.sent := le_antisymm h.inv.received_le (not_lt.mp hge)
    rw [h.ab, heq, onTheWay_self] at hab
    cases hab
  have hpair := h.ab
  rw [hab, onTheWay_cons hlt] at hpair
  obtain ⟨hpair, hrest⟩ := List.cons_eq_cons.mp hpair
  obtain ⟨rfl, rfl⟩ := Prod.mk.inj hpair
  have hfind : L.b.findPcb c.canifB frame = some c.pcbB := by
    rw [h.setupB.findPcb]
    exact hb.dispatchB frame (hid.trans hb.mirrored.1)
  -- and the receiver is ready for it
  have hready := h.ready hlt hconf
  obtain ⟨⟨r, harr, hask, hnext⟩, l, hlog, hfr⟩ :=
    arrived hb hd hl h hb' (lt_of_lt_of_le hlt h.inv.sent_le) hready hfind hw hg hslot
  have hgs : Gated.Step (frames d) (gate c.bs d) σ _ := .receive hready hlt harr
  refine ⟨_, h.soundA, hsound, h.setupA, hsetup, h.step_inv hgs, h.sender, hnext, hask, hrest, ?_,
    h.climb hgs le_rfl⟩
  show L.ba ++ handed _ _ = creditFrames c b₀ σ.credit
  rw [handed_view (k := c.inp) hlog, hfr, List.append_nil, h.ba]

omit hd hl in
/-- **A frame arrives at the sending node.** -/
theorem toA (h : Simulates c d a₀ b₀ σ L) {frame : CanFrame} {g : Grant}
    (hst : Link.step c L (.toA frame g) = some L') : ∃ σ', Simulates c d a₀ b₀ σ' L' := by
  simp only [Link.step] at hst
  split at hst
  case h_1 => cases hst
  case h_2 id w ba hba =>
  split at hst
  case isFalse => cases hst
  case isTrue hcond =>
  obtain ⟨hid, hw, hconf⟩ := hcond
  obtain ⟨a, ha, rfl⟩ := Option.map_eq_some_iff.mp hst
  have hsound := h.soundA.step ha
  have hsetup := h.setupA.trans (SameSetup.step ha (by rintro _ ⟨⟩))
  -- the frame is the credit
  have hcred : σ.credit = true := by
    by_contra hno
    rw [h.ba, (Bool.not_eq_true _).mp hno] at hba
    cases hba
  have hpair := h.ba
  rw [hba, hcred] at hpair
  obtain ⟨hpair, hrest⟩ := List.cons_eq_cons.mp hpair
  obtain ⟨rfl, rfl⟩ := Prod.mk.inj hpair
  -- and the sender waits for it
  have hwait : σ.sender = .wait := by
    rcases (h.inv.credit.mp hcred).2.1 with hs | hs
    · have := h.sender.confirms
      rw [if_pos hs] at this
      exact absurd
        (List.count_pos_iff.mp (by rw [show L.a.confirms.count c.out = 1 from this]; decide))
        hconf
    · exact hs
  have hfind : L.a.findPcb c.canifA frame = some c.pcbA := by
    rw [h.setupA.findPcb]
    exact hb.dispatchA frame (hid.trans hb.mirrored.2.symm)
  have hstate : (L.a.flow c.out).state = .waitFc := by
    have hst := h.sender.state
    rw [hwait] at hst
    exact hst
  obtain ⟨ht, -, -⟩ := wire_fc (u8_lt _) hw
  obtain ⟨-, hnext, l, hlog, hfr⟩ := SenderAt.receive_fc h.soundA (u8_lt _) h.sender h.inv.sender hw
    (((h.soundA.moves ha).output c.pcbA).resolve_left (view_ne_of_flowControl ha hfind ht hstate))
  have hgs : Gated.Step (frames d) (gate c.bs d) σ _ := .proceed hwait hcred
  refine ⟨_, hsound, h.soundB, hsetup, h.setupB, h.step_inv hgs, hnext, h.receiver, h.asked, ?_,
    hrest, h.climb hgs le_rfl⟩
  show L.ab ++ handed _ _ = onTheWay c a₀ d σ.received σ.sent
  rw [handed_view (k := c.out) hlog, hfr, List.append_nil, h.ab]

/-- **Every step of the link** is a step of the two parties, or leaves them where they are. -/
theorem step (h : Simulates c d a₀ b₀ σ L) (hst : Link.step c L e = some L') :
    ∃ σ', Simulates c d a₀ b₀ σ' L' := by
  cases e with
  | atA e => exact h.atA hb hd hl hst
  | atB e => exact h.atB hb hl hst
  | toB frame g => exact h.toB hb hd hl hst
  | toA frame g => exact h.toA hb hst

/-- **`isotp_send`** puts the two parties at the start. -/
theorem start {g : Grant} (hf : g.Fresh a₀.heap.blocks) (hg : g.granted)
    (hslot : a₀.timeouts.slotFree) :
    Simulates c d a₀ b₀ Gated.State.initial (Link.start c a₀ b₀ d g) := by
  obtain ⟨esA, hrA⟩ := hb.runA
  obtain ⟨esB, hrB⟩ := hb.runB
  have hsA := sound_run hrA
  have hne : d.length ≠ 0 := by simpa using hd
  have hst : Node.step c.cfgA a₀ (.call (.isotpSend (some c.pcbA) (some d) g)) =
      some (Link.start c a₀ b₀ d g).a := by
    refine step_eq_some.mpr ⟨⟨?_, ?_, hf⟩, rfl⟩
    · rintro p ⟨⟩
      exact hb.live
    · rintro d' ⟨⟩
      omega
  -- the send changes the output flow, so it is one of its transitions
  have hview := ((hsA.moves hst).output c.pcbA).resolve_left
    (view_ne_of_log rfl (isotpSend_log hb.quietA.state hne hg))
  refine ⟨hsA.step hst, sound_run hrB, (Prims.refl.isotpSend _ _ g).sameSetup, SameSetup.refl _,
    Gated.Inv.initial (frames_pos d) (by simp [gate]), ?_, ReceiverAt.start hb.quietB, by rintro ⟨⟩,
    (onTheWay_self c a₀ d 0).symm, rfl, Nat.le_of_eq (Nat.zero_add _)⟩
  show SenderAt _ _ _ _ _ 0 .due ((Link.start c a₀ b₀ d g).a.view (c.pcbA, .output))
  generalize (Link.start c a₀ b₀ d g).a.view (c.pcbA, .output) = v at hview ⊢
  cases hview with
  | send hs hd' hl' hg' hb' hbl hbb =>
    rw [hslot]
    exact SenderAt.start hb.classicA hb.quietA hbb

omit hb hd hl

/-- When both parties are done nothing is due, owed or on its way. -/
theorem not_busy (h : Simulates c d a₀ b₀ σ L) (ho : σ.over) : ¬ L.Busy c := by
  have htx := h.sender.tx
  have hco := h.sender.confirms
  have htx' := h.receiver.tx
  have hco' := h.receiver.confirms
  have hsus := h.receiver.suspended
  have hsnd := h.inv.sender
  have hrcv := h.inv.receiver
  rw [ho.1] at htx hco hsnd
  rw [ho.2] at htx' hco' hsus hrcv
  have heq : σ.received = σ.sent := Eq.trans hrcv (Eq.symm hsnd)
  have hno : σ.credit = false := by
    rw [← Bool.not_eq_true, h.inv.credit]
    simp [ho.1]
  -- one case for each way of being busy
  rintro (hb | hb | hb | hb | hb | hb | hb)
  · exact hb htx
  · exact absurd hco (List.count_pos_iff.mpr hb).ne'
  · exact hb htx'
  · exact absurd hco' (List.count_pos_iff.mpr hb).ne'
  · obtain ⟨f, hf, hfk⟩ := (Option.any_eq_true _ _).mp hb
    have hsus : (L.b.view c.inp).suspended = none := hsus
    rw [view_suspended hf (by simpa using hfk)] at hsus
    cases hsus
  · rw [h.ab, heq, onTheWay_self] at hb
    exact hb rfl
  · rw [h.ba, hno] at hb
    exact hb rfl

/-- **The run is over exactly when the message is delivered.** -/
theorem delivered_iff (h : Simulates c d a₀ b₀ σ L) : L.Delivered c a₀ b₀ d ↔ ¬ L.Busy c := by
  have htx := h.sender.tx
  have hco := h.sender.confirms
  have htx' := h.receiver.tx
  have hco' := h.receiver.confirms
  have hsus := h.receiver.suspended
  obtain ⟨l, hans, hl⟩ := h.receiver.answers
  constructor
  · intro hdel
    -- the answers tell that both parties are done
    have hdone : σ.over := by
      constructor
      · by_contra hne
        have := h.sender.answers
        rw [if_neg hne, List.append_nil, show answers (L.a.view c.out).log =
          _ from hdel.sent] at this
        simp at this
      · by_contra hne
        obtain ⟨buffer, hrec⟩ := hdel.received
        rw [if_neg hne] at hl
        rw [hl, List.append_nil, show answers (L.b.view c.inp).log = _ from hrec] at hans
        simp at hans
    exact h.not_busy hdone
  · intro hb
    simp only [Busy, not_or, not_not] at hb
    obtain ⟨h₁, h₂, h₃, h₄, h₅, h₆, h₇⟩ := hb
    have hc₁ : (L.a.view c.out).confirms = 0 := List.count_eq_zero.mpr h₂
    have hc₂ : (L.b.view c.inp).confirms = 0 := List.count_eq_zero.mpr h₄
    rw [show (L.a.view c.out).tx = 0 from h₁] at htx
    rw [show (L.b.view c.inp).tx = 0 from h₃] at htx'
    rw [hc₁] at hco
    rw [hc₂] at hco'
    have hover : σ.over := by
      rcases h.inv.over_or_busy (gate_bounds c.bs d) with ho | hs | hs | hr | hr | hr | hlt | hcr
      · exact ho
      · simp [hs] at htx
      · simp [hs] at hco
      · rw [if_pos hr] at hsus
        obtain ⟨frame, b, hx, -⟩ := hsus
        obtain ⟨hf, -⟩ := Option.filter_eq_some_iff.mp hx
        rw [hf] at h₅
        exact absurd (decide_eq_true rfl) h₅
      · simp [hr] at htx'
      · simp [hr] at hco'
      · rw [h.ab, onTheWay_cons hlt] at h₆
        cases h₆
      · rw [h.ba, hcr] at h₇
        cases h₇
    have hstA := h.sender.state
    have hstB := h.receiver.state
    have hsent := h.sender.answers
    rw [hover.1] at hstA hsent
    rw [hover.2] at hstB
    rw [if_pos hover.2] at hl
    obtain ⟨b, rfl⟩ := hl
    exact ⟨hsent, ⟨b, hans⟩, hstA, hstB, h₆, h₇⟩

/-- **Neither party waits for the other.** -/
theorem agree (h : Simulates c d a₀ b₀ σ L) : ¬ ((L.a.flow c.out).state = .waitFc ∧
    (L.b.flow c.inp).state = .waitCf ∧ L.ab = [] ∧ L.ba = []) := by
  rintro ⟨ha, hb, hab, hba⟩
  have hwait : σ.sender = .wait := h.sender.ph_of_waitFc ha
  have hready : σ.receiver = .ready := by
    have hst := h.receiver.state
    rw [show (L.b.view c.inp).flow.state = .waitCf from hb] at hst
    cases hr : σ.receiver with
    | ready => rfl
    | asked | due | out | done =>
      rw [hr] at hst
      cases hst
  have heq : σ.received = σ.sent := by
    by_contra hne
    rw [h.ab, onTheWay_cons (lt_of_le_of_ne h.inv.received_le hne)] at hab
    cases hab
  have hgate := h.inv.sender
  rw [hwait] at hgate
  have hcred : σ.credit = true := h.inv.credit.mpr ⟨hgate, Or.inr hwait, heq, Or.inr hready⟩
  rw [h.ba, hcred] at hba
  cases hba

end Simulates

/-! ### Something can happen -/

/-- What the sending node does by itself, as a step of the link -/
theorem step_atA {e : Event} {s : Node} (hu : L.a.Undisturbed c.out e)
    (hst : Node.step c.cfgA L.a e = some s) :
    step c L (.atA e) = some { L with
      a := s
      ab := L.ab ++ handed (L.a.logOf c.out) (s.logOf c.out)
      moves := L.moves + (L.a.concerns c.out e).toNat } := by
  show (if _ then _ else none) = _
  rw [if_pos hu, hst]
  rfl

theorem step_atB {e : Event} {s : Node} (hu : L.b.Undisturbed c.inp e)
    (hst : Node.step c.cfgB L.b e = some s) :
    step c L (.atB e) = some { L with
      b := s
      ba := L.ba ++ handed (L.b.logOf c.inp) (s.logOf c.inp)
      moves := L.moves + (L.b.concerns c.inp e).toNat } := by
  show (if _ then _ else none) = _
  rw [if_pos hu, hst]
  rfl

theorem step_toB {frame : CanFrame} {g : Grant} {w : List UInt8} {ab : List (Nat × List UInt8)}
    (hw : frame.wire = w) (hab : L.ab = (frame.canId, w) :: ab) (hc : c.inp ∉ L.b.confirms)
    (hg : g.granted) (hslot : L.b.timeouts.slotFree) (he : L.b.Enabled (.input c.canifB frame g)) :
    ∃ L', step c L (.toB frame g) = some L' ∧ L'.moves = L.moves + 1 := by
  simp only [step, hab]
  rw [if_pos ⟨True.intro, hw, hc, hg, hslot⟩, Node.step_eq_some.mpr ⟨he, rfl⟩]
  exact ⟨_, rfl, rfl⟩

theorem step_toA {frame : CanFrame} {g : Grant} {w : List UInt8} {ba : List (Nat × List UInt8)}
    (hw : frame.wire = w) (hba : L.ba = (frame.canId, w) :: ba) (hc : c.out ∉ L.a.confirms)
    (he : L.a.Enabled (.input c.canifA frame g)) :
    ∃ L', step c L (.toA frame g) = some L' ∧ L'.moves = L.moves + 1 := by
  simp only [step, hba]
  rw [if_pos ⟨True.intro, hw, hc⟩, Node.step_eq_some.mpr ⟨he, rfl⟩]
  exact ⟨_, rfl, rfl⟩

/-- What the sending node does by itself is a run of the link. -/
theorem run_atA {es : List Event} {t : Node} (hr : Runs.run (Node.step c.cfgA) L.a es = some t)
    (hu : Runs.Along (Node.step c.cfgA) (Node.Undisturbed · c.out) L.a es) :
    ∃ L', Runs.run (step c) L (es.map .atA) = some L' ∧ L'.a = t ∧ L.moves ≤ L'.moves := by
  induction es generalizing L with
  | nil => exact ⟨L, rfl, Option.some.inj hr, le_rfl⟩
  | cons e es ih =>
    obtain ⟨s, hs, hr⟩ := Runs.run_cons.mp hr
    obtain ⟨L', hrun, ha, hle⟩ := ih (L := { L with
      a := s
      ab := L.ab ++ handed (L.a.logOf c.out) (s.logOf c.out)
      moves := L.moves + (L.a.concerns c.out e).toNat }) hr (hu.2 s hs)
    exact ⟨L', Runs.run_cons.mpr ⟨_, step_atA hu.1 hs, hrun⟩, ha, (Nat.le_add_right _ _).trans hle⟩

theorem run_atB {es : List Event} {t : Node} (hr : Runs.run (Node.step c.cfgB) L.b es = some t)
    (hu : Runs.Along (Node.step c.cfgB) (Node.Undisturbed · c.inp) L.b es) :
    ∃ L', Runs.run (step c) L (es.map .atB) = some L' ∧ L'.b = t ∧ L.moves ≤ L'.moves := by
  induction es generalizing L with
  | nil => exact ⟨L, rfl, Option.some.inj hr, le_rfl⟩
  | cons e es ih =>
    obtain ⟨s, hs, hr⟩ := Runs.run_cons.mp hr
    obtain ⟨L', hrun, hb, hle⟩ := ih (L := { L with
      b := s
      ba := L.ba ++ handed (L.b.logOf c.inp) (s.logOf c.inp)
      moves := L.moves + (L.b.concerns c.inp e).toNat }) hr (hu.2 s hs)
    exact ⟨L', Runs.run_cons.mpr ⟨_, step_atB hu.1 hs, hrun⟩, hb, (Nat.le_add_right _ _).trans hle⟩

namespace CanMove

theorem of_run {es : List LinkEvent} (hr : Runs.run (Link.step c) L es = some L')
    (hle : L.moves ≤ L'.moves) (h : L'.CanMove c) : L.CanMove c := by
  obtain ⟨fs, L'', hr', hlt⟩ := h
  exact ⟨es ++ fs, L'', Runs.run_append.mpr ⟨L', hr, hr'⟩, hle.trans_lt hlt⟩

theorem of_step (hst : Link.step c L e = some L') (hlt : L.moves < L'.moves) : L.CanMove c :=
  ⟨[e], L', Runs.run_cons.mpr ⟨L', hst, rfl⟩, hlt⟩

/-- An event of the connection at the sending node -/
theorem atA {e : Event} (he : L.a.Enabled e) (hu : L.a.Undisturbed c.out e)
    (hc : L.a.concerns c.out e = true) : L.CanMove c := by
  refine of_step (step_atA hu (Node.step_eq_some.mpr ⟨he, rfl⟩)) ?_
  show L.moves < L.moves + Bool.toNat _
  rw [hc]
  exact Nat.lt_succ_self _

theorem atB {e : Event} (he : L.b.Enabled e) (hu : L.b.Undisturbed c.inp e)
    (hc : L.b.concerns c.inp e = true) : L.CanMove c := by
  refine of_step (step_atB hu (Node.step_eq_some.mpr ⟨he, rfl⟩)) ?_
  show L.moves < L.moves + Bool.toNat _
  rw [hc]
  exact Nat.lt_succ_self _

/-- **A frame that is due at the sending node** comes to its turn. -/
theorem dueA (hn : L.a.suspended = none) (htx : (L.a.view c.out).tx = 1)
    (herr : (L.a.view c.out).err = 0) : L.CanMove c := by
  obtain ⟨es, t, hr, hu, hsus, hdue⟩ := Node.exists_due c.cfgA c.out hn
    (fun h0 => absurd (htx.symm.trans h0) (by decide)) herr
  obtain ⟨L', hrun, rfl, hle⟩ := run_atA hr hu
  have hex : (L'.a.timeouts.expire L'.a.now).isSome := by
    rw [← Option.isSome_map]
    exact Option.isSome_of_eq_some hdue
  refine of_run hrun hle (atA (e := .timer ⟨0, 0, 0, fun _ => 0⟩ .ok)
    ⟨Option.isNone_iff_eq_none.mpr hsus, hex⟩ ⟨?_, fun _ => rfl⟩ (decide_eq_true hdue))
  rw [hdue]
  exact fun heq => outputHandler_ne_errorHandler _ _ (Prod.mk.inj (Option.some.inj heq)).1

theorem dueB (hn : L.b.suspended = none) (htx : (L.b.view c.inp).tx = 1)
    (herr : (L.b.view c.inp).err = 0) : L.CanMove c := by
  obtain ⟨es, t, hr, hu, hsus, hdue⟩ := Node.exists_due c.cfgB c.inp hn
    (fun h0 => absurd (htx.symm.trans h0) (by decide)) herr
  obtain ⟨L', hrun, rfl, hle⟩ := run_atB hr hu
  have hex : (L'.b.timeouts.expire L'.b.now).isSome := by
    rw [← Option.isSome_map]
    exact Option.isSome_of_eq_some hdue
  refine of_run hrun hle (atB (e := .timer ⟨0, 0, 0, fun _ => 0⟩ .ok)
    ⟨Option.isNone_iff_eq_none.mpr hsus, hex⟩ ⟨?_, fun _ => rfl⟩ (decide_eq_true hdue))
  rw [hdue]
  exact fun heq => outputHandler_ne_errorHandler _ _ (Prod.mk.inj (Option.some.inj heq)).1

end CanMove

/-- There are addresses behind all blocks, so two blocks are free. -/
theorem exists_grant (blocks : List Nat) : ∃ g : Grant, g.Fresh blocks ∧ g.granted := by
  obtain ⟨m, hm⟩ : ∃ m, ∀ a ∈ blocks, a < m := by
    induction blocks with
    | nil => exact ⟨0, nofun⟩
    | cons a blocks ih =>
      obtain ⟨m, hm⟩ := ih
      refine ⟨max (a + 1) m, List.forall_mem_cons.mpr ⟨?_, fun b hb => ?_⟩⟩
      · exact Nat.lt_of_lt_of_le (Nat.lt_succ_self a) (Nat.le_max_left _ _)
      · exact Nat.lt_of_lt_of_le (hm b hb) (Nat.le_max_right _ _)
  refine ⟨⟨some m, some (m + 1), fun _ => 0⟩, ⟨?_, ?_⟩, rfl⟩
  · rintro _ ⟨⟩
    refine ⟨fun hmem => (hm m hmem).false, ?_⟩
    rintro _ ⟨⟩
    exact (Nat.lt_succ_self m).ne
  · rintro _ ⟨⟩ hmem
    exact absurd (hm _ hmem) (Nat.not_lt.mpr (Nat.le_succ m))

/-- A frame in memory that is zero behind it -/
def frameIn (canId : Nat) (w : List UInt8) : CanFrame := ⟨canId, w.length, 0, fun i => w.getD i 0⟩

theorem frameIn_wire (canId : Nat) (w : List UInt8) : (frameIn canId w).wire = w := by
  apply List.ext_getElem?
  intro i
  show (Mem.slice (fun i => w.getD i 0) 0 w.length)[i]? = _
  rw [Mem.getElem?_slice, Nat.zero_add]
  by_cases hi : i < w.length
  · rw [if_pos hi, List.getElem?_eq_getElem hi, List.getD_eq_getElem?_getD,
      List.getElem?_eq_getElem hi]
    rfl
  · rw [if_neg hi, List.getElem?_eq_none (not_lt.mp hi)]

/-- **Until the message is delivered something can happen** to the connection, where the link is
clear. -/
theorem Simulates.canMove (h : Simulates c d a₀ b₀ σ L) (hc : L.Clear c) (hbusy : L.Busy c) :
    L.CanMove c := by
  have htx := h.sender.tx
  have herr := h.sender.err
  have hco := h.sender.confirms
  have htx' := h.receiver.tx
  have herr' := h.receiver.err
  have hco' := h.receiver.confirms
  have hsus := h.receiver.suspended
  -- nothing is waited for at the receiving node unless its application has been asked
  have hnone : σ.receiver ≠ .asked → L.b.suspended = none := by
    intro hr
    rw [if_neg hr] at hsus
    refine Option.eq_none_iff_forall_not_mem.mpr fun f hf => ?_
    rw [Node.view_suspended hf (hc.returnedB f hf)] at hsus
    cases hsus
  -- a frame on the bus is confirmed by its driver
  have hconfirmA : σ.sender = .out → L.CanMove c := by
    intro hs
    rw [if_pos hs] at hco
    have hmem : c.out ∈ L.a.confirms :=
      List.count_pos_iff.mp (by rw [show L.a.confirms.count c.out = 1 from hco]; decide)
    exact .atA (e := .sent c.out .ok) (Option.isNone_iff_eq_none.mpr hc.returnedA)
      (fun _ => ⟨hmem, rfl, hc.slotA⟩) (decide_eq_true rfl)
  have hconfirmB : σ.receiver = .out → L.CanMove c := by
    intro hr
    rw [if_pos hr] at hco'
    have hmem : c.inp ∈ L.b.confirms :=
      List.count_pos_iff.mp (by rw [show L.b.confirms.count c.inp = 1 from hco']; decide)
    exact .atB (e := .sent c.inp .ok)
      (Option.isNone_iff_eq_none.mpr (hnone (by rw [hr]; decide)))
      (fun _ => ⟨hmem, rfl, hc.slotB⟩) (decide_eq_true rfl)
  -- where the transfer stands: over, or one of the two ends has something to do, or a frame is on
  -- its way
  rcases h.inv.over_or_busy (gate_bounds c.bs d) with ho | hs | hs | hr | hr | hr | hlt | hcr
  · exact absurd hbusy (h.not_busy ho)
  · -- the next frame of the message is due
    rw [if_pos hs] at htx
    rw [hs] at herr
    exact .dueA hc.returnedA htx herr
  · exact hconfirmA hs
  · -- the application's callback returns
    rw [if_pos hr] at hsus
    obtain ⟨frame, b, hx, -⟩ := hsus
    obtain ⟨hf, hk⟩ := Option.filter_eq_some_iff.mp hx
    have hsome : L.b.suspended.isSome := by rw [hf]; rfl
    refine .atB (e := .resume) hsome (fun _ => hc.slotB) ?_
    show L.b.suspended.any _ = true
    rw [hf]
    exact hk
  · -- the flow control is due
    rw [if_pos hr] at htx'
    rw [hr] at herr'
    exact .dueB (hnone (by rw [hr]; decide)) htx' (by simpa using herr')
  · exact hconfirmB hr
  · -- a frame arrives, once the flow control before it is confirmed
    by_cases hout : σ.receiver = .out
    · exact hconfirmB hout
    rw [if_neg hout] at hco'
    have hna : σ.receiver ≠ .asked := fun hr => by
      have := (h.inv.turn (Or.inl hr)).1
      omega
    obtain ⟨g, hfresh, hgranted⟩ := exists_grant L.b.heap.blocks
    have hab := h.ab
    rw [onTheWay_cons hlt] at hab
    obtain ⟨L', hst, hmoves⟩ := step_toB (frameIn_wire _ _) hab
      (List.count_eq_zero.mp hco') hgranted hc.slotB
      ⟨Option.isNone_iff_eq_none.mpr (hnone hna), hfresh⟩
    exact .of_step hst (hmoves ▸ Nat.lt_succ_self _)
  · -- the flow control arrives, once the frame before it is confirmed
    by_cases hout : σ.sender = .out
    · exact hconfirmA hout
    rw [if_neg hout] at hco
    have hba := h.ba
    rw [hcr] at hba
    obtain ⟨L', hst, hmoves⟩ := step_toA (g := ⟨none, none, fun _ => 0⟩) (frameIn_wire _ _) hba
      (List.count_eq_zero.mp hco)
      ⟨Option.isNone_iff_eq_none.mpr hc.returnedA, ⟨nofun, nofun⟩⟩
    exact .of_step hst (hmoves ▸ Nat.lt_succ_self _)

/-- **A message that is accepted arrives.** Two nodes are bound to each other, and one accepts a
message of one to 4095 bytes. Then every run of the link has at most as many events of the
connection as the message has bytes, and seven; it is over exactly when the message was delivered;
until then another event of the connection can happen, where the link is clear; and at no time does
each end wait for the other. -/
theorem end_to_end {a b : Node} {g : Grant} {es : List LinkEvent} (hb : Bound c a b) (hd : d ≠ [])
    (hl : d.length ≤ 4095) (hf : g.Fresh a.heap.blocks) (hg : g.granted)
    (hslot : a.timeouts.slotFree) (hr : Runs.run (step c) (start c a b d g) es = some L) :
    L.moves ≤ d.length + 7 ∧ (L.Delivered c a b d ↔ ¬ L.Busy c) ∧
      (L.Clear c → L.Busy c → L.CanMove c) ∧
      ¬ ((L.a.flow c.out).state = .waitFc ∧ (L.b.flow c.inp).state = .waitCf ∧
        L.ab = [] ∧ L.ba = []) := by
  have hlt : d.length < 4096 := by omega
  obtain ⟨σ, h⟩ := Runs.run_inv (I := fun L => ∃ σ, Simulates c d a b σ L) (C := fun _ _ => True)
    (fun L e L' ⟨σ, h⟩ _ hst => h.step hb hd hlt hst)
    ⟨_, Simulates.start hb hd hlt hf hg hslot⟩ (Runs.Along.trivial _ _) hr
  refine ⟨?_, h.delivered_iff, h.canMove, h.agree⟩
  have hrank := h.inv.rank_le
  have hmoves := h.moves
  have hframes : 7 * frames d ≤ d.length + 7 := by
    unfold frames
    split <;> omega
  omega

/-! ### A link that delivers eight bytes -/

/-- A node with one connection and its callbacks -/
def endNode (txId rxId : Nat) : List Event :=
  [.call (.canifAdd (some 0) (some [0x63]) (some fun c => (.ok, { c with output := .driver 0 }))),
    .call .isotpNew, .call (.isotpBind (some 0) (some (1, txId, rxId))),
    .call (.isotpSetCallbacks 0 true false true true)]

/-- The node that sends -/
def nodeA : Node :=
  (Runs.run (Node.step .classic) (Node.lwcanInit .classic) (endNode 0x7E0 0x7E8)).get (by decide)

/-- The node that receives -/
def nodeB : Node :=
  (Runs.run (Node.step .classic) (Node.lwcanInit .classic) (endNode 0x7E8 0x7E0)).get (by decide)

/-- The ends of the connection of these nodes -/
def ends : Ends := ⟨.classic, .classic, 0, 0, 0, 0⟩

/-- A pcb that is alone on its node gets the frames with its identifier. -/
theorem findPcb_alone {s : Node} {frame : CanFrame} (hlist : s.isotpPcbList = [0])
    (hif : (s.pcb 0).ifIndex = s.canifs.canifGetIndex (some 0))
    (hid : frame.canId = (s.pcb 0).rxId) : s.findPcb 0 frame = some 0 := by
  simp [Node.findPcb, hlist, hif, hid]

theorem bound_ends : Bound ends nodeA nodeB where
  runA := ⟨endNode 0x7E0 0x7E8, (Option.some_get _).symm⟩
  runB := ⟨endNode 0x7E8 0x7E0, (Option.some_get _).symm⟩
  classicA := rfl
  classicB := rfl
  live := by decide
  mirrored := by decide
  dispatchA := fun _ => findPcb_alone (by decide) (by decide)
  dispatchB := fun _ => findPcb_alone (by decide) (by decide)
  registeredA := by decide
  registeredB := by decide
  sent := by decide
  receive := by decide
  quietA := ⟨by decide, by decide, by decide, by decide, by rfl⟩
  quietB := ⟨by decide, by decide, by decide, by decide, by rfl⟩

/-- A first frame, flow control, and a consecutive frame -/
def eightBytes : List LinkEvent :=
  [.atA (.timer (frameIn 0 []) .ok), .atA (.sent (0, .output) .ok),
    .toB (frameIn 0x7E0 [0x10, 8, 1, 2, 3, 4, 5, 6]) ⟨some 10, some 11, fun _ => 0⟩,
    .atB (.timer (frameIn 0 []) .ok), .atB (.sent (0, .input) .ok),
    .toA (frameIn 0x7E8 [0x30, 0, 0, 0xAA, 0xAA, 0xAA, 0xAA, 0xAA]) ⟨none, none, fun _ => 0⟩,
    .atA (.timer (frameIn 0 []) .ok), .atA (.sent (0, .output) .ok),
    .toB (frameIn 0x7E0 [0x21, 7, 8, 0xAA, 0xAA, 0xAA, 0xAA, 0xAA]) ⟨some 12, some 13, fun _ => 0⟩]

/-- Eight bytes arrive; and when the first of their frames has, the flow control can be handed
over. -/
theorem end_to_end_eightBytes :
    (∃ L, Runs.run (step ends)
      (start ends nodeA nodeB [1, 2, 3, 4, 5, 6, 7, 8] ⟨some 1, some 2, fun _ => 0⟩)
      eightBytes = some L ∧ L.Delivered ends nodeA nodeB [1, 2, 3, 4, 5, 6, 7, 8]) ∧
    ∃ L, Runs.run (step ends)
      (start ends nodeA nodeB [1, 2, 3, 4, 5, 6, 7, 8] ⟨some 1, some 2, fun _ => 0⟩)
      (eightBytes.take 3) = some L ∧ L.CanMove ends := by
  constructor
  · obtain ⟨L, hr, hb⟩ := Runs.exists_run (step ends)
      (start ends nodeA nodeB [1, 2, 3, 4, 5, 6, 7, 8] ⟨some 1, some 2, fun _ => 0⟩) eightBytes
      (fun L => ¬ L.Busy ends) (by decide)
    exact ⟨L, hr, (end_to_end bound_ends (by decide) (by decide) (by decide) (by decide) (by decide)
      hr).2.1.mpr hb⟩
  · obtain ⟨L, hr, hb, hA, hB, hslotA, hslotB⟩ := Runs.exists_run (step ends)
      (start ends nodeA nodeB [1, 2, 3, 4, 5, 6, 7, 8] ⟨some 1, some 2, fun _ => 0⟩)
      (eightBytes.take 3)
      (fun L => L.Busy ends ∧ L.a.suspended = none ∧ (∀ f ∈ L.b.suspended, f.flow = ends.inp) ∧
        L.a.timeouts.slotFree ∧ L.b.timeouts.slotFree) (by decide)
    exact ⟨L, hr, (end_to_end bound_ends (by decide) (by decide) (by decide) (by decide) (by decide)
      hr).2.2.1 ⟨hA, hB, hslotA, hslotB⟩ hb⟩

end Link
end Lwcan
