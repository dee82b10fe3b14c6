import Lwcan.RawDelivery
import Lwcan.System

/-!
# The whole library

A frame that comes in is offered to the raw pcbs, and what they leave goes to ISO-TP. Raw pcbs send
frames, too: `canraw_send` hands one to the driver and returns, or, where no `sent` function is
given, waits in a loop until `raw_sent` has set `pcb->sent`.

Drivers confirm frames while calls of `canraw_send` wait. An event takes one of them to its next
access of `pcb->sent` or `pcb->sent_error`, so that the events of a run can be in any order that
these allow.

* `canrawSend`, `proceed`, `rawSent` — a call, and what comes after it;
* `made` — the pcbs that `canraw_new` has cleared;
* `node_run`, `raw_run` — what a run does to either part;
* `eaten_apart` — ISO-TP does what it does alone with the frames that no raw pcb eats, and on an
  interface that no raw pcb is bound to that is every frame.
-/

namespace Lwcan

/-- What a call of `canraw_send` that waits does next -/
inductive SendStage
  /-- `while (!pcb->sent)` -/
  | polling
  /-- `pcb->sent = 0` -/
  | clearing
  /-- `ret = pcb->sent_error` -/
  | reading
  deriving DecidableEq, Repr

/-- What a driver calls when a frame of `canraw_send` is sent -/
inductive SentFunction
  | rawSent (pcb : Nat)
  | user (sent arg : Ptr)
  deriving DecidableEq

/-- What is seen of the calls of `canraw_send`; each call has a number. -/
inductive SendObs
  | output (id canif canId : Nat) (wire : List UInt8) (frameSize timeout : Nat) (ret : Lwcanerr)
  /-- The call waits for its frame. -/
  | awaited (id pcb : Nat)
  /-- The driver confirms the frame of the call. -/
  | confirmed (id : Nat) (error : Lwcanerr)
  /-- The user's function is called. -/
  | called (sent arg : Ptr) (error : Lwcanerr)
  | returned (id : Nat) (ret : Lwcanerr)
  deriving DecidableEq

/-- The raw pcbs with the two fields that sending uses, the node, and the calls of `canraw_send`. -/
structure Stack where
  raw : Raw
  /-- `pcb->sent` -/
  sent : Nat → Bool := fun _ => false
  /-- `pcb->sent_error` -/
  sentError : Nat → Lwcanerr := fun _ => .ok
  node : Node
  /-- How many calls there were. -/
  calls : Nat := 0
  /-- The calls that wait, each with its pcb. -/
  sends : Nat → Option (Nat × SendStage) := fun _ => none
  /-- The frames that a driver has accepted and not confirmed. -/
  frames : Nat → Option SentFunction := fun _ => none
  /-- The calls of `raw_sent` between their two assignments. -/
  confirming : Nat → Option (Nat × Lwcanerr) := fun _ => none
  log : List SendObs := []

/-- What happens to the library. -/
inductive StackEvent
  | raw (o : Raw.Op)
  | node (e : Event)
  /-- A driver calls `canif->input`. -/
  | input (canif : Option Nat) (frame : Option CanFrame) (receive : Raw.Receive) (g : Grant)
  /-- `canraw_send` is called; `ret` is what the driver returns. -/
  | send (pcb : Option Nat) (frame : Option CanFrame) (frameSize timeout : Nat) (sent arg : Ptr)
      (ret : Lwcanerr)
  /-- A call that waits goes on. -/
  | proceed (id : Nat)
  /-- A driver confirms the frame of a call. -/
  | sent (id : Nat) (error : Lwcanerr)
  /-- `raw_sent` goes on. -/
  | sentError (id : Nat)

/-- A frame comes in. -/
def Event.isInput : Event → Bool
  | .input _ _ _ => true
  | .call _ | .timer _ _ | .sent _ _ | .resume | .tick _ => false

namespace Raw

/-- The interface that an operation binds a pcb to -/
def Op.binds : Op → Option Nat
  | .bind _ addr => addr
  | .new | .setReceiveCallback _ _ | .setCallbackArg _ _ | .remove _ => none

/-- What the receive callback does that `canraw_input` calls, if it calls one -/
def callbackOps (r : Raw) (ifIndex : Nat) (receive : Receive) : List Op :=
  match r.bound ifIndex with
  | some (some (_, pcb)) => if (r.mem pcb).receive = .null then [] else (r.called receive pcb).1
  | _ => []

/-- The pcbs that `canraw_new` returns in a row of operations -/
def made (r : Raw) : List Op → List Nat
  | [] => []
  | o :: ops =>
    let rest := (r.apply o).elim [] fun v => made v ops
    match o with
    | .new => r.canrawNew.1.toList ++ rest
    | _ => rest

end Raw

namespace Stack

/-- The library as it is set up -/
def lwcanInit (cfg : Config) (chunk num : Nat) : Stack where
  raw := Raw.canrawInit chunk num
  node := Node.lwcanInit cfg

/-! ### Sending -/

def emit (s : Stack) (o : SendObs) : Stack := { s with log := s.log ++ [o] }

/-- `canif->output` -/
def output (s : Stack) (id canif : Nat) (frame : CanFrame) (frameSize timeout : Nat)
    (sent : SentFunction) (ret : Lwcanerr) : Stack :=
  { s.emit (.output id canif frame.canId frame.wire frameSize timeout ret) with
    frames := if ret = .ok then Function.update s.frames id (some sent) else s.frames }

/-- `canraw_send(pcb, frame, frame_size, timeout, sent, arg)` up to its loop. `ret` is what the
driver returns. -/
def canrawSend (s : Stack) (pcb : Option Nat) (frame : Option CanFrame) (frameSize timeout : Nat)
    (sent arg : Ptr) (ret : Lwcanerr) : Stack :=
  let id := s.calls
  let s := { s with calls := s.calls + 1 }
  match pcb, frame with
  | some pcb, some frame =>
    match s.node.canifs.canifGetByIndex (s.raw.mem pcb).ifIndex with
    | none => s.emit (.returned id .canif)
    | some canif =>
      if sent ≠ .null then
        (s.output id canif frame frameSize timeout (.user sent arg) ret).emit (.returned id ret)
      else
        let s := s.output id canif frame frameSize timeout (.rawSent pcb) ret
        if ret ≠ .ok then s.emit (.returned id ret)
        else
          { s.emit (.awaited id pcb) with
            sends := Function.update s.sends id (some (pcb, .polling)) }
  | _, _ => s.emit (.returned id .arg)

/-- What a call of `canraw_send` that waits does next -/
def proceed (s : Stack) (id : Nat) : Option Stack :=
  match s.sends id with
  | none => none
  | some (pcb, .polling) =>
    -- an empty body: the loop reads the field again
    if s.sent pcb then some { s with sends := Function.update s.sends id (some (pcb, .clearing)) }
    else some s
  | some (pcb, .clearing) =>
    some { s with
      sent := Function.update s.sent pcb false
      sends := Function.update s.sends id (some (pcb, .reading)) }
  | some (pcb, .reading) =>
    some { s.emit (.returned id (s.sentError pcb)) with sends := Function.update s.sends id none }

/-- The driver confirms a frame: the user's function is called, or `raw_sent`, up to its second
assignment. -/
def confirm (s : Stack) (id : Nat) (error : Lwcanerr) : Option Stack :=
  let t := { s with frames := Function.update s.frames id none }.emit (.confirmed id error)
  match s.frames id with
  | none => none
  | some (.user sent arg) => some (t.emit (.called sent arg error))
  | some (.rawSent pcb) =>
    some { t with
      sent := Function.update s.sent pcb true
      confirming := Function.update s.confirming id (some (pcb, error)) }

/-- The second assignment of `raw_sent` -/
def rawSent (s : Stack) (id : Nat) : Option Stack :=
  (s.confirming id).map fun x =>
    { s with
      sentError := Function.update s.sentError x.1 x.2
      confirming := Function.update s.confirming id none }

/-! ### The steps -/

/-- `memset` in `canraw_new` clears the two fields of a pcb that is made. -/
def cleared (s : Stack) (pcbs : List Nat) : Stack :=
  { s with
    sent := fun p => if p ∈ pcbs then false else s.sent p
    sentError := fun p => if p ∈ pcbs then .ok else s.sentError p }

/-- What the raw pcbs do in an event -/
def rawEvents (s : Stack) : StackEvent → List Raw.Event
  | .raw o => [.op o]
  | .input (some canif) (some _) receive _ =>
    [.input (s.node.canifs.canifGetIndex (some canif)) receive]
  | _ => []

/-- The raw pcbs leave the frame alone. -/
def passes (s : Stack) (canif : Nat) (receive : Raw.Receive) : Bool :=
  (s.raw.canrawInput (s.node.canifs.canifGetIndex (some canif)) receive).any fun x => x.1 ≠ .eaten

/-- What the node does in an event -/
def nodeEvents (s : Stack) : StackEvent → List Event
  | .node e => [e]
  | .input (some canif) (some frame) receive g =>
    if s.passes canif receive then [.input canif frame g] else []
  | _ => []

/-- What the user does with raw pcbs in an event -/
def rawOps (s : Stack) : StackEvent → List Raw.Op
  | .raw o => [o]
  | .input (some canif) (some _) receive _ =>
    s.raw.callbackOps (s.node.canifs.canifGetIndex (some canif)) receive
  | _ => []

/-- A driver hands a frame to `canif_input`, while no function of the node waits. -/
def canifInput (cfg : Config) (s : Stack) (canif : Option Nat) (frame : Option CanFrame)
    (receive : Raw.Receive) (g : Grant) : Option Stack :=
  if s.node.suspended.isNone ∧ g.Fresh s.node.heap.blocks then
    (s.raw.canifInput cfg s.node canif frame receive g).map fun x =>
      { s with raw := x.2.1, node := x.2.2 }.cleared
      (s.raw.made (s.rawOps (.input canif frame receive g)))
  else none

/-- The node takes a step of its own: frames reach it through `canif_input` only. -/
def nodeStep (cfg : Config) (s : Stack) (e : Event) : Option Stack :=
  if e.isInput then none else (s.node.step cfg e).map fun node => { s with node }

/-- One event -/
def step (cfg : Config) (s : Stack) : StackEvent → Option Stack
  | .raw o => (s.raw.apply o).map fun raw => { s with raw }.cleared (s.raw.made [o])
  | .node e => s.nodeStep cfg e
  | .input canif frame receive g => s.canifInput cfg canif frame receive g
  | .send pcb frame frameSize timeout sent arg ret =>
    some (s.canrawSend pcb frame frameSize timeout sent arg ret)
  | .proceed id => s.proceed id
  | .sent id error => s.confirm id error
  | .sentError id => s.rawSent id

/-! ### What the steps leave alone -/

variable {cfg : Config} {s t : Stack} {es : List StackEvent} {e : StackEvent}

/-- A step of `raw.c` that sends leaves the list of raw pcbs and the node alone. -/
structure SameParts (s t : Stack) : Prop where
  raw : t.raw = s.raw
  node : t.node = s.node

theorem canrawSend_parts (s : Stack) (pcb : Option Nat) (frame : Option CanFrame)
    (frameSize timeout : Nat) (sent arg : Ptr) (ret : Lwcanerr) :
    SameParts s (s.canrawSend pcb frame frameSize timeout sent arg ret) := by
  unfold canrawSend
  dsimp only
  split
  · split
    · exact ⟨rfl, rfl⟩
    · split
      · exact ⟨rfl, rfl⟩
      · split
        · exact ⟨rfl, rfl⟩
        · exact ⟨rfl, rfl⟩
  · exact ⟨rfl, rfl⟩

theorem proceed_parts {id : Nat} (h : s.proceed id = some t) : SameParts s t := by
  unfold proceed at h
  split at h
  · cases h
  · split at h
    · obtain rfl := Option.some.inj h
      exact ⟨rfl, rfl⟩
    · obtain rfl := Option.some.inj h
      exact ⟨rfl, rfl⟩
  · obtain rfl := Option.some.inj h
    exact ⟨rfl, rfl⟩
  · obtain rfl := Option.some.inj h
    exact ⟨rfl, rfl⟩

theorem confirm_parts {id : Nat} {error : Lwcanerr} (h : s.confirm id error = some t) :
    SameParts s t := by
  unfold confirm at h
  dsimp only at h
  split at h
  · cases h
  · obtain rfl := Option.some.inj h
    exact ⟨rfl, rfl⟩
  · obtain rfl := Option.some.inj h
    exact ⟨rfl, rfl⟩

theorem rawSent_parts {id : Nat} (h : s.rawSent id = some t) : SameParts s t := by
  obtain ⟨x, -, rfl⟩ := Option.map_eq_some_iff.mp h
  exact ⟨rfl, rfl⟩

/-- **A frame that comes in**, at an interface with the index that its raw pcbs know -/
theorem canifInput_cases {canif : Option Nat} {frame : Option CanFrame} {receive : Raw.Receive}
    {g : Grant} (h : s.canifInput cfg canif frame receive g = some t) :
    (canif = none ∨ frame = none) ∧ SameParts s t ∨
      ∃ c f st, canif = some c ∧ frame = some f ∧
        s.raw.canrawInput (s.node.canifs.canifGetIndex (some c)) receive = some (st, t.raw) ∧
        (s.node.Enabled (.input c f g) ∧
          t.node = if st = .eaten then s.node else s.node.isotpInput cfg c f g) := by
  unfold canifInput at h
  split at h
  · next hen =>
    obtain ⟨⟨err, r, n⟩, hx, rfl⟩ := Option.map_eq_some_iff.mp h
    -- a null interface or frame is refused before anybody is asked
    cases canif with
    | none =>
      obtain ⟨rfl, rfl⟩ := Prod.mk.inj (Prod.mk.inj (Option.some.inj hx)).2
      exact Or.inl ⟨Or.inl rfl, rfl, rfl⟩
    | some c =>
      cases frame with
      | none =>
        obtain ⟨rfl, rfl⟩ := Prod.mk.inj (Prod.mk.inj (Option.some.inj hx)).2
        exact Or.inl ⟨Or.inr rfl, rfl, rfl⟩
      | some f =>
        refine Or.inr ⟨c, f, ?_⟩
        -- the raw pcbs are asked first, and ISO-TP only if they leave the frame
        unfold Raw.canifInput at hx
        dsimp only at hx
        split at hx
        · cases hx
        · next st r' hin =>
          cases st with
          | none =>
            obtain ⟨rfl, rfl⟩ := Prod.mk.inj (Prod.mk.inj (Option.some.inj hx)).2
            exact ⟨.none, rfl, rfl, hin, hen, rfl⟩
          | eaten =>
            obtain ⟨rfl, rfl⟩ := Prod.mk.inj (Prod.mk.inj (Option.some.inj hx)).2
            exact ⟨.eaten, rfl, rfl, hin, hen, rfl⟩
  · cases h

/-! ### Either part -/

/-- **The raw pcbs**: what a run does to them is what `raw.c` does alone. -/
theorem raw_run (hr : Runs.run (step cfg) s es = some t) :
    Runs.run Raw.step s.raw (Runs.translate (step cfg) rawEvents s es) = some t.raw := by
  -- each step is the row of raw operations it makes
  refine Runs.run_translate (π := Stack.raw) (fun s e t hst => ?_) hr
  have hsame : SameParts s t → Runs.run Raw.step s.raw [] = some t.raw :=
    fun h => congrArg some h.raw.symm
  cases e with
  | raw o =>
    obtain ⟨r, hr, rfl⟩ := Option.map_eq_some_iff.mp hst
    exact Runs.run_cons.mpr ⟨r, hr, rfl⟩
  | node e =>
    change s.nodeStep cfg e = some t at hst
    unfold nodeStep at hst
    split at hst
    · cases hst
    · obtain ⟨n, -, rfl⟩ := Option.map_eq_some_iff.mp hst
      rfl
  | input canif frame receive g =>
    rcases canifInput_cases hst with ⟨rfl | rfl, h⟩ | ⟨c, f, st, rfl, rfl, hin, -, -⟩
    · exact hsame h
    · cases canif <;> exact hsame h
    · refine Runs.run_cons.mpr ⟨t.raw, ?_, rfl⟩
      show (s.raw.canrawInput _ receive).map Prod.snd = some t.raw
      rw [hin]
      rfl
  | send pcb frame frameSize timeout sent arg ret =>
    obtain rfl := Option.some.inj hst
    exact hsame (canrawSend_parts s pcb frame frameSize timeout sent arg ret)
  | proceed id => exact hsame (proceed_parts hst)
  | sent id error => exact hsame (confirm_parts hst)
  | sentError id => exact hsame (rawSent_parts hst)

/-- **The node**: what a run does to it is what the node does alone, where the frames that raw pcbs
have eaten do not come in. -/
theorem node_run (hr : Runs.run (step cfg) s es = some t) :
    Runs.run (Node.step cfg) s.node (Runs.translate (step cfg) nodeEvents s es) = some t.node := by
  -- each step is the row of node events it makes
  refine Runs.run_translate (π := Stack.node) (fun s e t hst => ?_) hr
  have hsame : SameParts s t → Runs.run (Node.step cfg) s.node [] = some t.node :=
    fun h => congrArg some h.node.symm
  cases e with
  | raw o =>
    obtain ⟨r, -, rfl⟩ := Option.map_eq_some_iff.mp hst
    rfl
  | node e =>
    change s.nodeStep cfg e = some t at hst
    unfold nodeStep at hst
    split at hst
    · cases hst
    · obtain ⟨n, hn, rfl⟩ := Option.map_eq_some_iff.mp hst
      exact Runs.run_cons.mpr ⟨n, hn, rfl⟩
  | input canif frame receive g =>
    rcases canifInput_cases hst with ⟨rfl | rfl, h⟩ | ⟨c, f, st, rfl, rfl, hin, hen, hn⟩
    · exact hsame h
    · cases canif <;> exact hsame h
    · show Runs.run _ _ (if s.passes c receive then [Event.input c f g] else []) = _
      unfold passes
      rw [hin]
      -- a frame that the raw pcbs eat does not reach the node
      cases st with
      | none => exact Runs.run_cons.mpr ⟨t.node, Node.step_eq_some.mpr ⟨hen, hn.symm⟩, rfl⟩
      | eaten => exact congrArg some hn.symm
  | send pcb frame frameSize timeout sent arg ret =>
    obtain rfl := Option.some.inj hst
    exact hsame (canrawSend_parts s pcb frame frameSize timeout sent arg ret)
  | proceed id => exact hsame (proceed_parts hst)
  | sent id error => exact hsame (confirm_parts hst)
  | sentError id => exact hsame (rawSent_parts hst)

/-! ### An interface without raw pcbs -/

/-- The event binds no raw pcb to the interface with index `i`, in a callback or outside. -/
def BindsNot (i : Nat) (s : Stack) (e : StackEvent) : Prop := ∀ o ∈ s.rawOps e, o.binds ≠ some i

instance (i : Nat) (s : Stack) (e : StackEvent) : Decidable (BindsNot i s e) :=
  inferInstanceAs (Decidable (∀ o ∈ s.rawOps e, o.binds ≠ some i))

/-- What comes in at the interface with index `i` goes to the node. -/
def Hears (i : Nat) (s : Stack) : StackEvent → Prop
  | .input (some canif) (some frame) receive g =>
    s.node.canifs.canifGetIndex (some canif) = i →
      s.nodeEvents (.input (some canif) (some frame) receive g) = [.input canif frame g]
  | _ => True

end Stack

namespace Raw

variable {r v : Raw} {i : Nat} {o : Op}

/-- No raw pcb is bound to the interface. -/
def Unbound (i : Nat) (r : Raw) : Prop := ∀ p, (r.mem p).ifIndex ≠ i

/-- A control block that is written is bound to the interface afterwards only if it is bound to it
then. -/
theorem Unbound.write (h : Unbound i r) {p : Nat} {c : CanrawPcb} (hc : c.ifIndex ≠ i) :
    Unbound i { r with mem := Function.update r.mem p c } := by
  intro q
  show (Function.update r.mem p c q).ifIndex ≠ i
  by_cases hq : q = p
  · rw [hq, Function.update_self]
    exact hc
  · rw [Function.update_of_ne hq]
    exact h q

theorem Unbound.setNext (h : Unbound i r) (p : Nat) (n : Option Nat) : Unbound i (r.setNext p n) :=
  h.write (h p)

/-- **An operation** binds a pcb to an interface only if it is `canraw_bind` with that interface. -/
theorem Unbound.apply (h : Unbound i r) (hi : i ≠ 0) (ho : o.binds ≠ some i)
    (hv : r.apply o = some v) : Unbound i v := by
  cases o with
  | new =>
    obtain rfl := Option.some.inj hv
    show Unbound i r.canrawNew.2
    unfold canrawNew
    split
    · exact h
    · split
      · exact h
      · -- a new pcb is bound to no interface
        exact h.write (c := ⟨r.canrawPcbList, 0, .null, .null⟩) (Ne.symm hi)
  | bind pcb addr =>
    obtain rfl := Option.some.inj hv
    show Unbound i (r.canrawBind pcb addr).2
    unfold canrawBind
    split
    · next p j =>
      split
      · exact h
      -- only a bind to `i` itself would bind it
      · exact h.write (c := { r.mem p with ifIndex := j }) fun hj => ho (congrArg some hj)
    · exact h
  | setReceiveCallback pcb receive =>
    obtain rfl := Option.some.inj hv
    cases pcb with
    | none => exact h
    | some p => exact h.write (h p)
  | setCallbackArg pcb arg =>
    obtain rfl := Option.some.inj hv
    cases pcb with
    | none => exact h
    | some p => exact h.write (h p)
  | remove pcb =>
    cases pcb with
    | none =>
      obtain rfl := Option.some.inj hv
      exact h
    | some p =>
      -- unlinking rewrites links, not interfaces
      change Raw.unlink _ p = some v at hv
      unfold Raw.unlink at hv
      split at hv
      · obtain rfl := Option.some.inj hv
        exact h
      · split at hv
        · cases hv
        · obtain rfl := Option.some.inj hv
          exact h
        · next q _ =>
          obtain rfl := Option.some.inj hv
          exact h.setNext q _

theorem Unbound.run (h : Unbound i r) (hi : i ≠ 0) {ops : List Op}
    (ho : ∀ o ∈ ops, o.binds ≠ some i) (hv : Runs.run Raw.apply r ops = some v) :
    Unbound i v :=
  Runs.run_inv (C := fun _ o => o.binds ≠ some i) (fun _ _ _ hr ho hst => hr.apply hi ho hst) h
    (Runs.Along.of_forall (fun o hm _ => ho o hm) r) hv

theorem Unbound.moveToFront (h : Unbound i r) (prev : Option Nat) (p : Nat) :
    Unbound i (r.moveToFront prev p) := by
  cases prev with
  | none => exact h
  | some q => exact (h.setNext q (r.next p)).setNext p _

/-- **A frame that comes in** binds no pcb but in the callback. -/
theorem Unbound.input (h : Unbound i r) (hi : i ≠ 0) {j : Nat} {receive : Receive}
    (ho : ∀ o ∈ r.callbackOps j receive, o.binds ≠ some i) {st : CanrawInputState}
    (hv : r.canrawInput j receive = some (st, v)) : Unbound i v := by
  unfold canrawInput at hv
  unfold callbackOps at ho
  cases hb : r.bound j with
  | none =>
    rw [hb] at hv
    cases hv
  | some found =>
    rw [hb] at hv ho
    cases found with
    | none =>
      obtain ⟨-, rfl⟩ := Prod.mk.inj (Option.some.inj hv)
      exact h
    | some x =>
      obtain ⟨prev, p⟩ := x
      dsimp only at hv ho
      split at hv
      · obtain ⟨-, rfl⟩ := Prod.mk.inj (Option.some.inj hv)
        exact h
      · next hr =>
        rw [if_neg hr] at ho
        split at hv
        · cases hv
        · next u hu =>
          -- the callback binds nobody to `i`, and the pcb only moves in the list
          have hun : Unbound i u := h.run hi ho hu
          split at hv
          · obtain ⟨-, rfl⟩ := Prod.mk.inj (Option.some.inj hv)
            exact hun
          · obtain ⟨-, rfl⟩ := Prod.mk.inj (Option.some.inj hv)
            exact hun.moveToFront prev p

/-- A frame of that interface is eaten by nobody. -/
theorem Unbound.passes (h : Unbound i r) {receive : Receive} {st : CanrawInputState}
    (hv : r.canrawInput i receive = some (st, v)) : st = .none := by
  unfold canrawInput at hv
  cases hb : r.bound i with
  | none =>
    rw [hb] at hv
    cases hv
  | some found =>
    rw [hb] at hv
    cases found with
    | none => exact (Prod.mk.inj (Option.some.inj hv)).1.symm
    | some x =>
      -- a pcb that is found is bound to the interface
      have hwalk : walk r.next
          (fun p => decide ((r.mem p).ifIndex = i)) r.fuel none r.canrawPcbList =
          some (some x) := hb
      have hfound : decide ((r.mem x.2).ifIndex = i) = true := of_walk_eq_some hwalk
      exact absurd (of_decide_eq_true hfound) (h x.2)

end Raw

namespace Stack

variable {cfg : Config} {s t : Stack} {es : List StackEvent} {e : StackEvent} {i chunk num : Nat}

theorem unbound_step (h : s.raw.Unbound i) (hi : i ≠ 0) (hb : BindsNot i s e)
    (hst : step cfg s e = some t) : t.raw.Unbound i := by
  -- only a raw operation and a callback could bind a pcb
  cases e with
  | raw o =>
    obtain ⟨r, hr, rfl⟩ := Option.map_eq_some_iff.mp hst
    exact h.apply hi (hb o List.mem_cons_self) hr
  | node e =>
    change s.nodeStep cfg e = some t at hst
    unfold nodeStep at hst
    split at hst
    · cases hst
    · obtain ⟨n, -, rfl⟩ := Option.map_eq_some_iff.mp hst
      exact h
  | input canif frame receive g =>
    rcases canifInput_cases hst with ⟨-, hp⟩ | ⟨c, f, st, rfl, rfl, hin, -, -⟩
    · rw [hp.raw]
      exact h
    · exact h.input hi hb hin
  | send pcb frame frameSize timeout sent arg ret =>
    obtain rfl := Option.some.inj hst
    rw [(canrawSend_parts s pcb frame frameSize timeout sent arg ret).raw]
    exact h
  | proceed id =>
    rw [(proceed_parts hst).raw]
    exact h
  | sent id error =>
    rw [(confirm_parts hst).raw]
    exact h
  | sentError id =>
    rw [(rawSent_parts hst).raw]
    exact h

/-- What comes in at an interface without raw pcbs goes to the node. -/
theorem hears (h : s.raw.Unbound i) (hst : ∃ t, step cfg s e = some t) : Hears i s e := by
  obtain ⟨t, hst⟩ := hst
  unfold Hears
  split
  · next canif frame receive g =>
    rintro rfl
    rcases canifInput_cases hst with ⟨hn | hn, -⟩ | ⟨c, f, st, hc, hf, hin, -, -⟩
    · cases hn
    · cases hn
    · obtain rfl := Option.some.inj hc
      have hst' := h.passes hin
      show (if s.passes canif receive then [Event.input canif frame g] else []) = _
      unfold passes
      rw [hin, hst']
      rfl
  · trivial

/-- **What raw pcbs eat is kept from ISO-TP, and nothing else is.** In every run of the library the
node does what it does alone when the frames come in that no raw pcb has eaten, and the raw pcbs
what they do alone. A frame at an interface that no raw pcb is ever bound to is never eaten. -/
theorem eaten_apart (hr : Runs.run (step cfg) (lwcanInit cfg chunk num) es = some t) :
    Node.Run cfg (Runs.translate (step cfg) nodeEvents (lwcanInit cfg chunk num) es) t.node ∧
      Runs.run Raw.step (Raw.canrawInit chunk num)
        (Runs.translate (step cfg) rawEvents (lwcanInit cfg chunk num) es) = some t.raw ∧
      ∀ i ≠ 0, Runs.Along (step cfg) (BindsNot i) (lwcanInit cfg chunk num) es →
        Runs.Along (step cfg) (Hears i) (lwcanInit cfg chunk num) es := by
  refine ⟨node_run hr, raw_run hr, fun i hi hb => ?_⟩
  have hinit : (lwcanInit cfg chunk num).raw.Unbound i := fun p => Ne.symm hi
  have hinv := Runs.along_inv (fun s e t h hb hst => unbound_step h hi hb hst) hinit hb
  exact (hinv.and (Runs.along_enabled hr)).mono fun s e h => hears h.1 h.2

/-- ISO-TP on the first interface, and a raw pcb on a second one that eats every frame -/
def shared : List StackEvent :=
  Node.connected.map .node ++
    [.node
      (.call
        (.canifAdd (some 1) (some [0x64]) (some fun c => (.ok, { c with output := .driver 0 })))),
      .raw .new, .raw (.bind (some 0) (some 2)), .raw (.setReceiveCallback (some 0) (.user 1))]

/-- A single frame with two bytes -/
def single : CanFrame := ⟨0x7E8, 8, 0, fun i => [0x02, 0x3E, 0x00].getD i 0xAA⟩

/-- The same frame at either interface: the one goes to ISO-TP, the other is eaten. -/
theorem eaten_apart_two : ∃ t,
    Runs.run (step {}) (lwcanInit {} 24 2) (shared ++
      [.input (some 0) (some single) (fun _ _ _ => ([], 1)) ⟨some 1, some 2, fun _ => 0⟩,
        .input (some 1) (some single) (fun _ _ _ => ([], 1)) ⟨some 3, some 4, fun _ => 0⟩]) =
          some t ∧
    Node.Run {} (Node.connected ++
      [.call
        (.canifAdd (some 1) (some [0x64]) (some fun c => (.ok, { c with output := .driver 0 }))),
        .input 0 single ⟨some 1, some 2, fun _ => 0⟩]) t.node ∧
    Runs.Along (step {}) (Hears 1) (lwcanInit {} 24 2) (shared ++
      [.input (some 0) (some single) (fun _ _ _ => ([], 1)) ⟨some 1, some 2, fun _ => 0⟩,
        .input (some 1) (some single) (fun _ _ _ => ([], 1)) ⟨some 3, some 4, fun _ => 0⟩]) := by
  obtain ⟨t, hr, -⟩ := Runs.exists_run (step {}) (lwcanInit {} 24 2) (shared ++
      [.input (some 0) (some single) (fun _ _ _ => ([], 1)) ⟨some 1, some 2, fun _ => 0⟩,
        .input (some 1) (some single) (fun _ _ _ => ([], 1)) ⟨some 3, some 4, fun _ => 0⟩])
    (fun _ => True) (by decide)
  obtain ⟨hnode, -, hhears⟩ := eaten_apart hr
  exact ⟨t, hr, hnode, hhears 1 (by decide) (by decide)⟩

end Stack
end Lwcan
