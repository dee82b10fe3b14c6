import Lwcan.Progress
import Lwcan.Wakeup

/-!
# The argument of the callbacks

`isotp_set_callback_arg` registers the argument that every callback of a pcb should be invoked with.
All the places that invoke one pass `pcb->callback_arg`, but for the two timeout handlers
`isotp_output_error_handler` and `isotp_input_error_handler`: they pass the pcb.

* `PassesArg` — a step invokes every callback with the registered argument;
* `OutputStep.adds`, `InputStep.adds` — every transition does, if no error handler is due for an
  argument that is not the pcb;
* `callback_args_iff` — a run invokes every callback with the registered argument if and only if
  each of its steps meets that condition.
-/

namespace Lwcan

/-- The argument that a callback is invoked with, if the entry is an invocation -/
def Obs.callbackArg : Obs → Option Ptr
  | .receive _ arg _ _ | .receiveFf _ arg | .sent _ arg _ | .error _ arg _ => some arg
  | _ => none

/-- The entry invokes no callback with another argument. -/
def Obs.Passes (arg : Ptr) (o : Obs) : Prop := ∀ a ∈ o.callbackArg, a = arg

instance (arg : Ptr) (o : Obs) : Decidable (o.Passes arg) :=
  inferInstanceAs (Decidable (∀ a ∈ o.callbackArg, a = arg))

namespace Node

/-- What a step adds to the log of a flow -/
def added (s s' : Node) (k : FlowId) : List Obs := (s'.logOf k).drop (s.logOf k).length

/-- **A step passes the registered argument** to every callback it invokes. -/
def PassesArg (s s' : Node) : Prop :=
  ∀ k : FlowId, ∀ o ∈ s.added s' k, o.Passes (s.pcb k.1).callbackArg

/-- The flow whose error handler is due -/
def dueError (s : Node) : Option FlowId :=
  match s.due with
  | some (.isotpOutputErrorHandler, .pcb p) => some (p, .output)
  | some (.isotpInputErrorHandler, .pcb p) => some (p, .input)
  | _ => none

/-- **The timeout that runs is no error handler** that calls an error callback registered with
another argument than the pcb. -/
def TimeoutArgIsPcb (s : Node) : Event → Prop
  | .timer _ _ => ∀ k ∈ s.dueError, (s.pcb k.1).error → (s.pcb k.1).callbackArg = .pcb k.1
  | _ => True

instance (s : Node) : (e : Event) → Decidable (s.TimeoutArgIsPcb e)
  | .timer _ _ => inferInstanceAs (Decidable
      (∀ k ∈ s.dueError, (s.pcb k.1).error → (s.pcb k.1).callbackArg = .pcb k.1))
  | .call _ | .input _ _ _ | .sent _ _ | .resume | .tick _ => isTrue trivial

theorem dueError_of_fires {s : Node} {p : Nat} (d : Dir) (h : s.Fires (errorHandler d) p) :
    (p, d) ∈ s.dueError := by
  unfold dueError
  rw [fires_iff.mp h]
  cases d <;> rfl

end Node

/-! ### What the transitions add to the log -/

section Adds

variable {cfg : Config} {s : Node} {p : Nat} {e : Event} {arg : Ptr} {v w v' : View}

/-- The log grows, by entries that pass the argument. -/
def View.Adds (arg : Ptr) (v w : View) : Prop :=
  ∃ l, w.log = v.log ++ l ∧ ∀ o ∈ l, o.Passes arg

/-- The log stays as it is. -/
theorem View.Adds.same (h : w.log = v.log) : v.Adds arg w :=
  ⟨[], h.trans (List.append_nil _).symm, fun _ ho => absurd ho List.not_mem_nil⟩

/-- One entry, which invokes no callback or passes the argument -/
theorem View.Adds.one {o : Obs} (h : w.log = v.log ++ [o]) (ho : o.Passes arg) : v.Adds arg w :=
  ⟨[o], h, fun _ ho' => List.mem_singleton.mp ho' ▸ ho⟩

theorem View.Adds.trans (h : v.Adds arg w) (h' : w.Adds arg v') : v.Adds arg v' := by
  obtain ⟨l, hl, hp⟩ := h
  obtain ⟨l', hl', hp'⟩ := h'
  refine ⟨l ++ l', ?_, ?_⟩
  · rw [hl', hl, List.append_assoc]
  · intro o ho
    exact (List.mem_append.mp ho).elim (hp o) (hp' o)

theorem View.Adds.emitIf (h : v.Adds arg w) (c : Bool) {o : Obs} (ho : o.Passes arg) :
    v.Adds arg (w.emitIf c o) := by
  apply h.trans
  cases c with
  | false => exact View.Adds.same rfl
  | true => exact View.Adds.one rfl ho

/-- An entry that invokes no callback -/
theorem Obs.Passes.of_none {o : Obs} (h : o.callbackArg = none) : o.Passes arg := by
  intro a ha
  rw [h] at ha
  cases ha

/-- The entry of an invocation with the argument -/
theorem Obs.Passes.of_some {o : Obs} (h : o.callbackArg = some arg) : o.Passes arg := by
  intro a ha
  rw [h] at ha
  exact (Option.some.inj ha).symm

/-- A message is given up. -/
theorem View.Adds.drop (v : View) (k : FlowId) : v.Adds arg (v.drop k) := .one rfl (.of_none rfl)

/-- An error path calls the error callback with the argument it is given. -/
theorem View.Adds.fail (h : v.Adds arg w) (k : FlowId) (c : Bool) {a : Ptr} (err : Lwcanerr)
    (ha : c = true → a = arg) : v.Adds arg (w.fail k c a err) := by
  apply h.trans
  refine ⟨_, View.fail_log .., ?_⟩
  intro o ho
  rcases List.mem_cons.mp ho with rfl | ho
  · exact .of_none rfl
  · cases c with
    | false => cases ho
    | true =>
      obtain rfl := List.mem_singleton.mp ho
      rw [ha rfl]
      exact .of_some rfl

theorem View.Adds.refused (v : View) (k : FlowId) (pcb : IsotpPcb) (err : Lwcanerr) :
    v.Adds pcb.callbackArg (v.refused k pcb err) := by
  refine ⟨_, View.refused_log .., ?_⟩
  intro o ho
  rcases List.mem_cons.mp ho with rfl | ho
  · exact .of_none rfl
  · cases hc : pcb.error with
    | false =>
      rw [hc] at ho
      cases ho
    | true =>
      rw [hc] at ho
      obtain rfl := List.mem_singleton.mp ho
      exact .of_some rfl

theorem View.Adds.deliver (v : View) (pcb : IsotpPcb) (p : Nat) :
    v.Adds pcb.callbackArg (v.deliver pcb p) := by
  unfold View.deliver
  cases v.chain with
  | nil => exact .same rfl
  | cons x l =>
    simp only
    split
    · exact .one rfl (.of_some rfl)
    · exact .one rfl (.of_none rfl)

/-- The frame is copied to the buffer. -/
theorem View.Adds.ffStore (v : View) (p : Nat) (frame : CanFrame) (b : Nat) (buf : LwcanBuffer)
    (slot : Bool) : v.Adds arg (v.ffStore cfg p frame b buf slot) :=
  have hopened : v.Adds arg ((v.push b buf buf.length).emit (.opened p b frame.wire)) :=
    .one rfl (.of_none rfl)
  hopened.trans (.one rfl (.of_none rfl))

/-- A consecutive frame is taken from the wire. -/
theorem View.Adds.taken (v : View) (p : Nat) (frame : CanFrame) :
    v.Adds arg ({ v with err := v.err - 1 }.emit (.consecutive p frame.wire)) :=
  .one rfl (.of_none rfl)

theorem OutputSwitch.adds {pcb : IsotpPcb} {slot : Bool} (hw : OutputSwitch pcb p slot v v') :
    v.Adds pcb.callbackArg v' := by
  cases hw with
  | skip => exact .same rfl
  | complete => exact (View.Adds.same rfl).emitIf _ (.of_some rfl)
  | ff => exact .one rfl (.of_none rfl)
  | cf => exact .same rfl
  | block => exact .one rfl (.of_none rfl)

theorem InputSwitch.adds {pcb : IsotpPcb} {slot : Bool} (hw : InputSwitch pcb p slot v v') :
    v.Adds pcb.callbackArg v' := by
  cases hw with
  | skip => exact .same rfl
  | abort => exact (View.Adds.same rfl).emitIf _ (.of_some rfl)
  | ready => exact .same rfl

/-- **Every transition of an output flow** passes the registered argument, unless its error handler
is due for another. -/
theorem OutputStep.adds (hs : OutputStep cfg s p v e v') (ha : s.TimeoutArgIsPcb e) :
    v.Adds (s.pcb p).callbackArg v' := by
  cases hs with
  -- these entries invoke no callback
  | send => exact .one rfl (.of_none rfl)
  | skip => exact .same rfl
  | output => exact .one rfl (.of_none rfl)
  | reject => exact (View.Adds.one rfl (.of_none rfl)).fail _ _ _ fun _ => rfl
  | expire hf =>
    -- the handler passes what the timeout was armed with, the pcb
    have harg : (s.pcb p).error = true → (s.pcb p).callbackArg = .pcb p :=
      ha (p, .output) (Node.dueError_of_fires .output hf)
    exact (View.Adds.same rfl).fail _ _ _ fun hc => (harg hc).symm
  | confirm _ hw => exact (View.Adds.same rfl).trans hw.adds
  | refuse => exact (View.Adds.same rfl).trans (View.Adds.refused ..)
  | resume _ hw => exact (View.Adds.same rfl).trans hw.adds
  | wait => exact .one rfl (.of_none rfl)
  | abort => exact (View.Adds.one rfl (.of_none rfl)).fail _ _ _ fun _ => rfl
  | proceed => exact .one rfl (.of_none rfl)
  | new => exact .same rfl

/-- **Every transition of an input flow** passes the registered argument, unless its error handler
is due for another. -/
theorem InputStep.adds (hs : InputStep cfg s p v e v') (ha : s.TimeoutArgIsPcb e) :
    v.Adds (s.pcb p).callbackArg v' := by
  cases hs with
  | sfMemory => exact (View.Adds.same rfl).emitIf _ (.of_some rfl)
  | @sf _ frame _ b buf =>
    have hopened : v.Adds (s.pcb p).callbackArg
        ((v.push b buf buf.length).emit (.opened p b frame.wire)) := .one rfl (.of_none rfl)
    have hstored : v.Adds (s.pcb p).callbackArg
        (((v.push b buf buf.length).emit (.opened p b frame.wire)).storeSf cfg p frame.data) :=
      hopened.trans (.one rfl (.of_none rfl))
    exact hstored.trans (View.Adds.deliver ..)
  | ffMemory => exact .same rfl
  | ffMemoryCallback => exact .one rfl (.of_some rfl)
  | ff => exact View.Adds.ffStore ..
  | ffCallback => exact .one rfl (.of_some rfl)
  | @resumeFf frame b buf =>
    have hback : v.Adds (s.pcb p).callbackArg ({ v with suspended := none } : View) := .same rfl
    exact hback.trans (View.Adds.ffStore _ p frame b buf _)
  | resumeFfMemory => exact .same rfl
  | @cfWrong _ frame =>
    exact (View.Adds.taken v p frame).trans (.one rfl (.of_none rfl))
  | @cfLast _ frame _ w _ _ _ _ hv =>
    -- only the hand-over invokes a callback
    have hstored : v.Adds (s.pcb p).callbackArg (w.setState .idle) :=
      (View.Adds.taken v p frame).trans (by rw [hv]; exact .one rfl (.of_none rfl))
    exact hstored.trans (View.Adds.deliver ..)
  | @cf _ frame _ w _ _ _ _ hv =>
    exact (View.Adds.taken v p frame).trans (by rw [hv]; exact .one rfl (.of_none rfl))
  | @block _ frame _ w _ _ _ _ hv =>
    exact (View.Adds.taken v p frame).trans (by rw [hv]; exact .one rfl (.of_none rfl))
  | skip => exact .same rfl
  | output => exact .one rfl (.of_none rfl)
  | reject => exact (View.Adds.one rfl (.of_none rfl)).fail _ _ _ fun _ => rfl
  | expire hf =>
    -- the handler passes what the timeout was armed with, the pcb
    have harg : (s.pcb p).error = true → (s.pcb p).callbackArg = .pcb p :=
      ha (p, .input) (Node.dueError_of_fires .input hf)
    exact (View.Adds.same rfl).fail _ _ _ fun hc => (harg hc).symm
  | confirm _ hw => exact (View.Adds.same rfl).trans hw.adds
  | refuse => exact (View.Adds.same rfl).trans (View.Adds.refused ..)
  | resume _ hw => exact (View.Adds.same rfl).trans hw.adds
  | release => exact .one rfl (.of_none rfl)
  | new => exact .same rfl

end Adds

/-! ### Steps and runs -/

namespace Node

variable {cfg : Config} {s s' : Node} {k : FlowId} {p : Nat} {e : Event} {es : List Event}

theorem added_of_adds {arg : Ptr} (h : (s.view k).Adds arg (s'.view k)) :
    ∀ o ∈ s.added s' k, o.Passes arg := by
  obtain ⟨l, hl, hp⟩ := h
  have hlog : s'.logOf k = s.logOf k ++ l := hl
  unfold added
  rw [hlog, List.drop_left]
  exact hp

/-- What an error handler adds to the log of its flow -/
theorem added_dueError {frame : CanFrame} {ret : Lwcanerr} (hk : s.dueError = some k)
    (herr : (s.pcb k.1).error = true) :
    ∃ err, .error k (.pcb k.1) err ∈ s.added (s.next cfg (.timer frame ret)) k := by
  -- both handlers give the message up and call back
  have hend : ∀ (t : Node) (err : Lwcanerr), t.log = s.log → t.pcb = s.pcb →
      .error k (.pcb k.1) err ∈
        s.added (((t.dropHead k).setState k .idle).callError k (.pcb k.1) err) k := by
    intro t err hlog hpcb
    -- giving the message up changes no callback
    have herr' : (((t.dropHead k).setState k .idle).pcb k.1).error = true := by
      simpa [setState, dropHead, emit, hpcb] using herr
    have hlog' : (((t.dropHead k).setState k .idle).callError k (.pcb k.1) err).logOf k =
        s.logOf k ++ [.dropped k (t.head k), .error k (.pcb k.1) err] := by
      unfold logOf
      rw [callError_log, if_pos herr', setState_log, dropHead_log, hlog]
      simp [Obs.flow]
    unfold added
    rw [hlog', List.drop_left]
    exact List.mem_cons_of_mem _ List.mem_cons_self
  unfold dueError due at hk
  unfold next
  cases hx : s.timeouts.expire s.now with
  | none =>
    rw [hx] at hk
    cases hk
  | some x =>
    obtain ⟨⟨t, hd, arg, m, st⟩, timeouts⟩ := x
    rw [hx] at hk
    simp only [Option.map_some] at hk
    split at hk
    · next p heq =>
      obtain ⟨rfl, rfl⟩ := Prod.mk.inj (Option.some.inj heq)
      obtain rfl := Option.some.inj hk
      exact ⟨_, hend { s with timeouts } _ rfl rfl⟩
    · next p heq =>
      obtain ⟨rfl, rfl⟩ := Prod.mk.inj (Option.some.inj heq)
      obtain rfl := Option.some.inj hk
      exact ⟨_, hend { s with timeouts } _ rfl rfl⟩
    · cases hk

/-- **A step passes the registered argument** if and only if it runs no error handler for
another. -/
theorem passesArg_iff (hs : Sound s) (hst : step cfg s e = some s') :
    PassesArg s s' ↔ s.TimeoutArgIsPcb e := by
  constructor
  · intro hpass
    cases e with
    | call | input | sent | resume | tick => trivial
    | timer frame ret =>
      intro k hk herr
      obtain ⟨-, rfl⟩ := step_eq_some.mp hst
      -- the entry that the handler adds passes the pcb
      obtain ⟨err, hmem⟩ := @added_dueError cfg s k frame ret hk herr
      exact (hpass k _ hmem (.pcb k.1) rfl).symm
  · rintro ha ⟨p, d⟩
    apply added_of_adds
    cases d with
    | output =>
      rcases (hs.moves hst).output p with he | hm
      · exact .same (by rw [he])
      · exact hm.adds ha
    | input =>
      rcases (hs.moves hst).input p with he | hm
      · exact .same (by rw [he])
      · exact hm.adds ha

/-- **Callbacks get the registered argument** in a run if and only if no timeout handler of a flow
runs, in any of its steps, for a pcb whose error callback has another argument than the pcb
itself. -/
theorem callback_args_iff (hr : Run cfg es s) :
    RunAlong cfg (fun s e => ∀ s' ∈ step cfg s e, PassesArg s s') es ↔
      RunAlong cfg TimeoutArgIsPcb es := by
  refine Runs.along_congr (I := Sound) (E := fun _ => True) ?_ (Sound.initial cfg)
    (fun _ _ => trivial) hr
  intro s e t hs _ hst
  refine ⟨?_, fun _ => hs.step hst⟩
  rw [← passesArg_iff hs hst]
  constructor
  · exact fun h => h t hst
  · intro h t' ht'
    obtain rfl := Option.some.inj (hst.symm.trans ht')
    exact h

/-- A message of eight bytes is on its way, with callbacks and the argument `arg`; its first frame
is confirmed, and no flow control comes. -/
def unanswered (arg : Ptr) : List Event := connected ++
  [.call (.isotpSetCallbacks 0 false false true true), .call (.isotpSetCallbackArg 0 arg),
    .call (.isotpSend (some 0) (some [1, 2, 3, 4, 5, 6, 7, 8]) ⟨some 1, some 2, fun _ => 0⟩),
    .timer ⟨0, 0, 0, fun _ => 0⟩ .ok, .sent (0, .output) .ok]

/-- The timeout for the flow control runs. -/
def fcTimeout : List Event := [.tick 1000, .timer ⟨0, 0, 0, fun _ => 0⟩ .ok]

/-- The registered argument is the pcb. -/
theorem callback_args_pcb : ∃ s, Run {} (unanswered (.pcb 0) ++ fcTimeout) s ∧
    (RunAlong {} (fun s e => ∀ s' ∈ step {} s e, PassesArg s s')
      (unanswered (.pcb 0) ++ fcTimeout) ↔
      RunAlong {} TimeoutArgIsPcb (unanswered (.pcb 0) ++ fcTimeout)) := by
  obtain ⟨s, hr, -⟩ := exists_run {} (unanswered (.pcb 0) ++ fcTimeout) (fun _ => True) (by decide)
  exact ⟨s, hr, callback_args_iff hr⟩

/-- **The error callback is handed the pcb** in place of the argument `user 7`. -/
theorem error_callback_gets_pcb : ¬∀ (cfg : Config) (es : List Event) (s : Node), Run cfg es s →
    RunAlong cfg (fun s e => ∀ s' ∈ step cfg s e, PassesArg s s') es := by
  intro h
  obtain ⟨s, hr, hadded⟩ := exists_run {} (unanswered (.user 7)) (fun s =>
    ((step {} s (.tick 1000)).bind fun t =>
      (step {} t (.timer ⟨0, 0, 0, fun _ => 0⟩ .ok)).map fun u =>
      (t.added u (0, .output), (t.pcb 0).callbackArg)) =
        some ([.dropped (0, .output) (some 1), .error (0, .output) (.pcb 0) .transmitTimeout],
          .user 7))
    (by decide)
  obtain ⟨t, ht, hu⟩ := Option.bind_eq_some_iff.mp hadded
  obtain ⟨u, hu, hpair⟩ := Option.map_eq_some_iff.mp hu
  obtain ⟨hlist, harg⟩ := Prod.mk.inj hpair
  have hrun : Run {} (unanswered (.user 7) ++ fcTimeout) u :=
    Runs.run_append.mpr ⟨s, hr, Runs.run_cons.mpr ⟨t, ht, Runs.run_cons.mpr ⟨u, hu, rfl⟩⟩⟩
  -- what it says of the step that runs the handler
  have hpass := (h {} _ u hrun).right hr
  have hlast := (hpass.2 t ht).1 u hu (0, .output) (.error (0, .output) (.pcb 0) .transmitTimeout)
    (by rw [hlist]; simp) (.pcb 0) rfl
  rw [harg] at hlast
  cases hlast

end Node
end Lwcan
