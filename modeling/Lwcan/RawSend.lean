import Lwcan.Stack

/-!
# The sends that wait

A call of `canraw_send` without a `sent` function waits until `raw_sent` has set `pcb->sent`, takes
the mark back and returns `pcb->sent_error`. The two fields belong to the pcb, not to the call: what
makes the error that is returned that of the call's own frame is an order that the callers and the
drivers keep to.

* `Orderly` — for each pcb one call waits at a time and the pcb is in use, a pcb is not removed
  under a call that waits, nothing happens between the two assignments of `raw_sent`, which is an
  interrupt, and the list of pcbs is not disturbed (`Raw.Undisturbed`);
* `Waits` — how the fields stand while a call waits; `SendsOk` — the invariant, with one lemma for
  each kind of step;
* `send_returns_own` — a call that waits returns once, with the error its own frame was confirmed
  with, and does so with its third access at the latest after that.
-/

namespace Lwcan

/-! ### Pcbs that stay -/

namespace Raw

variable {r v : Raw} {l : List Nat} {p : Nat} {o : Op} {ops : List Op}

theorem unlink_live (h : r.unlink p = some v) : v.live = r.live := by
  unfold unlink at h
  -- the head of the list, or a pcb that the loop finds, or none
  split at h
  · obtain rfl := Option.some.inj h
    rfl
  · split at h
    · cases h
    · obtain rfl := Option.some.inj h
      rfl
    · obtain rfl := Option.some.inj h
      rfl

theorem canrawNew_live (hp : r.canrawNew.1 = some p) : r.canrawNew.2.live = p :: r.live := by
  unfold canrawNew at hp ⊢
  split at hp
  · cases hp
  · next hnum =>
    rw [if_neg hnum]
    split at hp
    · cases hp
    · next q pool hm =>
      obtain rfl := Option.some.inj hp
      rfl

/-- **A new pcb** is none of those there are. -/
theorem ListOk.notMem_new (h : ListOk r l) (hf : Fits r .new) (hp : r.canrawNew.1 = some p) :
    p ∉ r.live := by
  have hlive := canrawNew_live hp
  -- `canraw_new` links the chunk in front of a list without repetitions
  rcases h.new hf with heq | ⟨q, hq⟩
  · rw [heq] at hlive
    exact absurd (congrArg List.length hlive) (by simp)
  · have hnd := hq.perm.nodup_iff.mp hq.linked.nodup
    rw [hlive] at hnd
    exact (List.nodup_cons.mp hnd).1

/-- An operation that does not remove a pcb keeps it. -/
theorem mem_live_apply (hp : p ∈ r.live) (ho : o ≠ .remove (some p)) (hv : r.apply o = some v) :
    p ∈ v.live := by
  cases o with
  | new =>
    -- a new pcb is added, if there is one
    obtain rfl := Option.some.inj hv
    show p ∈ r.canrawNew.2.live
    cases hq : r.canrawNew.1 with
    | none =>
      have hsame : r.canrawNew.2 = r := by
        unfold canrawNew at hq ⊢
        split
        · rfl
        · next hnum =>
          rw [if_neg hnum] at hq
          split at hq
          · rfl
          · cases hq
      rwa [hsame]
    | some q =>
      rw [canrawNew_live hq]
      exact List.mem_cons_of_mem _ hp
  | bind pcb addr =>
    obtain rfl := Option.some.inj hv
    show p ∈ (r.canrawBind pcb addr).2.live
    unfold canrawBind
    split
    · split
      · exact hp
      · exact hp
    · exact hp
  | setReceiveCallback pcb receive =>
    obtain rfl := Option.some.inj hv
    cases pcb <;> exact hp
  | setCallbackArg pcb arg =>
    obtain rfl := Option.some.inj hv
    cases pcb <;> exact hp
  | remove pcb =>
    cases pcb with
    | none =>
      obtain rfl := Option.some.inj hv
      exact hp
    | some q =>
      -- another pcb leaves
      rw [unlink_live (show Raw.unlink _ q = some v from hv)]
      exact (List.mem_erase_of_ne fun hq => ho (by rw [hq])).mpr hp

/-- **A row of operations** that does not remove a pcb keeps it, and makes no pcb of its memory. -/
theorem ListOk.keeps (h : ListOk r l) (hf : Runs.Along Raw.apply Fits r ops)
    (hv : Runs.run Raw.apply r ops = some v) (hp : p ∈ r.live)
    (hops : ∀ o ∈ ops, o ≠ .remove (some p)) : p ∈ v.live ∧ p ∉ r.made ops := by
  -- by induction on the row: each operation keeps the list in order and the pcb in it
  induction ops generalizing r l with
  | nil =>
    obtain rfl : r = v := Option.some.inj hv
    exact ⟨hp, List.not_mem_nil⟩
  | cons o ops ih =>
    obtain ⟨u, hu, hv⟩ := Runs.run_cons.mp hv
    obtain ⟨u', l', hu', hok, -⟩ := h.apply hf.1
    obtain rfl : u' = u := Option.some.inj (hu'.symm.trans hu)
    have hpu := mem_live_apply hp (hops o List.mem_cons_self) hu
    obtain ⟨hlive, hmade⟩ := ih hok (hf.2 _ hu) hv hpu fun o ho =>
      hops o (List.mem_cons_of_mem _ ho)
    refine ⟨hlive, ?_⟩
    unfold made
    rw [hu]
    cases o with
    | new =>
      -- what is made is not the pcb, which was there all the time
      intro hm
      rcases List.mem_append.mp hm with hnew | hrest
      · exact h.notMem_new hf.1 (Option.mem_toList.mp hnew) hp
      · exact hmade hrest
    | bind | setReceiveCallback | setCallbackArg | remove => exact hmade

/-- **A frame that comes in** keeps the pcbs that its callback does not remove, and makes none of
them. -/
theorem ListOk.input_keeps (h : ListOk r l) {j : Nat} {receive : Receive} {st : CanrawInputState}
    (hC : Undisturbed r (.input j receive)) (hv : r.canrawInput j receive = some (st, v))
    (hp : p ∈ r.live) (hops : ∀ o ∈ r.callbackOps j receive, o ≠ .remove (some p)) :
    p ∈ v.live ∧ p ∉ r.made (r.callbackOps j receive) := by
  unfold canrawInput at hv
  unfold callbackOps at hops ⊢
  unfold Undisturbed at hC
  dsimp only at hC
  cases hb : r.bound j with
  | none =>
    rw [hb] at hv
    cases hv
  | some found =>
    rw [hb] at hv hops hC
    cases found with
    | none =>
      -- no pcb is bound to the interface
      obtain ⟨-, rfl⟩ := Prod.mk.inj (Option.some.inj hv)
      exact ⟨hp, List.not_mem_nil⟩
    | some x =>
      obtain ⟨prev, q⟩ := x
      dsimp only at hv hops hC ⊢
      split at hv
      -- the pcb has no callback, or it is called and does what it does
      · next hr =>
        obtain ⟨-, rfl⟩ := Prod.mk.inj (Option.some.inj hv)
        rw [if_pos hr]
        exact ⟨hp, List.not_mem_nil⟩
      · next hr =>
        rw [if_neg hr] at hops ⊢
        split at hv
        · cases hv
        · next u hu =>
          obtain ⟨hlive, hmade⟩ := h.keeps (hC hr).1 hu hp hops
          refine ⟨?_, hmade⟩
          -- the pcb moves to the front of the list or stays where it is
          split at hv
          · obtain ⟨-, rfl⟩ := Prod.mk.inj (Option.some.inj hv)
            exact hlive
          · obtain ⟨-, rfl⟩ := Prod.mk.inj (Option.some.inj hv)
            cases prev with
            | none => exact hlive
            | some _ => exact hlive

end Raw

/-- The pcb that an operation removes -/
def Raw.Op.removes : Raw.Op → Option Nat
  | .remove pcb => pcb
  | .new | .bind _ _ | .setReceiveCallback _ _ | .setCallbackArg _ _ => none

/-- The second assignment of `raw_sent` -/
def StackEvent.isSentError : StackEvent → Bool
  | .sentError _ => true
  | .raw _ | .node _ | .input _ _ _ _ | .send _ _ _ _ _ _ _ | .proceed _ | .sent _ _ => false

/-- The call goes on. -/
def StackEvent.proceeds (id : Nat) : StackEvent → Bool
  | .proceed i => i = id
  | .raw _ | .node _ | .input _ _ _ _ | .send _ _ _ _ _ _ _ | .sent _ _ | .sentError _ => false

/-! ### What is seen of a call -/

/-- The call that an entry is about -/
def SendObs.call : SendObs → Option Nat
  | .output id _ _ _ _ _ _ | .awaited id _ | .confirmed id _ | .returned id _ => some id
  | .called _ _ _ => none

/-- The call waits. -/
def SendObs.isAwaited : SendObs → Bool
  | .awaited _ _ => true
  | .output _ _ _ _ _ _ _ | .confirmed _ _ | .called _ _ _ | .returned _ _ => false

/-- What a frame is confirmed with -/
def SendObs.confirmation : SendObs → Option Lwcanerr
  | .confirmed _ error => some error
  | .output _ _ _ _ _ _ _ | .awaited _ _ | .called _ _ _ | .returned _ _ => none

/-- What a call returns -/
def SendObs.result : SendObs → Option Lwcanerr
  | .returned _ ret => some ret
  | .output _ _ _ _ _ _ _ | .awaited _ _ | .confirmed _ _ | .called _ _ _ => none

namespace Stack

/-- What is seen of a call -/
def logOf (s : Stack) (id : Nat) : List SendObs := s.log.filter (·.call = some id)

/-- The call has waited. -/
def awaited (s : Stack) (id : Nat) : Bool := (s.logOf id).any SendObs.isAwaited

/-- What the frame of a call was confirmed with -/
def confirmations (s : Stack) (id : Nat) : List Lwcanerr :=
  (s.logOf id).filterMap SendObs.confirmation

/-- What a call has returned -/
def returns (s : Stack) (id : Nat) : List Lwcanerr := (s.logOf id).filterMap SendObs.result

/-- A call waits for the pcb. -/
def waitsFor (s : Stack) (pcb : Nat) : Bool :=
  (List.range s.calls).any fun id => (s.sends id).any fun x => x.1 = pcb

/-- `raw_sent` is between its two assignments. -/
def interrupted (s : Stack) : Bool := (List.range s.calls).any fun id => (s.confirming id).isSome

/-- A pcb that is sent with is in use, and no other call waits for it. -/
def OneWaits (s : Stack) : StackEvent → Prop
  | .send (some pcb) (some _) _ _ .null _ _ => pcb ∈ s.raw.live ∧ s.waitsFor pcb = false
  | _ => True

/-- No pcb is removed under a call that waits. -/
def Attended (s : Stack) (e : StackEvent) : Prop :=
  ∀ o ∈ s.rawOps e, ∀ p ∈ o.removes, s.waitsFor p = false

/-- Nothing happens between the two assignments of `raw_sent`. -/
def Uninterrupted (s : Stack) (e : StackEvent) : Prop := s.interrupted → e.isSentError

/-- **The order that callers and drivers keep to**: one call waits for a pcb at a time, and the pcb
is in use; no pcb is removed under it; nothing comes between the assignments of `raw_sent`; and
callbacks leave the list of pcbs as `canraw_input` needs it. -/
def Orderly (s : Stack) (e : StackEvent) : Prop :=
  s.OneWaits e ∧ s.Attended e ∧ s.Uninterrupted e ∧ ∀ re ∈ s.rawEvents e, s.raw.Undisturbed re

instance (s : Stack) : (e : StackEvent) → Decidable (s.OneWaits e)
  | .send (some pcb) (some _) _ _ .null _ _ =>
    inferInstanceAs (Decidable (pcb ∈ s.raw.live ∧ s.waitsFor pcb = false))
  | .send none _ _ _ _ _ _ | .send (some _) none _ _ _ _ _ | .send (some _) (some _) _ _
      (.pcb _) _ _
  | .send (some _) (some _) _ _
      (.user _) _ _ | .raw _ | .node _ | .input _ _ _ _ | .proceed _ | .sent _ _
  | .sentError _ => isTrue True.intro

instance (s : Stack) (e : StackEvent) : Decidable (s.Attended e) :=
  inferInstanceAs (Decidable (∀ o ∈ s.rawOps e, ∀ p ∈ o.removes, s.waitsFor p = false))

instance (s : Stack) (e : StackEvent) : Decidable (s.Uninterrupted e) :=
  inferInstanceAs (Decidable (s.interrupted = true → e.isSentError = true))

instance (s : Stack) (e : StackEvent) : Decidable (s.Orderly e) :=
  inferInstanceAs (Decidable (_ ∧ _ ∧ _ ∧ ∀ re ∈ s.rawEvents e, s.raw.Undisturbed re))

/-! ### The invariant -/

/-- **How the fields stand while a call waits**: its frame is on the bus, `raw_sent` is about to
store the error, or the error is there. -/
inductive Waits (s : Stack) (id p : Nat) : SendStage → Prop
  | flying (hf : s.frames id = some (.rawSent p)) (hc : s.confirming id = none)
      (hs : s.sent p = false) (hl : s.confirmations id = []) : Waits s id p .polling
  | marked {error : Lwcanerr} (hf : s.frames id = none) (hc : s.confirming id = some (p, error))
      (hs : s.sent p = true) (hl : s.confirmations id = [error]) : Waits s id p .polling
  | settled {stage : SendStage} (hf : s.frames id = none) (hc : s.confirming id = none)
      (hs : s.sent p = decide (stage ≠ .reading)) (hl : s.confirmations id = [s.sentError p]) :
    Waits s id p stage

/-- **A call** never waits, waits, or has returned what its frame was confirmed with. -/
inductive CallOk (s : Stack) (id : Nat) : Prop
  | apart (hs : s.sends id = none) (hf : ∀ p, s.frames id ≠ some (.rawSent p))
      (hc : s.confirming id = none) (hl : s.awaited id = false) : CallOk s id
  | waiting {p : Nat} {stage : SendStage} (hs : s.sends id = some (p, stage))
      (hw : Waits s id p stage) (hl : s.returns id = []) : CallOk s id
  | finished {error : Lwcanerr} (hs : s.sends id = none) (hf : s.frames id = none)
      (hc : s.confirming id = none) (hl : s.confirmations id = [error])
      (hr : s.returns id = [error]) :
    CallOk s id

/-- **The sends are in order.** -/
structure SendsOk (s : Stack) : Prop where
  list : ∃ l, Raw.ListOk s.raw l
  call : ∀ id, CallOk s id
  /-- One call waits for a pcb. -/
  one : ∀ i j p st st', s.sends i = some (p, st) → s.sends j = some (p, st') → i = j
  /-- Nobody waits for a pcb that is not live. -/
  live : ∀ i p st, s.sends i = some (p, st) → p ∈ s.raw.live
  /-- The mark of a pcb that no call waits for is down. -/
  down : ∀ p, (∀ i st, s.sends i ≠ some (p, st)) → s.sent p = false
  fresh : ∀ id, s.calls ≤ id →
    s.sends id = none ∧ s.frames id = none ∧ s.confirming id = none ∧ s.logOf id = []

variable {cfg : Config} {s t : Stack} {e : StackEvent} {id i p : Nat}

theorem logOf_emit (s : Stack) (o : SendObs) (id : Nat) :
    (s.emit o).logOf id = s.logOf id ++ if o.call = some id then [o] else [] := by
  unfold logOf emit
  rw [List.filter_append]
  congr 1
  by_cases h : o.call = some id
  · rw [if_pos h, List.filter_cons_of_pos (by simp [h]), List.filter_nil]
  · rw [if_neg h, List.filter_cons_of_neg (by simp [h]), List.filter_nil]

/-- What is logged about another call is not seen of this one. -/
theorem logOf_emit_of_ne (s : Stack) {o : SendObs} (h : o.call ≠ some id) :
    (s.emit o).logOf id = s.logOf id := by
  rw [logOf_emit, if_neg h, List.append_nil]

theorem logOf_emit_self (s : Stack) {o : SendObs} (h : o.call = some id) :
    (s.emit o).logOf id = s.logOf id ++ [o] := by
  rw [logOf_emit, if_pos h]

theorem confirmations_emit (s : Stack) {o : SendObs} (h : o.call = some id) :
    (s.emit o).confirmations id = s.confirmations id ++ o.confirmation.toList := by
  unfold confirmations
  rw [logOf_emit_self s h, List.filterMap_append]
  cases o <;> rfl

theorem returns_emit (s : Stack) {o : SendObs} (h : o.call = some id) :
    (s.emit o).returns id = s.returns id ++ o.result.toList := by
  unfold returns
  rw [logOf_emit_self s h, List.filterMap_append]
  cases o <;> rfl

theorem awaited_emit (s : Stack) {o : SendObs} (h : o.call = some id) :
    (s.emit o).awaited id = (s.awaited id || o.isAwaited) := by
  unfold awaited
  rw [logOf_emit_self s h, List.any_append, List.any_cons, List.any_nil, Bool.or_false]

/-- **A call of `canraw_send`** returns at once, or hands its frame over and waits. -/
theorem canrawSend_cases (s : Stack) (pcb : Option Nat) (frame : Option CanFrame)
    (frameSize timeout : Nat) (sent arg : Ptr) (ret : Lwcanerr) :
    (∃ frames l, s.canrawSend pcb frame frameSize timeout sent arg ret =
        { s with calls := s.calls + 1, frames, log := s.log ++ l } ∧
      (∀ o ∈ l, o.call = some s.calls ∧ o.isAwaited = false) ∧
      (frames = s.frames ∨ ∃ f a, frames = Function.update s.frames s.calls (some (.user f a)))) ∨
    ∃ p f canif, pcb = some p ∧ frame = some f ∧ sent = .null ∧
      s.canrawSend pcb frame frameSize timeout sent arg ret =
        { s with
          calls := s.calls + 1
          sends := Function.update s.sends s.calls (some (p, .polling))
          frames := Function.update s.frames s.calls (some (.rawSent p))
          log := s.log ++
            [.output s.calls canif f.canId f.wire frameSize timeout ret, .awaited s.calls p] } := by
  unfold canrawSend
  dsimp only
  split
  · next p f =>
    -- an interface of that index is looked for
    split
    · exact Or.inl
        ⟨s.frames, [.returned s.calls .canif], rfl, by simp [SendObs.call, SendObs.isAwaited],
        Or.inl rfl⟩
    · next canif hcanif =>
      have hlog : ∀ o o' : SendObs, s.log ++ [o] ++ [o'] = s.log ++ [o, o'] := fun o o' =>
        List.append_assoc _ _ _
      -- with a `sent` function the call is over; without one it waits if the driver took the frame
      split
      · refine Or.inl ⟨if ret = .ok then Function.update s.frames s.calls (some (.user sent arg))
            else s.frames, [.output s.calls canif f.canId f.wire frameSize timeout ret,
          .returned s.calls ret], ?_, by simp [SendObs.call, SendObs.isAwaited], ?_⟩
        · unfold output emit
          simp only [hlog]
        · split
          · exact Or.inr ⟨sent, arg, rfl⟩
          · exact Or.inl rfl
      · next hsent =>
        split
        · next hret =>
          refine Or.inl ⟨s.frames, [.output s.calls canif f.canId f.wire frameSize timeout ret,
            .returned s.calls ret], ?_, by simp [SendObs.call, SendObs.isAwaited], Or.inl rfl⟩
          unfold output emit
          simp only [hlog, if_neg hret]
        · next hret =>
          refine Or.inr ⟨p, f, canif, rfl, rfl, not_not.mp hsent, ?_⟩
          unfold output emit
          simp only [hlog, if_pos (not_not.mp hret)]
  · exact Or.inl
      ⟨s.frames, [.returned s.calls .arg], rfl, by simp [SendObs.call, SendObs.isAwaited],
      Or.inl rfl⟩

theorem logOf_append {l : List SendObs} (h : t.log = s.log ++ l) (i : Nat) :
    t.logOf i = s.logOf i ++ l.filter (·.call = some i) := by
  unfold logOf
  rw [h, List.filter_append]

/-- What is logged about one call is not seen of the others. -/
theorem logOf_append_of_ne {l : List SendObs} (h : t.log = s.log ++ l)
    (hl : ∀ o ∈ l, o.call = some id) (hi : i ≠ id) : t.logOf i = s.logOf i := by
  rw [logOf_append h, List.filter_eq_nil_iff.mpr, List.append_nil]
  intro o ho hcall
  exact hi (Option.some.inj ((of_decide_eq_true hcall).symm.trans (hl o ho)))

/-- **A call that a step does not touch** stays as it is. -/
theorem CallOk.congr (h : CallOk s id) (hs : t.sends id = s.sends id)
    (hf : t.frames id = s.frames id)
    (hc : t.confirming id = s.confirming id) (hl : t.logOf id = s.logOf id)
    (hp : ∀ p st, s.sends id = some (p, st) → t.sent p = s.sent p ∧ t.sentError p = s.sentError p) :
    CallOk t id := by
  have hconf : t.confirmations id = s.confirmations id := congrArg (List.filterMap _) hl
  have hret : t.returns id = s.returns id := congrArg (List.filterMap _) hl
  have haw : t.awaited id = s.awaited id := congrArg (List.any · _) hl
  -- every part of the case is read off fields that the step keeps
  cases h with
  | apart h₁ h₂ h₃ h₄ =>
    exact .apart (hs.trans h₁) (fun p => by rw [hf]; exact h₂ p) (hc.trans h₃) (haw.trans h₄)
  | @waiting p stage h₁ hw h₂ =>
    obtain ⟨hsent, herr⟩ := hp p stage h₁
    refine .waiting (hs.trans h₁) ?_ (hret.trans h₂)
    cases hw with
    | flying w₁ w₂ w₃ w₄ =>
      exact .flying (hf.trans w₁) (hc.trans w₂) (hsent.trans w₃) (hconf.trans w₄)
    | marked w₁ w₂ w₃ w₄ =>
      exact .marked (hf.trans w₁) (hc.trans w₂) (hsent.trans w₃) (hconf.trans w₄)
    | settled w₁ w₂ w₃ w₄ =>
      exact .settled (hf.trans w₁) (hc.trans w₂) (hsent.trans w₃) (by rw [hconf, w₄, herr])
  | finished h₁ h₂ h₃ h₄ h₅ =>
    exact .finished (hs.trans h₁) (hf.trans h₂) (hc.trans h₃) (hconf.trans h₄) (hret.trans h₅)

namespace SendsOk

theorem initial {chunk : Nat} (cfg : Config) (num : Nat) (hc : 0 < chunk) :
    SendsOk (lwcanInit cfg chunk num) where
  list := ⟨[], Raw.ListOk.initial num hc⟩
  call _ := .apart rfl nofun rfl rfl
  one := nofun
  live := nofun
  down _ _ := rfl
  fresh _ _ := ⟨rfl, rfl, rfl, rfl⟩

/-- A call that waits has a number. -/
theorem lt_of_sends (h : SendsOk s) {x : Nat × SendStage} (hs : s.sends id = some x) :
    id < s.calls := by
  by_contra hle
  rw [(h.fresh id (not_lt.mp hle)).1] at hs
  cases hs

theorem waitsFor_iff (h : SendsOk s) : s.waitsFor p = true ↔
    ∃ id st, s.sends id = some (p, st) := by
  unfold waitsFor
  rw [List.any_eq_true]
  constructor
  · rintro ⟨id, -, hx⟩
    obtain ⟨⟨q, st⟩, hs, hq⟩ := (Option.any_eq_true _ _).mp hx
    obtain rfl : q = p := of_decide_eq_true hq
    exact ⟨id, st, hs⟩
  · rintro ⟨id, st, hs⟩
    exact ⟨id, List.mem_range.mpr (h.lt_of_sends hs),
      (Option.any_eq_true _ _).mpr ⟨(p, st), hs, decide_eq_true rfl⟩⟩

/-- Between the two assignments of `raw_sent` -/
theorem interrupted_of (h : SendsOk s) {x : Nat × Lwcanerr} (hc : s.confirming id = some x) :
    s.interrupted = true := by
  have hlt : id < s.calls := by
    by_contra hle
    rw [(h.fresh id (not_lt.mp hle)).2.2.1] at hc
    cases hc
  unfold interrupted
  exact List.any_eq_true.mpr ⟨id, List.mem_range.mpr hlt, by rw [hc]; rfl⟩

/-! ### The steps -/

/-- **A step that sends nothing** keeps the order, if it leaves the fields of the pcbs that are
waited for alone, and the marks of the others down. -/
theorem same (h : SendsOk s) (hl : ∃ l, Raw.ListOk t.raw l) (hcalls : t.calls = s.calls)
    (hs : t.sends = s.sends) (hf : t.frames = s.frames) (hc : t.confirming = s.confirming)
    (hlog : t.log = s.log)
    (hw : ∀ p i st, s.sends i = some (p, st) →
      p ∈ t.raw.live ∧ t.sent p = s.sent p ∧ t.sentError p = s.sentError p)
    (hd : ∀ p, s.sent p = false → t.sent p = false) : SendsOk t where
  list := hl
  call id := by
    refine (h.call id).congr (congrFun hs id) (congrFun hf id) (congrFun hc id) ?_ fun p st hi => ?_
    · unfold logOf
      rw [hlog]
    · exact (hw p id st hi).2
  one := by
    rw [hs]
    exact h.one
  live := by
    rw [hs]
    exact fun i p st hi => (hw p i st hi).1
  down p hp := by
    rw [hs] at hp
    exact hd p (h.down p hp)
  fresh id hid := by
    rw [hcalls] at hid
    unfold logOf
    rw [hs, hf, hc, hlog]
    exact h.fresh id hid

/-- **A step of one call** keeps the order, if the call is left in order and the fields of the pcbs
that other calls wait for are left alone. -/
theorem touch (h : SendsOk s) (id : Nat) (hraw : t.raw = s.raw) (hcall : CallOk t id)
    (hs : ∀ i ≠ id, t.sends i = s.sends i) (hf : ∀ i ≠ id, t.frames i = s.frames i)
    (hc : ∀ i ≠ id, t.confirming i = s.confirming i) (hl : ∀ i ≠ id, t.logOf i = s.logOf i)
    (hp : ∀ i ≠ id, ∀ p st, s.sends i = some (p, st) → t.sent p = s.sent p ∧
      t.sentError p = s.sentError p)
    (hone : ∀ p st, t.sends id = some (p, st) → p ∈ s.raw.live ∧
      ∀ i ≠ id, ∀ st', s.sends i ≠ some (p, st'))
    (hdown : ∀ p, (∀ i st, t.sends i ≠ some (p, st)) → t.sent p = false)
    (hcalls : s.calls ≤ t.calls) (hid : id < t.calls) : SendsOk t where
  list := by
    rw [hraw]
    exact h.list
  call i := by
    -- the call of the step is in order as given, the others as before
    by_cases hi : i = id
    · rw [hi]
      exact hcall
    · exact (h.call i).congr (hs i hi) (hf i hi) (hc i hi) (hl i hi) (hp i hi)
  one i j p st st' hi hj := by
    -- two calls for one pcb: neither, one, or both of them are the call of the step
    by_cases hi' : i = id
    · by_cases hj' : j = id
      · rw [hi', hj']
      · rw [hi'] at hi
        rw [hs j hj'] at hj
        exact absurd hj ((hone p st hi).2 j hj' st')
    · rw [hs i hi'] at hi
      by_cases hj' : j = id
      · rw [hj'] at hj
        exact absurd hi ((hone p st' hj).2 i hi' st)
      · rw [hs j hj'] at hj
        exact h.one i j p st st' hi hj
  live i p st hi := by
    rw [hraw]
    by_cases hi' : i = id
    · rw [hi'] at hi
      exact (hone p st hi).1
    · rw [hs i hi'] at hi
      exact h.live i p st hi
  down := hdown
  fresh i hi := by
    -- a number not given yet is not that of the call
    have hne : i ≠ id := by omega
    rw [hs i hne, hf i hne, hc i hne, hl i hne]
    exact h.fresh i (hcalls.trans hi)

/-- What the other calls wait for is another pcb. -/
theorem ne_of_sends (h : SendsOk s) {st st' : SendStage} {q : Nat} (hs : s.sends id = some (p, st))
    (hi : i ≠ id) (hs' : s.sends i = some (q, st')) : q ≠ p := by
  rintro rfl
  exact hi (h.one i id q st' st hs' hs)

theorem alone (h : SendsOk s) {st : SendStage} (hs : s.sends id = some (p, st)) :
    ∀ i ≠ id, ∀ st', s.sends i ≠ some (p, st') :=
  fun _ hi _ hs' => h.ne_of_sends hs hi hs' rfl

/-- Another pcb that no call waits for after a step of this call -/
theorem down_of_update (h : SendsOk s) {st : SendStage} (hs : s.sends id = some (p, st)) {q : Nat}
    (hq : q ≠ p) {x : Option (Nat × SendStage)}
    (hno : ∀ i st, Function.update s.sends id x i ≠ some (q, st)) : s.sent q = false := by
  refine h.down q fun i st' hi => ?_
  by_cases hid : i = id
  · rw [hid, hs] at hi
    exact hq (Prod.mk.inj (Option.some.inj hi)).1.symm
  · exact hno i st' (by rw [Function.update_of_ne hid, hi])

/-- A call that goes on waiting waits for its own pcb. -/
theorem one_of_update (h : SendsOk s) {st st' : SendStage} (hs : s.sends id = some (p, st)) :
    ∀ q st'', Function.update s.sends id (some (p, st')) id = some (q, st'') →
      q ∈ s.raw.live ∧ ∀ i ≠ id, ∀ st'', s.sends i ≠ some (q, st'') := by
  intro q st'' hq
  rw [Function.update_self] at hq
  obtain ⟨rfl, -⟩ := Prod.mk.inj (Option.some.inj hq)
  exact ⟨h.live id p st hs, h.alone hs⟩

section Proceed

variable {stage : SendStage}

/-- `while (!pcb->sent)` is left. -/
theorem polled (h : SendsOk s) (hs : s.sends id = some (p, .polling)) (hw : Waits s id p .polling)
    (hsent : s.sent p = true) (hc : s.confirming id = none) (hl : s.returns id = []) :
    SendsOk { s with sends := Function.update s.sends id (some (p, .clearing)) } := by
  refine h.touch id rfl ?_ (fun i hi => Function.update_of_ne hi _ _) (fun _ _ => rfl)
    (fun _ _ => rfl)
    (fun _ _ => rfl) (fun _ _ _ _ _ => ⟨rfl, rfl⟩) (h.one_of_update hs) ?_ (Nat.le_refl _)
    (h.lt_of_sends hs)
  · refine .waiting (Function.update_self ..) ?_ hl
    -- the mark is up: `raw_sent` was here, and both its assignments are made
    cases hw with
    | flying hf hc hdown hconf =>
      rw [hdown] at hsent
      cases hsent
    | marked hf hc' hs' hconf =>
      rw [hc] at hc'
      cases hc'
    | settled hf hc hs' hconf => exact .settled hf hc hs' hconf
  · intro q hno
    -- the call still waits for its pcb
    by_cases hq : q = p
    · exact absurd (Function.update_self ..) (hq ▸ hno id .clearing)
    · exact h.down_of_update hs hq hno

/-- `pcb->sent = 0` -/
theorem taken (h : SendsOk s) (hs : s.sends id = some (p, .clearing)) (hw : Waits s id p .clearing)
    (hl : s.returns id = []) :
    SendsOk { s with
      sent := Function.update s.sent p false
      sends := Function.update s.sends id (some (p, .reading)) } := by
  refine h.touch id rfl ?_ (fun i hi => Function.update_of_ne hi _ _) (fun _ _ => rfl)
    (fun _ _ => rfl) (fun _ _ => rfl) ?_ (h.one_of_update hs) ?_ (Nat.le_refl _) (h.lt_of_sends hs)
  · -- past the loop only the settled case is left
    obtain hf | hc | ⟨hf, hc, hs', hconf⟩ := hw
    exact .waiting (Function.update_self ..) (.settled hf hc (Function.update_self ..) hconf) hl
  · intro i hi q st hq
    exact ⟨Function.update_of_ne (h.ne_of_sends hs hi hq) _ _, rfl⟩
  · intro q hno
    -- the mark of the pcb goes down while the call still waits for it
    by_cases hq : q = p
    · exact absurd (Function.update_self ..) (hq ▸ hno id .reading)
    · show Function.update s.sent p false q = false
      rw [Function.update_of_ne hq]
      exact h.down_of_update hs hq hno

/-- `ret = pcb->sent_error` -/
theorem returned (h : SendsOk s) (hs : s.sends id = some (p, .reading)) (hw : Waits s id p .reading)
    (hl : s.returns id = []) :
    SendsOk { s.emit (.returned id (s.sentError p)) with
      sends := Function.update s.sends id none } := by
  -- past the loop only the settled case is left
  obtain hf | hc | ⟨hf, hc, hsent, hconf⟩ := hw
  refine h.touch id rfl ?_ (fun i hi => Function.update_of_ne hi _ _) (fun _ _ => rfl)
    (fun _ _ => rfl) ?_ (fun _ _ _ _ _ => ⟨rfl, rfl⟩) ?_ ?_ (Nat.le_refl _) (h.lt_of_sends hs)
  · have hconf' : (s.emit (.returned id (s.sentError p))).confirmations id = [s.sentError p] := by
      rw [confirmations_emit s rfl, hconf]
      rfl
    have hret : (s.emit (.returned id (s.sentError p))).returns id = [s.sentError p] := by
      rw [returns_emit s rfl, hl]
      rfl
    exact .finished (Function.update_self ..) hf hc hconf' hret
  · intro i hi
    exact logOf_emit_of_ne s fun hcall => hi (Option.some.inj hcall).symm
  · intro q st hq
    have hnone : Function.update s.sends id none id = some (q, st) := hq
    rw [Function.update_self] at hnone
    cases hnone
  · intro q hno
    -- nobody waits for the pcb any more, and its mark is down
    by_cases hq : q = p
    · rw [hq]
      exact hsent
    · exact h.down_of_update hs hq hno

/-- **A call that waits** goes on. -/
theorem proceed_step (h : SendsOk s) (hu : s.interrupted = false) (hst : s.proceed id = some t) :
    SendsOk t := by
  unfold proceed at hst
  cases h.call id with
  | apart hs hf hc hl =>
    rw [hs] at hst
    cases hst
  | finished hs hf hc hl hr =>
    rw [hs] at hst
    cases hst
  | @waiting p stage hs hw hl =>
    rw [hs] at hst
    -- nothing comes between the two assignments of `raw_sent`
    have hnone : s.confirming id = none := by
      cases hc : s.confirming id with
      | none => rfl
      | some x =>
        rw [h.interrupted_of hc] at hu
        cases hu
    cases stage with
    | polling =>
      dsimp only at hst
      split at hst
      · next hsent =>
        obtain rfl := Option.some.inj hst
        exact h.polled hs hw hsent hnone hl
      · -- the mark is down: the loop reads it again
        obtain rfl := Option.some.inj hst
        exact h
    | clearing =>
      obtain rfl := Option.some.inj hst
      exact h.taken hs hw hl
    | reading =>
      obtain rfl := Option.some.inj hst
      exact h.returned hs hw hl

end Proceed

/-- **A driver confirms a frame**: that of the user is forgotten, that of a call that waits marks
its pcb. -/
theorem confirm_step (h : SendsOk s) {error : Lwcanerr} (hst : s.confirm id error = some t) :
    SendsOk t := by
  -- a frame that is confirmed belongs to a call that was made
  have hlt : id < s.calls := by
    by_contra hle
    unfold confirm at hst
    rw [(h.fresh id (not_lt.mp hle)).2.1] at hst
    cases hst
  have hother : ∀ i ≠ id, (s.emit (.confirmed id error)).logOf i = s.logOf i := fun i hi =>
    logOf_emit_of_ne s fun hcall => hi (Option.some.inj (show some id = some i from hcall)).symm
  unfold confirm at hst
  dsimp only at hst
  split at hst
  · cases hst
  · next sent arg hframe =>
    obtain rfl := Option.some.inj hst
    have hlog : ∀ i,
        (({ s with frames := Function.update s.frames id none }.emit (.confirmed id error)).emit
        (.called sent arg error)).logOf i = (s.emit (.confirmed id error)).logOf i := fun i =>
      logOf_emit_of_ne _ nofun
    -- the call has returned long since
    cases h.call id with
    | waiting hs hw hl =>
      cases hw with
      | flying hf =>
        rw [hf] at hframe
        cases hframe
      | marked hf | settled hf =>
        rw [hf] at hframe
        cases hframe
    | finished hs hf =>
      rw [hf] at hframe
      cases hframe
    | apart hs hf hc hl =>
      refine h.touch id rfl ?_ (fun _ _ => rfl) (fun i hi => Function.update_of_ne hi _ _)
        (fun _ _ => rfl)
        (fun i hi => (hlog i).trans (hother i hi)) (fun _ _ _ _ _ => ⟨rfl, rfl⟩) ?_ h.down
        (Nat.le_refl _) hlt
      · refine .apart hs (fun p => ?_) hc ?_
        · show Function.update s.frames id none id ≠ _
          rw [Function.update_self]
          nofun
        · have haw : (s.emit (.confirmed id error)).awaited id = false := by
            rw [awaited_emit s rfl, hl]
            rfl
          exact (congrArg (List.any · _) (hlog id)).trans haw
      · intro p st hp
        have hnone : s.sends id = some (p, st) := hp
        rw [hs] at hnone
        cases hnone
  -- the frame of a call without a `sent` function: `raw_sent` marks the pcb
  · next pcb hframe =>
    obtain rfl := Option.some.inj hst
    cases h.call id with
    | apart hs hf => exact absurd hframe (hf pcb)
    | finished hs hf =>
      rw [hf] at hframe
      cases hframe
    | @waiting p stage hs hw hl =>
      cases hw with
      | marked hf | settled hf =>
        rw [hf] at hframe
        cases hframe
      | flying hf hc hsent hconf =>
        obtain rfl : pcb = p := by
          rw [hf] at hframe
          exact (SentFunction.rawSent.inj (Option.some.inj hframe)).symm
        refine h.touch id rfl ?_ (fun _ _ => rfl) (fun i hi => Function.update_of_ne hi _ _)
          (fun i hi => Function.update_of_ne hi _ _) hother ?_ ?_ ?_ (Nat.le_refl _) hlt
        -- the call waits on, its pcb marked
        · have hconf' : (s.emit (.confirmed id error)).confirmations id = [error] := by
            rw [confirmations_emit s rfl, hconf]
            rfl
          have hret : (s.emit (.confirmed id error)).returns id = [] := by
            rw [returns_emit s rfl, hl]
            rfl
          exact .waiting hs (.marked (Function.update_self ..) (Function.update_self ..)
            (Function.update_self ..) hconf') hret
        · intro i hi q st hq
          exact ⟨Function.update_of_ne (h.ne_of_sends hs hi hq) _ _, rfl⟩
        · intro q st hq
          have hq' : s.sends id = some (q, st) := hq
          exact ⟨h.live id q st hq', h.alone hq'⟩
        · intro q hno
          have hne : q ≠ pcb := by
            rintro rfl
            exact hno id _ hs
          show Function.update s.sent pcb true q = false
          rw [Function.update_of_ne hne]
          exact h.down q hno

/-- **`raw_sent` stores the error** of the call that waits. -/
theorem rawSent_step (h : SendsOk s) (hst : s.rawSent id = some t) : SendsOk t := by
  obtain ⟨⟨q, error⟩, hconfirming, rfl⟩ := Option.map_eq_some_iff.mp hst
  cases h.call id with
  | apart hs hf hc =>
    rw [hc] at hconfirming
    cases hconfirming
  | finished hs hf hc =>
    rw [hc] at hconfirming
    cases hconfirming
  | @waiting p stage hs hw hl =>
    cases hw with
    | flying hf hc | settled hf hc =>
      rw [hc] at hconfirming
      cases hconfirming
    -- only a pcb that was marked has an error to come
    | @marked error' hf hc hsent hconf =>
      rw [hc] at hconfirming
      obtain ⟨rfl, rfl⟩ := Prod.mk.inj (Option.some.inj hconfirming)
      refine h.touch id rfl ?_ (fun _ _ => rfl) (fun _ _ => rfl)
        (fun i hi => Function.update_of_ne hi _ _)
        (fun _ _ => rfl) ?_ ?_ h.down (Nat.le_refl _) (h.lt_of_sends hs)
      · refine .waiting hs (.settled hf (Function.update_self ..) hsent ?_) hl
        show s.confirmations id = [Function.update s.sentError p error' p]
        rw [Function.update_self, hconf]
      · intro i hi q st hq
        exact ⟨rfl, Function.update_of_ne (h.ne_of_sends hs hi hq) _ _⟩
      · intro q st hq
        have hq' : s.sends id = some (q, st) := hq
        exact ⟨h.live id q st hq', h.alone hq'⟩

/-- A call that does not wait keeps the order. -/
theorem apart_step (h : SendsOk s) {frames : Nat → Option SentFunction} {l : List SendObs}
    (hl : ∀ o ∈ l, o.call = some s.calls ∧ o.isAwaited = false)
    (hf : frames = s.frames ∨ ∃ f a, frames = Function.update s.frames s.calls (some (.user f a))) :
    SendsOk { s with calls := s.calls + 1, frames, log := s.log ++ l } := by
  -- the new call has a number that nothing is recorded under
  obtain ⟨hs₀, hf₀, hc₀, hl₀⟩ := h.fresh s.calls (Nat.le_refl _)
  refine h.touch s.calls rfl (.apart hs₀ ?_ hc₀ ?_) (fun _ _ => rfl) ?_ (fun _ _ => rfl)
    (fun i hi => logOf_append_of_ne rfl (fun o ho => (hl o ho).1) hi)
    (fun _ _ _ _ _ => ⟨rfl, rfl⟩) ?_ h.down (Nat.le_succ _) (Nat.lt_succ_self _)
  · show ∀ p, frames s.calls ≠ some (.rawSent p)
    rcases hf with rfl | ⟨f, a, rfl⟩
    · rw [hf₀]
      nofun
    · rw [Function.update_self]
      nofun
  · unfold awaited
    rw [logOf_append (s := s) rfl, hl₀, List.nil_append, List.any_eq_false]
    intro o hm
    rw [(hl o (List.mem_of_mem_filter hm)).2]
    exact Bool.false_ne_true
  · intro i hi
    rcases hf with rfl | ⟨f, a, rfl⟩
    · rfl
    · exact Function.update_of_ne hi _ _
  · intro p st hp
    have hnone : s.sends s.calls = some (p, st) := hp
    rw [hs₀] at hnone
    cases hnone

/-- A call that waits keeps the order, if no other call waits for its pcb. -/
theorem wait_step (h : SendsOk s) {l : List SendObs} (hlive : p ∈ s.raw.live)
    (hfree : s.waitsFor p = false)
    (hl : ∀ o ∈ l, o.call = some s.calls ∧ o.confirmation = none ∧ o.result = none) :
    SendsOk { s with
      calls := s.calls + 1
      sends := Function.update s.sends s.calls (some (p, .polling))
      frames := Function.update s.frames s.calls (some (.rawSent p))
      log := s.log ++ l } := by
  obtain ⟨hs₀, -, hc₀, hl₀⟩ := h.fresh s.calls (Nat.le_refl _)
  -- no other call polls the fields that this one is going to poll
  have hnot : ∀ i st, s.sends i ≠ some (p, st) := by
    intro i st hi
    rw [h.waitsFor_iff.mpr ⟨i, st, hi⟩] at hfree
    cases hfree
  -- the call has no confirmation and no result yet
  have hnil : ∀ g : SendObs → Option Lwcanerr, (∀ o ∈ l, g o = none) →
      List.filterMap g (s.logOf s.calls ++ l.filter (·.call = some s.calls)) = [] := by
    intro g hg
    rw [hl₀, List.nil_append, List.filterMap_eq_nil_iff]
    exact fun o hm => hg o (List.mem_of_mem_filter hm)
  refine h.touch s.calls rfl ?_ (fun i hi => Function.update_of_ne hi _ _)
    (fun i hi => Function.update_of_ne hi _ _) (fun _ _ => rfl)
    (fun i hi => logOf_append_of_ne rfl (fun o ho => (hl o ho).1) hi)
    (fun _ _ _ _ _ => ⟨rfl, rfl⟩) ?_ ?_ (Nat.le_succ _) (Nat.lt_succ_self _)
  · refine .waiting (Function.update_self ..)
      (.flying (Function.update_self ..) hc₀ (h.down p hnot) ?_) ?_
    · unfold confirmations
      rw [logOf_append (s := s) rfl]
      exact hnil _ fun o ho => (hl o ho).2.1
    · unfold returns
      rw [logOf_append (s := s) rfl]
      exact hnil _ fun o ho => (hl o ho).2.2
  · intro q st hq
    have hq' : Function.update s.sends s.calls (some (p, .polling)) s.calls = some (q, st) := hq
    rw [Function.update_self] at hq'
    obtain ⟨rfl, -⟩ := Prod.mk.inj (Option.some.inj hq')
    exact ⟨hlive, fun i _ st' => hnot i st'⟩
  · intro q hno
    refine h.down q fun i st hi => ?_
    by_cases hic : i = s.calls
    · rw [hic, hs₀] at hi
      cases hi
    · exact hno i st ((Function.update_of_ne hic _ _).trans hi)

/-- **A call of `canraw_send`** keeps the order. -/
theorem send_step (h : SendsOk s) {pcb : Option Nat} {frame : Option CanFrame}
    {frameSize timeout : Nat}
    {sent arg : Ptr} {ret : Lwcanerr}
    (ho : s.OneWaits (.send pcb frame frameSize timeout sent arg ret)) :
    SendsOk (s.canrawSend pcb frame frameSize timeout sent arg ret) := by
  rcases canrawSend_cases s pcb frame frameSize timeout sent arg ret with
    ⟨frames, l, ht, hl, hframes⟩ | ⟨p, f, canif, rfl, rfl, rfl, ht⟩
  · rw [ht]
    exact h.apart_step hl hframes
  · rw [ht]
    exact h.wait_step ho.1 ho.2 (by simp [SendObs.call, SendObs.confirmation, SendObs.result])

/-- **What the user does with raw pcbs**, in a callback or outside, keeps the order, if it removes
no pcb that a call waits for. -/
theorem cleared_step (h : SendsOk s) {raw : Raw} {node : Node} {made : List Nat}
    (hl : ∃ l, Raw.ListOk raw l)
    (hw : ∀ p, s.waitsFor p = true → p ∈ raw.live ∧ p ∉ made) :
    SendsOk ({ s with raw, node }.cleared made) := by
  refine h.same hl rfl rfl rfl rfl rfl (fun p i st hi => ?_) fun p hp => ?_
  · obtain ⟨hlive, hmade⟩ := hw p (h.waitsFor_iff.mpr ⟨i, st, hi⟩)
    exact ⟨hlive, if_neg hmade, if_neg hmade⟩
  · show (if p ∈ made then false else s.sent p) = false
    rw [hp, ite_self]

/-- **Every step** keeps the order. -/
theorem step (h : SendsOk s) (ho : s.Orderly e) (hst : Stack.step cfg s e = some t) :
    SendsOk t := by
  obtain ⟨hone, hatt, hun, hraw⟩ := ho
  obtain ⟨l, hl⟩ := h.list
  -- no operation of the step removes a pcb that a call waits for
  have hkept : ∀ o ∈ s.rawOps e, ∀ p, s.waitsFor p = true → o ≠ .remove (some p) := by
    rintro o hmem p hp rfl
    rw [hatt _ hmem p rfl] at hp
    cases hp
  have hlive : ∀ p, s.waitsFor p = true → p ∈ s.raw.live := by
    intro p hp
    obtain ⟨i, st, hi⟩ := h.waitsFor_iff.mp hp
    exact h.live i p st hi
  -- the only event between the assignments of `raw_sent` is the second of them
  have hnot : e.isSentError = false → s.interrupted = false := by
    intro hne
    refine Bool.eq_false_iff.mpr fun hi => ?_
    rw [hun hi] at hne
    cases hne
  cases e with
  | raw o =>
    obtain ⟨r, hr, rfl⟩ := Option.map_eq_some_iff.mp hst
    have hfits : Raw.Fits s.raw o := hraw (.op o) List.mem_cons_self
    obtain ⟨r', l', hr', hok, -⟩ := hl.apply hfits
    obtain rfl : r' = r := Option.some.inj (hr'.symm.trans hr)
    have hfit : Runs.Along Raw.apply Raw.Fits s.raw [o] := ⟨hfits, fun _ _ => True.intro⟩
    exact h.cleared_step ⟨l', hok⟩ fun p hp =>
      hl.keeps hfit (Runs.run_cons.mpr ⟨r', hr, rfl⟩) (hlive p hp) fun o ho => hkept o ho p hp
  | node e =>
    change s.nodeStep cfg e = some t at hst
    unfold nodeStep at hst
    split at hst
    · cases hst
    · obtain ⟨n, -, rfl⟩ := Option.map_eq_some_iff.mp hst
      exact h.same ⟨l, hl⟩ rfl rfl rfl rfl rfl
        (fun p i st hi => ⟨h.live i p st hi, rfl, rfl⟩) fun _ hp => hp
  | input canif frame receive g =>
    have hin := hst
    change s.canifInput cfg canif frame receive g = some t at hin
    unfold canifInput at hin
    split at hin
    · obtain ⟨⟨err, r, n⟩, hx, rfl⟩ := Option.map_eq_some_iff.mp hin
      rcases canifInput_cases hst with ⟨harg, hparts⟩ | ⟨c, f, st, rfl, rfl, hr, -, -⟩
      · -- nothing is offered to anybody
        have hnone : s.rawOps (.input canif frame receive g) = [] := by
          rcases harg with rfl | rfl
          · rfl
          · cases canif <;> rfl
        have hsame : r = s.raw := hparts.raw
        rw [hnone, hsame]
        exact h.cleared_step ⟨l, hl⟩ fun p hp => ⟨hlive p hp, List.not_mem_nil⟩
      -- the frame is offered to the raw pcbs, and the callback that gets it may do what it likes to
      -- them
      · have hdist := hraw _ List.mem_cons_self
        have hrun : s.raw.canrawInput (s.node.canifs.canifGetIndex (some c)) receive =
            some (st, r) := hr
        obtain ⟨v, hv, hok⟩ := hl.input hdist
        have hv' : (s.raw.canrawInput (s.node.canifs.canifGetIndex (some c)) receive).map Prod.snd =
            some v := hv
        rw [hrun] at hv'
        obtain rfl : r = v := Option.some.inj hv'
        exact h.cleared_step hok fun p hp =>
          hl.input_keeps hdist hrun (hlive p hp) fun o ho => hkept o ho p hp
    · cases hin
  | send pcb frame frameSize timeout sent arg ret =>
    obtain rfl := Option.some.inj hst
    exact h.send_step hone
  | proceed id => exact h.proceed_step (hnot rfl) hst
  | sent id error => exact h.confirm_step hst
  | sentError id => exact h.rawSent_step hst

theorem run {es : List StackEvent} (h : SendsOk s) (hr : Runs.run (Stack.step cfg) s es = some t)
    (ho : Runs.Along (Stack.step cfg) Orderly s es) : SendsOk t :=
  Runs.run_inv (fun _ _ _ h ho hst => h.step ho hst) h ho hr

end SendsOk

/-! ### A call whose frame was confirmed returns -/

/-- How many accesses a call that waits has before it once its frame is confirmed -/
def left (s : Stack) (id : Nat) : Nat :=
  match s.sends id with
  | some (_, .polling) => 3
  | some (_, .clearing) => 2
  | some (_, .reading) => 1
  | none => 0

theorem left_le (s : Stack) (id : Nat) : s.left id ≤ 3 := by
  unfold left
  split <;> omega

/-- A step of other parts changes nothing of the calls, and logs nothing. -/
theorem input_sends {canif : Option Nat} {frame : Option CanFrame} {receive : Raw.Receive}
    {g : Grant}
    (hst : s.canifInput cfg canif frame receive g = some t) :
    t.sends = s.sends ∧ t.log = s.log := by
  unfold canifInput at hst
  split at hst
  · obtain ⟨x, -, rfl⟩ := Option.map_eq_some_iff.mp hst
    exact ⟨rfl, rfl⟩
  · cases hst

theorem nodeStep_sends {e : Event} (hst : s.nodeStep cfg e = some t) :
    t.sends = s.sends ∧ t.log = s.log := by
  unfold nodeStep at hst
  split at hst
  · cases hst
  · obtain ⟨n, -, rfl⟩ := Option.map_eq_some_iff.mp hst
    exact ⟨rfl, rfl⟩

/-- **What a step makes of the calls**: the log grows, and a call that is there changes only when it
goes on. -/
theorem sends_step (hst : step cfg s e = some t) : (∃ l, t.log = s.log ++ l) ∧
    (id < s.calls → e.proceeds id = false → t.sends id = s.sends id) := by
  have hsame : t.sends = s.sends ∧ t.log = s.log → (∃ l, t.log = s.log ++ l) ∧
      (id < s.calls → e.proceeds id = false → t.sends id = s.sends id) := by
    rintro ⟨hs, hl⟩
    exact ⟨⟨[], by rw [hl, List.append_nil]⟩, fun _ _ => congrFun hs id⟩
  cases e with
  | raw o =>
    obtain ⟨r, -, rfl⟩ := Option.map_eq_some_iff.mp hst
    exact hsame ⟨rfl, rfl⟩
  | node e => exact hsame (nodeStep_sends hst)
  | input canif frame receive g => exact hsame (input_sends hst)
  | send pcb frame frameSize timeout sent arg ret =>
    obtain rfl := Option.some.inj hst
    rcases canrawSend_cases s pcb frame frameSize timeout sent arg ret with
      ⟨frames, l, ht, -⟩ | ⟨p, f, canif, -, -, -, ht⟩
    · rw [ht]
      exact ⟨⟨l, rfl⟩, fun _ _ => rfl⟩
    · rw [ht]
      exact ⟨⟨_, rfl⟩, fun hid _ => Function.update_of_ne (Nat.ne_of_lt hid) _ _⟩
  | proceed i =>
    change s.proceed i = some t at hst
    -- another call is not touched when this one goes on
    have hne : ∀ x, (StackEvent.proceed i).proceeds id = false →
        Function.update s.sends i x id = s.sends id :=
      fun x hp => Function.update_of_ne (fun h => of_decide_eq_false hp h.symm) _ _
    unfold proceed at hst
    -- where the call stands: not waiting, polling, taking the mark back, reading the error
    split at hst
    · cases hst
    · split at hst
      · obtain rfl := Option.some.inj hst
        exact ⟨⟨[], (List.append_nil _).symm⟩, fun _ => hne _⟩
      · obtain rfl := Option.some.inj hst
        exact hsame ⟨rfl, rfl⟩
    · obtain rfl := Option.some.inj hst
      exact ⟨⟨[], (List.append_nil _).symm⟩, fun _ => hne _⟩
    · obtain rfl := Option.some.inj hst
      exact ⟨⟨_, rfl⟩, fun _ => hne _⟩
  | sent i error =>
    change s.confirm i error = some t at hst
    unfold confirm at hst
    dsimp only at hst
    split at hst
    · cases hst
    · obtain rfl := Option.some.inj hst
      exact ⟨⟨_, List.append_assoc _ _ _⟩, fun _ _ => rfl⟩
    · obtain rfl := Option.some.inj hst
      exact ⟨⟨_, rfl⟩, fun _ _ => rfl⟩
  | sentError i =>
    obtain ⟨x, -, rfl⟩ := Option.map_eq_some_iff.mp hst
    exact hsame ⟨rfl, rfl⟩

/-- What was confirmed stays so. -/
theorem confirmations_prefix {l : List SendObs} (h : t.log = s.log ++ l) (id : Nat) :
    s.confirmations id <+: t.confirmations id := by
  unfold confirmations
  rw [logOf_append h, List.filterMap_append]
  exact List.prefix_append _ _

/-- **Each access of a call whose frame was confirmed** brings it nearer to its return. -/
theorem left_step (h : SendsOk s) (ho : s.Orderly e) (hc : s.confirmations id ≠ [])
    (hst : step cfg s e = some t) : t.left id + (e.proceeds id).toNat ≤ s.left id := by
  -- only an access of the call itself is counted, and each is one step nearer
  cases hp : e.proceeds id with
  | false =>
    have hid : id < s.calls := by
      by_contra hle
      have hnil : s.confirmations id = [] := by
        unfold confirmations
        rw [(h.fresh id (not_lt.mp hle)).2.2.2]
        rfl
      exact hc hnil
    unfold left
    rw [(sends_step hst).2 hid hp]
    exact Nat.le_refl _
  | true =>
    cases e with
    | raw | node | input | send | sent | sentError => cases hp
    | proceed i =>
      obtain rfl : i = id := of_decide_eq_true hp
      have hun : s.interrupted = false := by
        refine Bool.eq_false_iff.mpr fun hi => ?_
        cases ho.2.2.1 hi
      change s.proceed i = some t at hst
      unfold proceed at hst
      cases h.call i with
      | apart hs =>
        rw [hs] at hst
        cases hst
      | finished hs =>
        rw [hs] at hst
        cases hst
      | @waiting p stage hs hw =>
        rw [hs] at hst
        have hleft : ∀ {x : Option (Nat × SendStage)} {u : Stack}, u.sends =
            Function.update s.sends i x →
            u.sends i = x := fun hu => by rw [hu, Function.update_self]
        cases hw with
        | flying hf hcf hsent hconf => exact absurd hconf hc
        | marked hf hcf =>
          rw [h.interrupted_of hcf] at hun
          cases hun
        -- the frame was confirmed and both assignments are made
        | settled hf hcf hsent hconf =>
          cases stage with
          | polling =>
            dsimp only at hst
            rw [if_pos (by simp [hsent])] at hst
            obtain rfl := Option.some.inj hst
            unfold left
            rw [hs, hleft rfl]
            exact Nat.le_refl 3
          | clearing =>
            obtain rfl := Option.some.inj hst
            unfold left
            rw [hs, hleft rfl]
            exact Nat.le_refl 2
          | reading =>
            obtain rfl := Option.some.inj hst
            unfold left
            rw [hs, hleft rfl]
            exact Nat.le_refl 1

/-- A call whose frame was confirmed, along a run -/
theorem left_run {fs : List StackEvent} (h : SendsOk s) (hc : s.confirmations id ≠ [])
    (ho : Runs.Along (step cfg) Orderly s fs) (hr : Runs.run (step cfg) s fs = some t) :
    fs.countP (·.proceeds id) + t.left id ≤ s.left id ∧ ∃ l, t.log = s.log ++ l := by
  let rank := fun u : Stack => u.left id
  let I := fun u : Stack => SendsOk u ∧ ∃ l, u.log = s.log ++ l
  -- what a step adds to the log leaves what was confirmed in place
  have hstep : ∀ a e b, I a → a.Orderly e → step cfg a e = some b →
      I b ∧ rank b + (e.proceeds id).toNat ≤ rank a := by
    rintro a e b ⟨ha, l, hl⟩ ho hst
    obtain ⟨⟨l', hl'⟩, -⟩ := @sends_step cfg a b e id hst
    have hne : a.confirmations id ≠ [] := fun hnil =>
      hc (List.prefix_nil.mp (hnil ▸ confirmations_prefix hl id))
    refine ⟨⟨ha.step ho hst, l ++ l', ?_⟩, left_step ha ho hne hst⟩
    rw [hl', hl, List.append_assoc]
  have hI : I s := ⟨h, [], (List.append_nil _).symm⟩
  constructor
  · have hle := Runs.picked_length_add_le hstep hI ho hr
    rwa [Runs.picked_of_event hr, ← List.countP_eq_length_filter] at hle
  · have hend : I t := Runs.run_inv (fun a e b ha ho hst => (hstep a e b ha ho hst).1) hI ho hr
    exact hend.2

/-- **A send that waits returns once, with what its own frame was confirmed with**, in every order
of calls, confirmations and frames that come in that the callers and the drivers keep to. It does
not return before the frame is confirmed, and returns with the third of its accesses after that at
the latest. -/
theorem send_returns_own {chunk num : Nat} {es : List StackEvent} (hc : 0 < chunk)
    (hr : Runs.run (step cfg) (lwcanInit cfg chunk num) es = some s)
    (ho : Runs.Along (step cfg) Orderly (lwcanInit cfg chunk num) es) (hw : s.awaited id) :
    (s.sends id ≠ none ∧ s.returns id = [] ∧ (s.confirmations id).length ≤ 1 ∨
      ∃ error, s.confirmations id = [error] ∧ s.returns id = [error]) ∧
    ∀ fs t, s.confirmations id ≠ [] → Runs.Along (step cfg) Orderly s fs →
      Runs.run (step cfg) s fs = some t → fs.countP (·.proceeds id) ≤ 3 ∧
        (fs.countP (·.proceeds id) = 3 → t.returns id = s.confirmations id) := by
  have h : SendsOk s := (SendsOk.initial cfg num hc).run hr ho
  constructor
  · -- a call that has waited still waits, or has returned
    cases h.call id with
    | apart hs hf hcf hl =>
      rw [hl] at hw
      cases hw
    | waiting hs hst hl =>
      refine Or.inl ⟨by rw [hs]; nofun, hl, ?_⟩
      obtain ⟨-, -, -, hconf⟩ | ⟨-, -, -, hconf⟩ | ⟨-, -, -, hconf⟩ := hst
      · rw [hconf]
        exact Nat.zero_le 1
      · rw [hconf]
        exact Nat.le_refl 1
      · rw [hconf]
        exact Nat.le_refl 1
    | finished hs hf hcf hconf hret => exact Or.inr ⟨_, hconf, hret⟩
  · intro fs t hconf ho' hr'
    obtain ⟨hle, l, hlog⟩ := left_run h hconf ho' hr'
    have hthree := left_le s id
    refine ⟨by omega, fun hcount => ?_⟩
    -- three accesses use up all that were left
    have hzero : t.left id = 0 := by omega
    have hpre := confirmations_prefix hlog id
    cases (h.run hr' ho').call id with
    | apart hs hf hcf hl =>
      unfold awaited at hw hl
      rw [logOf_append hlog, List.any_append, hw] at hl
      cases hl
    | @waiting p stage hs =>
      unfold left at hzero
      rw [hs] at hzero
      cases stage <;> cases hzero
    | finished hs hf hcf hconf' hret =>
      rw [hconf'] at hpre
      have hlen : (s.confirmations id).length = 1 :=
        Nat.le_antisymm hpre.length_le (List.length_pos_of_ne_nil hconf)
      rw [hret]
      exact (hpre.eq_of_length hlen).symm

/-- A raw pcb on an interface -/
def bound : List StackEvent :=
  [.node
    (.call
      (.canifAdd (some 0) (some [0x63]) (some fun c => (.ok, { c with output := .driver 0 })))),
    .raw .new, .raw (.bind (some 0) (some 1))]

/-- A frame with two bytes -/
def frame : CanFrame := ⟨0x123, 2, 0, fun _ => 0x55⟩

/-- A frame is sent, polled for, and fails: the call returns the error with the third access after
that. -/
theorem send_returns_own_failed : ∃ s t,
    Runs.run (step {}) (lwcanInit {} 24 2)
      (bound ++ [.send (some 0) (some frame) 16 100 .null .null .ok,
      .proceed 0, .sent 0 (.driver 5), .sentError 0]) = some s ∧
    Runs.run (step {}) s [.proceed 0, .proceed 0, .proceed 0] = some t ∧
    s.confirmations 0 = [.driver 5] ∧ t.returns 0 = s.confirmations 0 := by
  obtain ⟨s, hr, hw, hconf, hrest⟩ := Runs.exists_run (step {}) (lwcanInit {} 24 2)
    (bound ++ [.send (some 0) (some frame) 16 100 .null .null .ok, .proceed 0, .sent 0 (.driver 5),
      .sentError 0])
    (fun s => s.awaited 0 = true ∧ s.confirmations 0 = [.driver 5] ∧
      Runs.Along (step {}) Orderly s [.proceed 0, .proceed 0, .proceed 0] ∧
        ((Runs.run (step {}) s [.proceed 0, .proceed 0, .proceed 0]).isSome = true)) (by decide)
  obtain ⟨ho, hsome⟩ := hrest
  obtain ⟨t, ht⟩ := Option.isSome_iff_exists.mp hsome
  have hown := (send_returns_own (by decide) hr (by decide) hw).2 _ t (by rw [hconf]; nofun) ho ht
  exact ⟨s, t, hr, ht, hconf, hown.2 (by decide)⟩

/-- If the call goes on between the two assignments of `raw_sent`, it returns what the pcb held
before: the frame failed, and the call says that it was sent. -/
example : ∃ s, Runs.run (step {}) (lwcanInit {} 24 2)
    (bound ++ [.send (some 0) (some frame) 16 100 .null
      .null .ok, .sent 0 (.driver 5), .proceed 0, .proceed 0, .proceed 0, .sentError 0]) = some s ∧
    s.confirmations 0 = [.driver 5] ∧ s.returns 0 = [.ok] :=
  Runs.exists_run (step {}) _ _ _ (by decide)

end Stack
end Lwcan
