import Mathlib.Data.List.TakeWhile
import Lwcan.IsotpIn
import Lwcan.RawList

/-!
# What a raw pcb is offered

A frame should be offered to every raw pcb that is bound to the interface it came from, in the order
of the list, until the callback of one of them eats it. `canraw_input` stops at the first pcb that
is bound to the interface: if that one has no callback, or its callback leaves the frame alone, the
others are not asked.

* `offer` — what should happen: the calls, who eats the frame, and the pcbs after it;
* `canrawInputCalls` — `canraw_input` with the calls it makes, and `canifInput`, which asks it;
* `Delivers` — the two agree;
* `delivers_iff` — they do exactly when the first pcb bound to the interface settles the matter.
-/

namespace Lwcan
namespace Raw

/-! ### What the code does -/

/-- A call of a receive callback: the function pointer, the argument and the pcb it is called
with. -/
abbrev ReceiveCall := Ptr × Ptr × Nat

/-- `canraw_input(canif, frame)`, with the calls of receive callbacks that it makes. -/
def canrawInputCalls (r : Raw) (ifIndex : Nat) (receive : Receive) :
    Option ((CanrawInputState × Raw) × List ReceiveCall) :=
  match r.bound ifIndex with
  | none => none
  | some none => some ((.none, r), [])
  | some (some (prev, pcb)) =>
    -- `break`: the loop is left at the first pcb bound to the interface
    if (r.mem pcb).receive = .null then some ((.none, r), [])
    else
      let (ops, eaten) := receive (r.mem pcb).receive (r.mem pcb).callbackArg pcb
      match Runs.run apply r ops with
      | none => none
      | some v =>
        some (if eaten = 0 then (.none, v) else (.eaten, v.moveToFront prev pcb),
          [((r.mem pcb).receive, (r.mem pcb).callbackArg, pcb)])

/-- The calls are all that is added. -/
theorem canrawInputCalls_fst (r : Raw) (ifIndex : Nat) (receive : Receive) :
    (r.canrawInputCalls ifIndex receive).map Prod.fst = r.canrawInput ifIndex receive := by
  unfold canrawInputCalls canrawInput
  cases r.bound ifIndex with
  | none => rfl
  | some b =>
    cases b with
    | none => rfl
    | some found =>
      obtain ⟨prev, p⟩ := found
      by_cases hr : (r.mem p).receive = .null
      · simp only [if_pos hr, Option.map_some]
      · simp only [if_neg hr]
        cases Runs.run apply r (receive (r.mem p).receive (r.mem p).callbackArg p).1 with
        | none => rfl
        | some v =>
          by_cases he : (receive (r.mem p).receive (r.mem p).callbackArg p).2 = 0
          · simp only [if_pos he, Option.map_some]
          · simp only [if_neg he, Option.map_some]

/-- `canif_input(canif, frame)`: what the raw pcbs do not eat goes to `isotp_input`. -/
def canifInput (cfg : Config) (r : Raw) (s : Node) (canif : Option Nat) (frame : Option CanFrame)
    (receive : Receive) (g : Grant) : Option (Lwcanerr × Raw × Node) :=
  match canif, frame with
  | some canif, some frame =>
    match r.canrawInput (s.canifs.canifGetIndex (some canif)) receive with
    | none => none
    | some (rawStatus, r) =>
      if rawStatus ≠ .eaten then some (.ok, r, s.isotpInput cfg canif frame g) else some (.ok, r, s)
  | _, _ => some (.arg, r, s)

/-! ### What it should do -/

/-- The pcb is bound to the interface and has a callback. -/
def Interested (r : Raw) (ifIndex pcb : Nat) : Prop :=
  (r.mem pcb).ifIndex = ifIndex ∧ (r.mem pcb).receive ≠ .null

instance (r : Raw) (ifIndex pcb : Nat) : Decidable (r.Interested ifIndex pcb) :=
  inferInstanceAs (Decidable (_ ∧ _))

/-- A frame that was offered: the calls that were made, the pcb that ate it, and the state after the
last of them. -/
structure Offered where
  calls : List ReceiveCall
  eater : Option Nat
  raw : Raw

/-- **Offer a frame** to the pcbs of a list in turn, until one eats it. -/
def offer (ifIndex : Nat) (receive : Receive) : Raw → List Nat → Option Offered
  | r, [] => some ⟨[], none, r⟩
  | r, p :: l =>
    if r.Interested ifIndex p then
      (Runs.run apply r (r.called receive p).1).bind fun v =>
        let call := ((r.mem p).receive, (r.mem p).callbackArg, p)
        if (r.called receive p).2 ≠ 0 then some ⟨[call], some p, v⟩
        else (offer ifIndex receive v l).map fun o => { o with calls := call :: o.calls }
    else offer ifIndex receive r l

/-- **A frame is delivered** as it should be: the callbacks called are those it is offered to, it
counts as eaten if one of them eats it, that pcb moves to the front and the others stay in order,
and `canif_input` passes it on if none does. -/
def Delivers (r : Raw) (l : List Nat) (ifIndex : Nat) (receive : Receive) : Prop :=
  ∃ o status v, offer ifIndex receive r l = some o ∧
    r.canrawInputCalls ifIndex receive = some ((status, v), o.calls) ∧
    (status = .eaten ↔ o.eater.isSome) ∧
    Follows v (o.eater.elim l fun p => p :: l.erase p) ∧
    ∀ (cfg : Config) (s : Node) (canif : Nat) (frame : CanFrame) (g : Grant),
      s.canifs.canifGetIndex (some canif) = ifIndex →
        r.canifInput cfg s (some canif) (some frame) receive g =
          some (.ok, v, if o.eater.isSome then s else s.isotpInput cfg canif frame g)

/-! ### Callbacks that do not change the list -/

/-- The two states have one list, in one pool. -/
structure SameList (r v : Raw) : Prop where
  pool : v.canrawMemPool = r.canrawMemPool
  head : v.canrawPcbList = r.canrawPcbList
  num : v.canrawPcbNum = r.canrawPcbNum
  live : v.live = r.live
  next : v.next = r.next

/-- **The callbacks leave the list as it is**, whatever they make of the rest. -/
def LeavesList (r : Raw) (receive : Receive) : Prop :=
  ∀ v p, SameList r v → ∃ u, Runs.run apply v (v.called receive p).1 = some u ∧ SameList r u

/-- **The first pcb bound to the interface settles the matter**: its callback eats the frame, or no
pcb behind it is interested once it was asked. -/
def FirstSettles (r : Raw) (l : List Nat) (ifIndex : Nat) (receive : Receive) : Prop :=
  match l.dropWhile fun p => (r.mem p).ifIndex ≠ ifIndex with
  | [] => True
  | p :: behind =>
    if (r.mem p).receive = .null then ∀ q ∈ behind, ¬r.Interested ifIndex q
    else
      (r.called receive p).2 ≠ 0 ∨
        ∀ v ∈ Runs.run apply r (r.called receive p).1, ∀ q ∈ behind, ¬v.Interested ifIndex q

variable {r v : Raw} {l : List Nat} {p ifIndex : Nat} {receive : Receive}

theorem SameList.refl (r : Raw) : SameList r r := ⟨rfl, rfl, rfl, rfl, rfl⟩

/-- One list is followed as the other is. -/
theorem SameList.follows (hs : SameList r v) (h : Follows r l) : Follows v l := by
  refine ⟨hs.head.trans h.head, ?_, ?_⟩
  · rw [hs.next]
    exact h.linked
  · unfold canrawMaxPcbNum
    rw [hs.pool]
    exact h.short

/-! ### Offering a frame -/

/-- Pcbs that are not interested are passed over. -/
theorem offer_skip {l₁ : List Nat} (h : ∀ q ∈ l₁, ¬r.Interested ifIndex q) (l : List Nat) :
    offer ifIndex receive r (l₁ ++ l) = offer ifIndex receive r l := by
  induction l₁ with
  | nil => rfl
  | cons q l₁ ih =>
    rw [List.cons_append, offer, if_neg (h q List.mem_cons_self)]
    exact ih fun x hx => h x (List.mem_cons_of_mem _ hx)

/-- If no pcb is interested, no callback is called. -/
theorem offer_none (h : ∀ q ∈ l, ¬r.Interested ifIndex q) :
    offer ifIndex receive r l = some ⟨[], none, r⟩ := by
  have hskip : offer ifIndex receive r (l ++ []) = offer ifIndex receive r [] := offer_skip h []
  rw [List.append_nil] at hskip
  rw [hskip, offer]

/-- A pcb that is interested is asked first. -/
theorem offer_eq {v : Raw} (hp : r.Interested ifIndex p)
    (hv : Runs.run apply r (r.called receive p).1 = some v) (l : List Nat) :
    offer ifIndex receive r (p :: l) =
      if (r.called receive p).2 ≠ 0 then
        some ⟨[((r.mem p).receive, (r.mem p).callbackArg, p)], some p, v⟩
      else (offer ifIndex receive v l).map fun o =>
        { o with calls := ((r.mem p).receive, (r.mem p).callbackArg, p) :: o.calls } := by
  rw [offer, if_pos hp, hv]
  rfl

/-- If some pcb is interested, a callback is called. -/
theorem offer_calls_ne_nil {o : Offered} (h : offer ifIndex receive r l = some o)
    (hq : ∃ q ∈ l, r.Interested ifIndex q) : o.calls ≠ [] := by
  induction l with
  | nil =>
    obtain ⟨q, hq, -⟩ := hq
    cases hq
  | cons p l ih =>
    by_cases hp : r.Interested ifIndex p
    · rw [offer, if_pos hp] at h
      obtain ⟨v, -, h⟩ := Option.bind_eq_some_iff.mp h
      simp only at h
      split at h
      · obtain rfl := Option.some.inj h
        exact List.cons_ne_nil _ _
      · obtain ⟨o', -, rfl⟩ := Option.map_eq_some_iff.mp h
        exact List.cons_ne_nil _ _
    · rw [offer, if_neg hp] at h
      obtain ⟨q, hq, hqi⟩ := hq
      -- the one that is interested is not this one
      apply ih h
      refine ⟨q, (List.mem_cons.mp hq).resolve_left ?_, hqi⟩
      rintro rfl
      exact hp hqi

/-! ### What the code does with the first pcb -/

/-- No pcb is bound to the interface: no callback is called. -/
theorem calls_of_unbound (hb : r.bound ifIndex = some none) :
    r.canrawInputCalls ifIndex receive = some ((.none, r), []) := by
  unfold canrawInputCalls
  rw [hb]

/-- The first one has no callback. -/
theorem calls_of_deaf {prev : Option Nat} (hb : r.bound ifIndex = some (some (prev, p)))
    (hr : (r.mem p).receive = .null) :
    r.canrawInputCalls ifIndex receive = some ((.none, r), []) := by
  unfold canrawInputCalls
  rw [hb]
  simp only [if_pos hr]

/-- The first one has a callback. -/
theorem calls_of_bound {prev : Option Nat} (hb : r.bound ifIndex = some (some (prev, p)))
    (hr : (r.mem p).receive ≠ .null) (hv : Runs.run apply r (r.called receive p).1 = some v) :
    r.canrawInputCalls ifIndex receive =
      some (if (r.called receive p).2 = 0 then (.none, v) else (.eaten, v.moveToFront prev p),
        [((r.mem p).receive, (r.mem p).callbackArg, p)]) := by
  unfold canrawInputCalls
  rw [hb]
  simp only [if_neg hr]
  unfold called at hv ⊢
  rw [hv]

/-- What `canif_input` makes of it. -/
theorem canifInput_eq {status : CanrawInputState} {calls : List ReceiveCall}
    (h : r.canrawInputCalls ifIndex receive = some ((status, v), calls)) (cfg : Config) {s : Node}
    {canif : Nat} (frame : CanFrame) (g : Grant)
    (hi : s.canifs.canifGetIndex (some canif) = ifIndex) :
    r.canifInput cfg s (some canif) (some frame) receive g =
      some (.ok, v, if status = .eaten then s else s.isotpInput cfg canif frame g) := by
  have hin : r.canrawInput ifIndex receive = some (status, v) := by
    rw [← canrawInputCalls_fst, h]
    rfl
  unfold canifInput
  simp only [hi, hin]
  cases status <;> rfl

/-- The pcb that eats the frame goes to the front; the others keep their order. -/
theorem Follows.eaten {l₁ l₂ : List Nat} (h : Follows v (l₁ ++ p :: l₂)) :
    Follows (v.moveToFront l₁.getLast? p) (p :: (l₁ ++ p :: l₂).erase p) := by
  have hnot : p ∉ l₁ := fun hp =>
    (List.nodup_append.mp h.linked.nodup).2.2 p hp p List.mem_cons_self rfl
  rw [List.erase_append_right _ hnot, List.erase_cons_head]
  -- `moveToFront` relinks only if there is a pcb in front of it
  rcases List.eq_nil_or_concat l₁ with rfl | ⟨l₃, q, rfl⟩
  · exact h
  · rw [List.concat_eq_append] at h ⊢
    rw [List.append_assoc, List.singleton_append] at h
    rw [List.getLast?_concat, List.append_assoc, List.singleton_append]
    exact h.moveToFront

/-- The pcbs from the first one bound to the interface on -/
theorem dropWhile_bound {l₁ l₂ : List Nat} (hl₁ : ∀ q ∈ l₁, (r.mem q).ifIndex ≠ ifIndex)
    (hp : (r.mem p).ifIndex = ifIndex) :
    (l₁ ++ p :: l₂).dropWhile (fun q => (r.mem q).ifIndex ≠ ifIndex) = p :: l₂ := by
  rw [List.dropWhile_append_of_pos fun q hq => decide_eq_true (hl₁ q hq),
    List.dropWhile_cons_of_neg (by simp [hp])]

/-! ### When the two agree -/

/-- What `canraw_input` does is the delivery, if it makes the calls of the offer and the eater is at
the front. -/
theorem delivers_of_offer {o : Offered} {status : CanrawInputState}
    (hoff : offer ifIndex receive r l = some o)
    (hcalls : r.canrawInputCalls ifIndex receive = some ((status, v), o.calls))
    (hst : status = .eaten ↔ o.eater.isSome)
    (hf : Follows v (o.eater.elim l fun p => p :: l.erase p)) : Delivers r l ifIndex receive := by
  refine ⟨o, status, v, hoff, hcalls, hst, hf, ?_⟩
  intro cfg s canif frame g hi
  rw [canifInput_eq hcalls cfg frame g hi]
  simp only [hst]

/-- Nobody is bound to the interface: no callback is called, and none should be. -/
theorem delivers_of_unbound (h : Follows r l) (hno : ∀ q ∈ l, (r.mem q).ifIndex ≠ ifIndex)
    (hb : r.bound ifIndex = some none) : Delivers r l ifIndex receive := by
  have hoff : offer ifIndex receive r l = some ⟨[], none, r⟩ :=
    offer_none fun q hq hi => hno q hq hi.1
  exact delivers_of_offer hoff (calls_of_unbound hb) (by simp) h

section Bound

variable {prev : Option Nat} {l₁ l₂ : List Nat}

/-- The pcbs in front of the first one bound to the interface are not offered the frame. -/
theorem offer_bound (hl₁ : ∀ q ∈ l₁, (r.mem q).ifIndex ≠ ifIndex) (l' : List Nat) :
    offer ifIndex receive r (l₁ ++ l') = offer ifIndex receive r l' :=
  offer_skip (fun q hq hi => hl₁ q hq hi.1) l'

/-- The first one has no callback, and `canraw_input` calls nobody: no pcb behind it may be
interested. -/
theorem delivers_iff_of_deaf (h : Follows r (l₁ ++ p :: l₂))
    (hl₁ : ∀ q ∈ l₁, (r.mem q).ifIndex ≠ ifIndex) (hb : r.bound ifIndex = some (some (prev, p)))
    (hr : (r.mem p).receive = .null) :
    Delivers r (l₁ ++ p :: l₂) ifIndex receive ↔ ∀ q ∈ l₂, ¬r.Interested ifIndex q := by
  have hcalls : r.canrawInputCalls ifIndex receive = some ((.none, r), []) := calls_of_deaf hb hr
  have hpass : ¬r.Interested ifIndex p := fun hi => hi.2 hr
  constructor
  · -- one that is interested behind it would have been called
    rintro ⟨o, status, u, hoff, hc, -⟩ q hq hi
    have hnil : o.calls = [] := by
      rw [hcalls] at hc
      exact (Prod.mk.inj (Option.some.inj hc)).2.symm
    rw [offer_bound hl₁] at hoff
    exact offer_calls_ne_nil hoff ⟨q, List.mem_cons_of_mem _ hq, hi⟩ hnil
  · intro hno
    have hoff : offer ifIndex receive r (l₁ ++ p :: l₂) = some ⟨[], none, r⟩ := by
      rw [offer_bound hl₁, offer, if_neg hpass]
      exact offer_none hno
    exact delivers_of_offer hoff hcalls (by simp) h

/-- The first one is asked: it eats the frame, or no pcb behind it may be interested then. -/
theorem delivers_iff_of_asked (h : Follows r (l₁ ++ p :: l₂)) (hk : r.LeavesList receive)
    (hl₁ : ∀ q ∈ l₁, (r.mem q).ifIndex ≠ ifIndex) (hp : (r.mem p).ifIndex = ifIndex)
    (hb : r.bound ifIndex = some (some (l₁.getLast?, p))) (hr : (r.mem p).receive ≠ .null) :
    Delivers r (l₁ ++ p :: l₂) ifIndex receive ↔
      (r.called receive p).2 ≠ 0 ∨
        ∀ v ∈ Runs.run apply r (r.called receive p).1, ∀ q ∈ l₂, ¬v.Interested ifIndex q := by
  obtain ⟨v, hv, hsame⟩ := hk r p (SameList.refl r)
  have hcalls := calls_of_bound hb hr hv
  have hoffer := offer_eq ⟨hp, hr⟩ hv l₂
  have hfol : Follows v (l₁ ++ p :: l₂) := hsame.follows h
  by_cases heat : (r.called receive p).2 = 0
  · rw [if_pos heat] at hcalls
    rw [if_neg (not_not.mpr heat)] at hoffer
    constructor
    · -- another callback would make a second call
      rintro ⟨o, status, u, hoff, hc, -⟩
      refine Or.inr ?_
      intro v' hv' q hq hi
      obtain rfl : v = v' := Option.some.inj (hv.symm.trans hv')
      rw [offer_bound hl₁, hoffer] at hoff
      obtain ⟨o', ho', rfl⟩ := Option.map_eq_some_iff.mp hoff
      rw [hcalls] at hc
      have hnil : o'.calls = [] := (List.cons.inj (Prod.mk.inj (Option.some.inj hc)).2).2.symm
      exact offer_calls_ne_nil ho' ⟨q, hq, hi⟩ hnil
    · -- nobody behind is interested, so the one call is all of the offer
      intro hset
      have hno := (hset.resolve_left (not_not.mpr heat)) v hv
      rw [offer_none hno] at hoffer
      exact delivers_of_offer ((offer_bound hl₁ _).trans hoffer) hcalls (by simp) hfol
  · -- it eats the frame, and the offer ends with it
    rw [if_neg heat] at hcalls
    rw [if_pos heat] at hoffer
    refine iff_of_true ?_ (Or.inl heat)
    exact delivers_of_offer ((offer_bound hl₁ _).trans hoffer) hcalls (by simp) hfol.eaten

end Bound

/-- **A frame is delivered** as it should be if and only if the first pcb bound to the interface
settles the matter. -/
theorem delivers_iff (h : Follows r l) (hk : r.LeavesList receive) (ifIndex : Nat) :
    Delivers r l ifIndex receive ↔ FirstSettles r l ifIndex receive := by
  unfold FirstSettles
  rcases h.bound ifIndex with ⟨hno, hb⟩ | ⟨l₁, p, l₂, rfl, hl₁, hp, hb⟩
  · have hdrop : l.dropWhile (fun q => (r.mem q).ifIndex ≠ ifIndex) = [] :=
      List.dropWhile_eq_nil_iff.mpr fun q hq => decide_eq_true (hno q hq)
    rw [hdrop]
    exact iff_of_true (delivers_of_unbound h hno hb) True.intro
  · rw [dropWhile_bound hl₁ hp]
    by_cases hr : (r.mem p).receive = .null
    · simp only [if_pos hr]
      exact delivers_iff_of_deaf h hl₁ hb hr
    · simp only [if_neg hr]
      exact delivers_iff_of_asked h hk hl₁ hp hb hr

/-! ### Two pcbs that listen to one interface -/

/-- Two pcbs bound to interface 1: the callback of the front one is `user 2`, that of the other
`user 1`. -/
def bothListening : List Event :=
  [.op .new, .op .new, .op (.bind (some 0) (some 1)), .op (.bind (some 24) (some 1)),
    .op (.setReceiveCallback (some 0) (.user 1)), .op (.setReceiveCallback (some 24) (.user 2))]

/-- The callback that eats every frame, and no other. -/
def eatsIf (f : Ptr) : Receive := fun g _ _ => ([], if g = f then 1 else 0)

theorem leavesList_eatsIf (r : Raw) (f : Ptr) : r.LeavesList (eatsIf f) :=
  fun v _ hv => ⟨v, rfl, hv⟩

/-- The list of these pcbs, and the room in their pool -/
theorem follows_bothListening {t : Raw} (hhead : t.canrawPcbList = some 24)
    (h₀ : t.next 24 = some 0)
    (h₁ : t.next 0 = none) (hmax : t.canrawMaxPcbNum = 2) : Follows t [24, 0] := by
  refine ⟨hhead, ⟨h₀, h₁, linked_nil⟩, ?_⟩
  rw [hmax]
  rfl

/-- Of these pcbs the one in front eats the frame. -/
theorem delivers_front :
    ∃ t, Runs.run step (canrawInit 24 2) bothListening = some t ∧
      (Delivers t [24, 0] 1 (eatsIf (.user 2)) ↔ FirstSettles t [24, 0] 1 (eatsIf (.user 2))) := by
  obtain ⟨t, ht, hhead, h₀, h₁, hmax⟩ := Runs.exists_run step (canrawInit 24 2) bothListening
    (fun t => t.canrawPcbList = some 24 ∧ t.next 24 = some 0 ∧ t.next 0 = none ∧
      t.canrawMaxPcbNum = 2)
    (by decide)
  have hf : Follows t [24, 0] := follows_bothListening hhead h₀ h₁ hmax
  exact ⟨t, ht, delivers_iff hf (leavesList_eatsIf t _) 1⟩

/-- The front pcb leaves the frame alone: the other one, which would eat it, is not asked. -/
theorem frame_not_offered :
    ¬∀ (r : Raw) (l : List Nat) (ifIndex : Nat) (receive : Receive),
      Follows r l → r.LeavesList receive → Delivers r l ifIndex receive := by
  intro hall
  obtain ⟨t, -, hhead, h₀, h₁, hmax, hoff, hcalls⟩ :=
    Runs.exists_run step (canrawInit 24 2) bothListening
      (fun t => t.canrawPcbList = some 24 ∧ t.next 24 = some 0 ∧ t.next 0 = none ∧
        t.canrawMaxPcbNum = 2 ∧
        (offer 1 (eatsIf (.user 1)) t [24, 0]).map (fun o => o.calls.length) = some 2 ∧
        (t.canrawInputCalls 1 (eatsIf (.user 1))).map (fun x => x.2.length) = some 1)
      (by decide)
  have hf : Follows t [24, 0] := follows_bothListening hhead h₀ h₁ hmax
  obtain ⟨o, status, v, ho, hc, -⟩ := hall t [24, 0] 1 (eatsIf (.user 1)) hf (leavesList_eatsIf t _)
  rw [ho] at hoff
  rw [hc] at hcalls
  have htwo : o.calls.length = 2 := Option.some.inj hoff
  have hone : o.calls.length = 1 := Option.some.inj hcalls
  rw [htwo] at hone
  cases hone

end Raw
end Lwcan
