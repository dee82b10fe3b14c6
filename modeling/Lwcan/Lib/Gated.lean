import Mathlib.Order.Nat
import Mathlib.Tactic.Common

/-!
# Streaming through gates

A sender hands the frames of a message over, `N` of them, one at a time, and waits for the driver to
confirm each. A receiver takes them in order. After some of the frames, the *gates*, the sender
stops until it holds a credit, which the receiver grants after that very frame. Nobody tells either
party where the gates are: both know the same predicate.

* `State` and `Step` — how far each party is, whether a credit is on its way, and what may happen
  next.
* `Inv` — the receiver is never behind a gate that the sender has passed, and a credit is on its way
  only while the sender waits at the gate for which it was granted; `Inv.step` keeps it.
* `Step.rank_lt` and `Inv.rank_le` — every step climbs, and there is a top: runs are finite.
* `Inv.over_or_busy` — until both parties are done, something is under way: none waits for the
  other.
-/

namespace Lwcan
namespace Gated

/-- What the sender is about to do. -/
inductive Sender
  /-- A frame is to be handed over. -/
  | due
  /-- A frame was handed over and is not confirmed. -/
  | out
  /-- A credit is awaited. -/
  | wait
  | done
  deriving DecidableEq

/-- What the receiver is about to do. -/
inductive Receiver
  /-- A frame may come. -/
  | ready
  /-- The application was asked before a credit is granted. -/
  | asked
  /-- A credit is to be granted. -/
  | due
  /-- A credit was granted and is not confirmed. -/
  | out
  | done
  deriving DecidableEq

/-- How many frames each party has dealt with, and whether a credit is on its way. -/
structure State where
  sent : Nat
  sender : Sender
  received : Nat
  receiver : Receiver
  credit : Bool

section

variable (N : Nat) (gate : Nat → Bool)

/-- What the sender does once its `n`-th frame is confirmed -/
def onward (n : Nat) : Sender := if n = N then .done else if gate n then .wait else .due

/-- What the receiver may do once it has the `m`-th frame -/
def Arrives (m : Nat) (r : Receiver) : Prop :=
  if m = N then r = .done else if gate m then r = .asked ∨ r = .due else r = .ready

/-- **The steps** of the two parties. -/
inductive Step (s : State) : State → Prop
  | handOver (h : s.sender = .due) : Step s { s with sent := s.sent + 1, sender := .out }
  | confirm (h : s.sender = .out) : Step s { s with sender := onward N gate s.sent }
  | proceed (h : s.sender = .wait) (hc : s.credit = true) :
    Step s { s with sender := .due, credit := false }
  | receive {r : Receiver} (h : s.receiver = .ready) (hlt : s.received < s.sent)
      (hr : Arrives N gate (s.received + 1) r) :
    Step s { s with received := s.received + 1, receiver := r }
  | answer (h : s.receiver = .asked) : Step s { s with receiver := .due }
  | grant (h : s.receiver = .due) : Step s { s with receiver := .out, credit := true }
  | granted (h : s.receiver = .out) : Step s { s with receiver := .ready }

/-- Before the first frame -/
def State.initial : State := ⟨0, .due, 0, .ready, false⟩

/-- What the phase of the sender says about its count -/
def SenderOk (n : Nat) : Sender → Prop
  | .due => n < N
  | .out => 1 ≤ n
  | .wait => gate n
  | .done => n = N

/-- What the phase of the receiver says about its count -/
def ReceiverOk (m : Nat) : Receiver → Prop
  | .ready => m < N
  | .asked | .due | .out => gate m
  | .done => m = N

/-- **The invariant.** -/
structure Inv (s : State) : Prop where
  sent_le : s.sent ≤ N
  received_le : s.received ≤ s.sent
  sender : SenderOk N gate s.sent s.sender
  receiver : ReceiverOk N gate s.received s.receiver
  /-- The receiver has reached every gate that the sender has passed. -/
  passed : ∀ g, gate g → g < s.sent ∨ g = s.sent ∧ s.sender = .due → g ≤ s.received
  /-- Until the credit is granted the sender stays at the gate. -/
  turn : s.receiver = .asked ∨ s.receiver = .due →
    s.received = s.sent ∧ (s.sender = .out ∨ s.sender = .wait)
  credit : s.credit = true ↔ gate s.sent ∧ (s.sender = .out ∨ s.sender = .wait) ∧
    s.received = s.sent ∧ (s.receiver = .out ∨ s.receiver = .ready)

/-- How far the sender is -/
def rankSender (n : Nat) : Sender → Nat
  | .out => 3 * n
  | .wait => 3 * n + 1
  | .due | .done => 3 * n + 2

/-- How far the receiver is -/
def rankReceiver (m : Nat) : Receiver → Nat
  | .asked => 4 * m
  | .due => 4 * m + 1
  | .out => 4 * m + 2
  | .ready | .done => 4 * m + 3

/-- How far both are -/
def rank (s : State) : Nat := rankSender s.sent s.sender + rankReceiver s.received s.receiver

end

variable {N : Nat} {gate : Nat → Bool} {s s' : State}

/-! ### What the sender does next -/

theorem onward_self : onward N gate N = .done := if_pos rfl

theorem onward_of_gate {n : Nat} (hn : n < N) (hg : gate n = true) : onward N gate n = .wait := by
  rw [onward, if_neg hn.ne, if_pos hg]

theorem onward_of_not_gate {n : Nat} (hn : n < N) (hg : gate n = false) :
    onward N gate n = .due := by
  rw [onward, if_neg hn.ne, hg, if_neg Bool.false_ne_true]

theorem onward_cases {n : Nat} (hn : n ≤ N) :
    (n = N ∧ onward N gate n = .done) ∨
      (n < N ∧ gate n = true ∧ onward N gate n = .wait) ∨
      (n < N ∧ gate n = false ∧ onward N gate n = .due) := by
  rcases Nat.eq_or_lt_of_le hn with rfl | hlt
  · exact Or.inl ⟨rfl, onward_self⟩
  · cases hg : gate n with
    | true => exact Or.inr (Or.inl ⟨hlt, rfl, onward_of_gate hlt hg⟩)
    | false => exact Or.inr (Or.inr ⟨hlt, rfl, onward_of_not_gate hlt hg⟩)

/-! ### The invariant -/

theorem Inv.initial (hN : 0 < N) (hg : gate 0 = false) : Inv N gate State.initial := by
  refine ⟨Nat.zero_le _, le_rfl, hN, hN, fun g h hlt => ?_, fun h => ?_, ?_⟩
  · rcases hlt with hlt | ⟨rfl, -⟩
    · exact absurd hlt (Nat.not_lt_zero g)
    · exact le_rfl
  · rcases h with h | h <;> cases h
  · simp [State.initial, hg]

/-- **A frame is confirmed**: the sender is done, waits at a gate, or goes on. -/
theorem Inv.confirm (hg : ∀ g, gate g → 1 ≤ g ∧ g < N) (h : Inv N gate s) (hs : s.sender = .out) :
    Inv N gate { s with sender := onward N gate s.sent } := by
  obtain ⟨hN, hle, hsnd, hrcv, hpass, hturn, hcred⟩ := h
  rw [hs] at hsnd
  have hpass' : ∀ g, gate g → g < s.sent → g ≤ s.received :=
    fun g hg' hlt => hpass g hg' (Or.inl hlt)
  -- a receiver that is about to grant stands at a gate
  have hgate : s.receiver = .asked ∨ s.receiver = .due → gate s.sent = true := by
    intro hr
    obtain ⟨heq, -⟩ := hturn hr
    rw [← heq]
    rcases hr with hr | hr <;> rw [hr] at hrcv <;> exact hrcv
  rcases @onward_cases N gate _ hN with ⟨hn, ho⟩ | ⟨hn, hgs, ho⟩ | ⟨hn, hgs, ho⟩
  · have hngs : gate s.sent = false := by
      by_contra hgs
      have := (hg _ (by simpa using hgs)).2
      omega
    refine ⟨hN, hle, by simp only [ho]; exact hn, hrcv, fun g hg' hlt => ?_, fun hr => ?_, ?_⟩
    · rcases hlt with hlt | ⟨-, hd⟩
      · exact hpass' g hg' hlt
      · simp [ho] at hd
    · rw [hgate hr] at hngs
      cases hngs
    · simp only [ho, hngs, Bool.false_eq_true, false_and, iff_false]
      simp [hcred, hngs]
  · refine ⟨hN, hle, by simp only [ho]; exact hgs, hrcv, fun g hg' hlt => ?_, fun hr => ?_, ?_⟩
    · rcases hlt with hlt | ⟨-, hd⟩
      · exact hpass' g hg' hlt
      · simp [ho] at hd
    · exact ⟨(hturn hr).1, Or.inr ho⟩
    · rw [hcred]
      simp [hs, ho]
  · refine ⟨hN, hle, by simp only [ho]; exact hn, hrcv, fun g hg' hlt => ?_, fun hr => ?_, ?_⟩
    · rcases hlt with hlt | ⟨heq, -⟩
      · exact hpass' g hg' hlt
      · rw [heq, hgs] at hg'
        cases hg'
    · rw [hgate hr] at hgs
      cases hgs
    · simp only [ho, hgs, Bool.false_eq_true, false_and, iff_false]
      simp [hcred, hgs]

/-- **A frame arrives**: the receiver is done, at a gate, or goes on. At a gate the sender is no
further. -/
theorem Inv.receive (h : Inv N gate s) {r : Receiver} (hlt : s.received < s.sent)
    (hr : Arrives N gate (s.received + 1) r) :
    Inv N gate { s with received := s.received + 1, receiver := r } := by
  obtain ⟨hN, hle, hsnd, -, hpass, -, hcred⟩ := h
  -- a credit is on its way only when the receiver has caught up
  have hbehind : s.credit = false := by
    rw [← Bool.not_eq_true, hcred]
    omega
  -- at a gate the sender has stopped, so the receiver has caught up with it
  have hgate : gate (s.received + 1) = true → s.received + 1 ≠ N →
      s.received + 1 = s.sent ∧ (s.sender = .out ∨ s.sender = .wait) := by
    intro hgr hne
    have hnot : ¬ (s.received + 1 < s.sent ∨ s.received + 1 = s.sent ∧ s.sender = .due) :=
      fun hp => absurd (hpass _ hgr hp) (by omega)
    have heq : s.received + 1 = s.sent := by omega
    refine ⟨heq, ?_⟩
    cases hss : s.sender with
    | due => exact absurd (Or.inr ⟨heq, hss⟩) hnot
    | out => exact Or.inl rfl
    | wait => exact Or.inr rfl
    | done =>
      rw [hss] at hsnd
      exact absurd (heq.trans hsnd) hne
  have hpass' : ∀ g, gate g → g < s.sent ∨ g = s.sent ∧ s.sender = .due → g ≤ s.received + 1 :=
    fun g hg' hp => Nat.le_succ_of_le (hpass g hg' hp)
  unfold Arrives at hr
  split at hr
  · next hn =>
    subst hr
    refine ⟨hN, hlt, hsnd, hn, hpass', fun hr => ?_, ?_⟩
    · rcases hr with hr | hr <;> cases hr
    · simp [hbehind]
  · next hn =>
    split at hr
    · next hgr =>
      refine ⟨hN, hlt, hsnd, ?_, hpass', fun _ => hgate hgr hn, ?_⟩
      · rcases hr with rfl | rfl <;> exact hgr
      · rcases hr with rfl | rfl <;> simp [hbehind]
    · next hgr =>
      subst hr
      refine ⟨hN, hlt, hsnd, ?_, hpass', fun hr => ?_, ?_⟩
      · show s.received + 1 < N
        omega
      · rcases hr with hr | hr <;> cases hr
      · simp only [hbehind, Bool.false_eq_true, false_iff]
        rintro ⟨hgs, -, heq, -⟩
        rw [← heq] at hgs
        exact hgr hgs

/-- **Every step keeps the invariant**, if all gates lie within the message. -/
theorem Inv.step (hg : ∀ g, gate g → 1 ≤ g ∧ g < N) (h : Inv N gate s) (hst : Step N gate s s') :
    Inv N gate s' := by
  have ⟨hN, hle, hsnd, hrcv, hpass, hturn, hcred⟩ := h
  cases hst with
  | handOver hs =>
    rw [hs] at hsnd
    have hlt : s.sent < N := hsnd
    refine ⟨hlt, Nat.le_succ_of_le hle, Nat.succ_pos _, hrcv, fun g hg' hlt' => ?_, fun hr => ?_,
      ?_⟩
    · rcases hlt' with hlt' | ⟨-, hd⟩
      · rcases Nat.lt_succ_iff_lt_or_eq.mp hlt' with hlt' | heq
        · exact hpass g hg' (Or.inl hlt')
        · exact hpass g hg' (Or.inr ⟨heq, hs⟩)
      · cases hd
    · obtain ⟨-, hw⟩ := hturn hr
      simp [hs] at hw
    · -- no credit is on its way, and the receiver is behind
      have hno : s.credit = false := by
        rw [← Bool.not_eq_true, hcred]
        simp [hs]
      simp only [hno, Bool.false_eq_true, false_iff]
      omega
  | confirm hs => exact h.confirm hg hs
  | proceed hs hc =>
    rw [hs] at hsnd
    obtain ⟨hgs, -, heq, hr⟩ := hcred.mp hc
    refine ⟨hN, hle, (hg _ hgs).2, hrcv, fun g hg' hlt => ?_, fun hr' => ?_, ?_⟩
    · have : g ≤ s.sent := by
        rcases hlt with hlt | ⟨rfl, -⟩
        · exact Nat.le_of_lt hlt
        · exact le_rfl
      exact this.trans heq.ge
    · rcases hr with hr | hr <;> rcases hr' with hr' | hr' <;>
        exact absurd (hr.symm.trans hr') (by decide)
    · simp
  | receive hs hlt hr => exact h.receive hlt hr
  | answer hs =>
    rw [hs] at hrcv
    have hno : s.credit = false := by
      rw [← Bool.not_eq_true, hcred]
      simp [hs]
    refine ⟨hN, hle, hsnd, hrcv, hpass, fun _ => hturn (Or.inl hs), ?_⟩
    simp [hno]
  | grant hs =>
    rw [hs] at hrcv
    obtain ⟨heq, hw⟩ := hturn (Or.inr hs)
    refine ⟨hN, hle, hsnd, hrcv, hpass, fun hr => ?_, ?_⟩
    · rcases hr with hr | hr <;> cases hr
    · have hgs : gate s.sent = true := heq ▸ hrcv
      simp [hgs, hw, heq]
  | granted hs =>
    rw [hs] at hrcv
    refine ⟨hN, hle, hsnd, (hg _ hrcv).2, hpass, fun hr => ?_, ?_⟩
    · rcases hr with hr | hr <;> cases hr
    · rw [hcred]
      simp [hs]

/-- **Every step climbs.** -/
theorem Step.rank_lt (hst : Step N gate s s') : rank s < rank s' := by
  unfold rank
  cases hst with
  | handOver h =>
    simp only [h, rankSender]
    omega
  | confirm h =>
    -- whatever it goes on to, the sender is one frame further
    have : rankSender s.sent .out < rankSender s.sent (onward N gate s.sent) := by
      unfold onward
      split
      · simp [rankSender]
      · split <;> simp [rankSender]
    simp only [h]
    omega
  | proceed h hc =>
    simp only [h, rankSender]
    omega
  | @receive r h hlt hr =>
    -- and the receiver, whatever it has to do next
    have : rankReceiver s.received .ready < rankReceiver (s.received + 1) r := by
      cases r <;> simp only [rankReceiver] <;> omega
    simp only [h]
    omega
  | answer h | grant h | granted h =>
    simp only [h, rankReceiver]
    omega

/-- **There is a top**, seven steps for each frame above the start. -/
theorem Inv.rank_le (h : Inv N gate s) : rank s ≤ 7 * N + rank State.initial := by
  have h₁ : rankSender s.sent s.sender ≤ 3 * s.sent + 2 := by
    unfold rankSender
    split <;> omega
  have h₂ : rankReceiver s.received s.receiver ≤ 4 * s.received + 3 := by
    unfold rankReceiver
    split <;> omega
  have := h.sent_le
  have := h.received_le
  show _ + _ ≤ _ + (2 + 3)
  omega

/-- Both parties have dealt with the whole message. -/
def State.over (s : State) : Prop := s.sender = .done ∧ s.receiver = .done

/-- **No deadlock.** Unless both are done, a party has something to do, a frame is on its way, or a
credit is. -/
theorem Inv.over_or_busy (hg : ∀ g, gate g → 1 ≤ g ∧ g < N) (h : Inv N gate s) :
    s.over ∨ s.sender = .due ∨ s.sender = .out ∨ s.receiver = .asked ∨ s.receiver = .due ∨
      s.receiver = .out ∨ s.received < s.sent ∨ s.credit = true := by
  have hle := h.received_le
  have hs := h.sender
  have hr := h.receiver
  by_cases hlt : s.received < s.sent
  · simp [hlt]
  have heq : s.received = s.sent := by omega
  cases hss : s.sender with
  | due => simp
  | out => simp
  | wait =>
    rw [hss] at hs
    cases hrr : s.receiver with
    | asked | due | out => simp
    | ready =>
      have : s.credit = true := h.credit.mpr ⟨hs, Or.inr hss, heq, Or.inr hrr⟩
      simp [this]
    | done =>
      -- the sender stands at a gate, and no gate is at the end
      rw [hrr] at hr
      have := (hg _ hs).2
      have : s.received = N := hr
      omega
  | done =>
    rw [hss] at hs
    cases hrr : s.receiver with
    | asked | due | out => simp
    | done => exact Or.inl ⟨hss, hrr⟩
    | ready =>
      rw [hrr] at hr
      have hn : s.sent = N := hs
      have hm : s.received < N := hr
      omega

end Gated
end Lwcan
