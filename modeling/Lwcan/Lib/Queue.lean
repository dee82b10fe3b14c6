import Mathlib.Order.Lattice
import Mathlib.Data.List.TakeWhile
import Mathlib.Tactic.Common

/-!
# Stable priority queues

A queue as a list of entries, served from the front. Every entry has a key in a linear order and an
arrival number; what is served first is the smallest key and, among equal keys, the earliest
arrival.

* `Before` — the order of service;
* `Ordered` — the list is in that order;
* `enqueue` — where a new entry goes: behind every entry whose key is not larger;
* `Ordered.enqueue` — a later arrival keeps the order;
* `enqueue_append` — a prefix of smaller keys stays where it is;
* `Ordered.find?_before` — the first entry with a property is the earliest one with it.
-/

namespace Lwcan
namespace Queue

variable {α κ : Type*} [LinearOrder κ] (key : α → κ) (arrival : α → Nat)

/-- The entry `a` is served before the entry `b`. -/
def Before (a b : α) : Prop := key a < key b ∨ key a = key b ∧ arrival a < arrival b

/-- Every entry is served before those behind it. -/
def Ordered (l : List α) : Prop := l.Pairwise (Before key arrival)

/-- The queue with a new entry behind every entry whose key is not larger. -/
def enqueue (new : α) (l : List α) : List α :=
  l.takeWhile (fun a => decide (key a ≤ key new)) ++
    new :: l.dropWhile (fun a => decide (key a ≤ key new))

section Order

variable {key arrival} {a b c new : α} {l l' l₁ l₂ : List α}

theorem Before.le (h : Before key arrival a b) : key a ≤ key b := by
  rcases h with h | ⟨h, -⟩
  · exact h.le
  · exact h.le

theorem Before.trans (hab : Before key arrival a b) (hbc : Before key arrival b c) :
    Before key arrival a c := by
  rcases hab with hab | ⟨hab, ha⟩
  · exact Or.inl (hab.trans_le hbc.le)
  · rcases hbc with hbc | ⟨hbc, hb⟩
    · exact Or.inl (hab.trans_lt hbc)
    · exact Or.inr ⟨hab.trans hbc, Nat.lt_trans ha hb⟩

/-- Keys that are not larger, and an earlier arrival. -/
theorem Before.of_le (hk : key a ≤ key b) (ha : arrival a < arrival b) :
    Before key arrival a b := by
  rcases hk.lt_or_eq with hlt | heq
  · exact Or.inl hlt
  · exact Or.inr ⟨heq, ha⟩

/-- Other keys and arrivals that agree on the entries of a list order it alike. -/
theorem Ordered.congr {key' : α → κ} {arrival' : α → Nat} (h : Ordered key arrival l)
    (hk : ∀ a ∈ l, key' a = key a) (ha : ∀ a ∈ l, arrival' a = arrival a) :
    Ordered key' arrival' l := by
  refine List.Pairwise.imp_of_mem ?_ h
  intro a b hma hmb hab
  unfold Before
  rw [hk a hma, hk b hmb, ha a hma, ha b hmb]
  exact hab

theorem Ordered.sublist (h : Ordered key arrival l) (hs : l'.Sublist l) : Ordered key arrival l' :=
  List.Pairwise.sublist hs h

/-! ### A new entry -/

theorem enqueue_perm (new : α) (l : List α) : (enqueue key new l).Perm (new :: l) := by
  unfold enqueue
  refine List.perm_middle.trans ?_
  rw [List.takeWhile_append_dropWhile]

/-- What is not larger than the new entry stays in front of it. -/
theorem enqueue_append (h : ∀ a ∈ l₁, key a ≤ key new) :
    enqueue key new (l₁ ++ l₂) = l₁ ++ enqueue key new l₂ := by
  have hpos : ∀ a ∈ l₁, decide (key a ≤ key new) = true := fun a ha => decide_eq_true (h a ha)
  unfold enqueue
  rw [List.takeWhile_append_of_pos hpos, List.dropWhile_append_of_pos hpos, List.append_assoc]

/-- The entries behind the first larger key have larger keys, too. -/
theorem Ordered.lt_of_mem_dropWhile (h : Ordered key arrival l)
    (ha : a ∈ l.dropWhile fun a => decide (key a ≤ key new)) : key new < key a := by
  induction l with
  | nil => cases ha
  | cons b l ih =>
    obtain ⟨hb, hl⟩ := List.pairwise_cons.mp h
    by_cases hle : key b ≤ key new
    · rw [List.dropWhile_cons, if_pos (decide_eq_true hle)] at ha
      exact ih hl ha
    · rw [List.dropWhile_cons, if_neg (by simpa using hle)] at ha
      have hlt : key new < key b := lt_of_not_ge hle
      rcases List.mem_cons.mp ha with rfl | ha
      · exact hlt
      · exact hlt.trans_le (hb a ha).le

/-- **A later arrival keeps the order.** -/
theorem Ordered.enqueue (h : Ordered key arrival l) (hnew : ∀ a ∈ l, arrival a < arrival new) :
    Ordered key arrival (enqueue key new l) := by
  have hfront : ∀ a ∈ l.takeWhile (fun a => decide (key a ≤ key new)),
      Before key arrival a new := by
    intro a ha
    have hle : decide (key a ≤ key new) = true :=
      List.mem_takeWhile_imp (p := fun a => decide (key a ≤ key new)) ha
    exact Before.of_le (of_decide_eq_true hle) (hnew a ((List.takeWhile_sublist _).subset ha))
  have hback : ∀ a ∈ l.dropWhile (fun a => decide (key a ≤ key new)), Before key arrival new a :=
    fun a ha => Or.inl (h.lt_of_mem_dropWhile ha)
  refine List.pairwise_append.mpr ⟨h.sublist (List.takeWhile_sublist _), ?_, ?_⟩
  · exact List.pairwise_cons.mpr ⟨hback, h.sublist (List.dropWhile_sublist _)⟩
  · intro a ha b hb
    rcases List.mem_cons.mp hb with rfl | hb
    · exact hfront a ha
    · exact (hfront a ha).trans (hback b hb)

/-! ### Serving and cancelling -/

/-- **The head** is served before every other entry. -/
theorem Ordered.head_le (h : Ordered key arrival (a :: l)) (hb : b ∈ a :: l) : key a ≤ key b := by
  rcases List.mem_cons.mp hb with rfl | hb
  · exact le_refl _
  · exact ((List.pairwise_cons.mp h).1 b hb).le

/-- **The first entry with a property** is the earliest entry with it; the list without it is the
two parts around it. -/
theorem Ordered.find?_before {p : α → Bool} (h : Ordered key arrival l) (hf : l.find? p = some a) :
    ∃ l₁ l₂, l = l₁ ++ a :: l₂ ∧ l.eraseP p = l₁ ++ l₂ ∧ p a ∧
      ∀ b ∈ l₁ ++ l₂, p b → Before key arrival a b := by
  obtain ⟨hpa, l₁, l₂, rfl, hl₁⟩ := List.find?_eq_some_iff_append.mp hf
  refine ⟨l₁, l₂, rfl, ?_, hpa, ?_⟩
  · rw [List.eraseP_append_right _ (by simpa using hl₁), List.eraseP_cons_of_pos hpa]
  · intro b hb hpb
    rcases List.mem_append.mp hb with hb | hb
    · -- nothing in front of the first has the property
      exact absurd hpb (by simpa using hl₁ b hb)
    · have htail : Ordered key arrival (a :: l₂) := h.sublist (List.sublist_append_right _ _)
      exact (List.pairwise_cons.mp htail).1 b hb

end Order
end Queue
end Lwcan
