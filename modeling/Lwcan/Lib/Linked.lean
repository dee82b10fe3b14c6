import Mathlib.Logic.Function.Basic
import Mathlib.Data.List.Basic
import Mathlib.Tactic.Common

/-!
# Singly linked lists

A memory in which every cell names its successor is a function `next : α → Option α`. The library
has what reasoning about a list kept in such cells needs:

* `Linked next l` — each cell of `l` names the cell behind it, and the last one none;
* `Linked.eq_of_head` — such a list is determined by its first cell, so (`Linked.nodup`) no cell
  comes twice;
* `Linked.push`, `Linked.splice`, `Linked.unlink`, `Linked.toFront` — the writes that put a cell in
  front or behind another, take out the cell behind another, and move it to the front;
* `walk` — the loop that follows the links to a cell with a property, and what it finds.
-/

namespace Lwcan

section Linked

variable {α : Type*} (next : α → Option α)

/-- Each cell of the list names the cell behind it, and the last one none. -/
def Linked : List α → Prop
  | [] => True
  | a :: l => next a = l.head? ∧ Linked l

/-- Follow the links from `cur` to the first cell with the property, and return it with the cell
before it: `some none` if there is none, `none` if the links go on for longer than `fuel`. -/
def walk (p : α → Bool) : Nat → Option α → Option α → Option (Option (Option α × α))
  | 0, _, _ => none
  | _ + 1, _, none => some none
  | fuel + 1, prev, some a => if p a then some (some (prev, a)) else walk p fuel (some a) (next a)

variable {next} {next' : α → Option α} {a b c : α} {l l' l₁ l₂ : List α}

@[simp] theorem linked_nil : Linked next [] := True.intro

@[simp] theorem linked_cons : Linked next (a :: l) ↔ next a = l.head? ∧ Linked next l := Iff.rfl

/-- What lies behind a prefix is linked. -/
theorem Linked.right (h : Linked next (l₁ ++ l₂)) : Linked next l₂ := by
  induction l₁ with
  | nil => exact h
  | cons a l₁ ih => exact ih h.2

/-- The list from a cell on is determined by the links. -/
theorem Linked.eq_of_head (h : Linked next l) (h' : Linked next l') (he : l.head? = l'.head?) :
    l = l' := by
  induction l generalizing l' with
  | nil =>
    cases l' with
    | nil => rfl
    | cons b l' => cases he
  | cons a l ih =>
    cases l' with
    | nil => cases he
    | cons b l' =>
      obtain rfl : a = b := Option.some.inj he
      rw [ih h.2 h'.2 (h.1.symm.trans h'.1)]

/-- **No cell comes twice**: the list from its second place on would be the list from its first. -/
theorem Linked.nodup (h : Linked next l) : l.Nodup := by
  induction l with
  | nil => exact List.nodup_nil
  | cons a l ih =>
    refine List.nodup_cons.mpr ⟨?_, ih h.2⟩
    intro hmem
    obtain ⟨l₁, l₂, rfl⟩ := List.append_of_mem hmem
    have heq : a :: (l₁ ++ a :: l₂) = a :: l₂ := h.eq_of_head h.2.right rfl
    have hlen := congrArg List.length heq
    simp only [List.length_cons, List.length_append] at hlen
    omega

/-- The links of other cells do not matter. -/
theorem Linked.congr (h : Linked next l) (he : ∀ a ∈ l, next' a = next a) : Linked next' l := by
  induction l with
  | nil => exact linked_nil
  | cons a l ih =>
    refine ⟨(he a List.mem_cons_self).trans h.1, ih h.2 ?_⟩
    exact fun b hb => he b (List.mem_cons_of_mem _ hb)

/-- The cell behind a cell of the list. -/
theorem Linked.next_eq (h : Linked next (l₁ ++ a :: l₂)) : next a = l₂.head? := h.right.1

/-- A cell in front of another one of the list names a cell behind the first. -/
theorem Linked.next_mem (h : Linked next (l₁ ++ a :: l₂)) (hb : b ∈ l₁) :
    ∃ c ∈ (l₁ ++ [a]).tail, next b = some c := by
  obtain ⟨s, t, rfl⟩ := List.append_of_mem hb
  -- the successor of `b` is the first of what stands behind it
  have hnext : next b = (t ++ a :: l₂).head? := by
    have hl : Linked next (s ++ b :: (t ++ a :: l₂)) := by simpa using h
    exact hl.next_eq
  obtain ⟨c, hc, hhead⟩ : ∃ c ∈ t ++ [a], (t ++ a :: l₂).head? = some c := by
    cases t with
    | nil => exact ⟨a, by simp, rfl⟩
    | cons c t => exact ⟨c, by simp, rfl⟩
  refine ⟨c, ?_, hnext.trans hhead⟩
  cases s with
  | nil => simpa using hc
  | cons d s =>
    show c ∈ s ++ b :: t ++ [a]
    rw [List.append_assoc, List.cons_append]
    exact List.mem_append_right _ (List.mem_cons_of_mem _ hc)

/-- A cell names no cell in front of it, so none names the first. -/
theorem Linked.next_ne_head (h : Linked next (b :: l)) (ha : a ∈ b :: l) : next a ≠ some b := by
  intro hab
  obtain ⟨l₁, l₂, hl⟩ := List.append_of_mem ha
  have hnext : l₂.head? = some b := by
    rw [← hab]
    rw [hl] at h
    exact h.next_eq.symm
  -- then `b` lies at the head and behind `a`
  have hb : b ∈ l₂ := List.mem_of_head? hnext
  have hnd := h.nodup
  cases l₁ with
  | nil =>
    obtain ⟨rfl, rfl⟩ := List.cons.inj hl
    exact (List.nodup_cons.mp hnd).1 hb
  | cons x l₁ =>
    obtain ⟨rfl, rfl⟩ := List.cons.inj hl
    exact (List.nodup_cons.mp hnd).1
      (List.mem_append_right _ (List.mem_cons_of_mem _ hb))

/-- Two cells of the list that name one cell are the same. -/
theorem Linked.next_inj (h : Linked next l) (ha : a ∈ l) (hb : b ∈ l) (hac : next a = some c)
    (hbc : next b = some c) : a = b := by
  induction l with
  | nil => cases ha
  | cons x l ih =>
    -- no other element has the successor of the first
    have hhead : next x = some c → ∀ y ∈ l, next y ≠ some c := by
      intro hx y hy
      obtain ⟨l', rfl⟩ : ∃ l', l = c :: l' := by
        rw [h.1] at hx
        exact List.head?_eq_some_iff.mp hx
      exact h.2.next_ne_head hy
    rcases List.mem_cons.mp ha with rfl | hal
    · rcases List.mem_cons.mp hb with rfl | hbl
      · rfl
      · exact absurd hbc (hhead hac b hbl)
    · rcases List.mem_cons.mp hb with rfl | hbl
      · exact absurd hac (hhead hbc a hal)
      · exact ih h.2 hal hbl

variable [DecidableEq α]

instance : (l : List α) → Decidable (Linked next l)
  | [] => isTrue True.intro
  | a :: l =>
    have := instDecidableLinked l
    inferInstanceAs (Decidable (next a = l.head? ∧ Linked next l))

/-! ### Writes -/

/-- A cell that is not in the list may be written. -/
theorem Linked.update (h : Linked next l) (ha : a ∉ l) (x : Option α) :
    Linked (Function.update next a x) l := by
  apply h.congr
  intro b hb
  exact Function.update_of_ne (ne_of_mem_of_not_mem hb ha) _ _

/-- **In front**: a new cell that names the first one. -/
theorem Linked.push (h : Linked next l) (ha : a ∉ l) :
    Linked (Function.update next a l.head?) (a :: l) :=
  ⟨Function.update_self .., h.update ha _⟩

/-- The last cell of a part takes over what follows. -/
theorem Linked.relink (h : Linked next (l₁ ++ a :: l₂)) (hl : Linked next l)
    (hd : ∀ b ∈ l₁, b ≠ a) (ha : a ∉ l) :
    Linked (Function.update next a l.head?) (l₁ ++ a :: l) := by
  induction l₁ with
  | nil => exact hl.push ha
  | cons b l₁ ih =>
    have hb : b ≠ a := hd b List.mem_cons_self
    refine ⟨?_, ih h.2 fun c hc => hd c (List.mem_cons_of_mem _ hc)⟩
    rw [Function.update_of_ne hb, h.1]
    cases l₁ <;> rfl

/-- **Between** a cell and what follows it: a new cell. -/
theorem Linked.splice (h : Linked next (l₁ ++ a :: l)) (hb : b ∉ l₁ ++ a :: l) :
    Linked (Function.update (Function.update next b l.head?) a (some b)) (l₁ ++ a :: b :: l) := by
  have hnd := List.nodup_append.mp h.nodup
  have hbl : b ∉ l := fun hm => hb (by simp [hm])
  have hba : b ≠ a := fun hm => hb (by simp [hm])
  apply Linked.relink (h.update hb _) (h.right.2.push hbl) (fun c hc => hnd.2.2 c hc a (by simp))
  rw [List.mem_cons]
  rintro (rfl | hm)
  · exact hba rfl
  · exact (List.nodup_cons.mp hnd.2.1).1 hm

/-- **Taking out** the cell behind another one. -/
theorem Linked.unlink (h : Linked next (l₁ ++ a :: b :: l₂)) :
    Linked (Function.update next a (next b)) (l₁ ++ a :: l₂) := by
  have hnd := List.nodup_append.mp h.nodup
  have hb : Linked next (b :: l₂) := h.right.2
  have ha : a ∉ b :: l₂ := (List.nodup_cons.mp hnd.2.1).1
  rw [hb.1]
  exact h.relink hb.2 (fun c hc => hnd.2.2 c hc a List.mem_cons_self)
    fun hm => ha (List.mem_cons_of_mem _ hm)

/-- **To the front**: take out the cell behind another one and put it in front. -/
theorem Linked.toFront (h : Linked next (l₁ ++ a :: b :: l₂)) :
    Linked (Function.update (Function.update next a (next b)) b (l₁ ++ a :: l₂).head?)
      (b :: (l₁ ++ a :: l₂)) := by
  apply h.unlink.push
  have hperm : (l₁ ++ a :: b :: l₂).Perm (b :: (l₁ ++ a :: l₂)) := by
    have hmid : (l₁ ++ [a] ++ b :: l₂).Perm (b :: (l₁ ++ [a] ++ l₂)) := List.perm_middle
    simpa using hmid
  exact (List.nodup_cons.mp (hperm.nodup_iff.mp h.nodup)).1

/-! ### Following the links -/

omit [DecidableEq α]
variable {p : α → Bool} {prev : Option α} {fuel : Nat}

/-- Cells without the property are passed. -/
theorem walk_append (fuel : Nat) (prev : Option α) (h : Linked next (l₁ ++ l₂))
    (hp : ∀ a ∈ l₁, p a = false) : walk next p (l₁.length + fuel) prev (l₁ ++ l₂).head? =
      walk next p fuel (l₁.getLast?.or prev) l₂.head? := by
  induction l₁ generalizing prev with
  | nil => simp
  | cons a l₁ ih =>
    have ha : p a = false := hp a List.mem_cons_self
    have hnext : next a = (l₁ ++ l₂).head? := h.1
    rw [List.length_cons, Nat.add_right_comm]
    show (if p a then _ else walk next p (l₁.length + fuel) (some a) (next a)) = _
    rw [if_neg (by simp [ha]), hnext, ih _ h.2 fun b hb => hp b (List.mem_cons_of_mem _ hb),
      List.getLast?_cons]
    cases l₁.getLast? <;> rfl

/-- A list without the property is walked to its end. -/
theorem walk_eq_none (h : Linked next l) (hp : ∀ a ∈ l, p a = false) (hf : l.length < fuel) :
    walk next p fuel prev l.head? = some none := by
  obtain ⟨k, rfl⟩ := Nat.exists_eq_add_of_lt hf
  rw [Nat.add_assoc]
  have hnil : Linked next (l ++ []) := by rwa [List.append_nil]
  have := walk_append (k + 1) prev hnil hp
  rw [List.append_nil] at this
  rw [this]
  rfl

/-- The walk ends at the first cell with the property. -/
theorem walk_eq_some (prev : Option α) (h : Linked next (l₁ ++ a :: l₂))
    (hp : ∀ b ∈ l₁, p b = false) (ha : p a) (hf : l₁.length < fuel) :
    walk next p fuel prev (l₁ ++ a :: l₂).head? = some (some (l₁.getLast?.or prev, a)) := by
  obtain ⟨k, rfl⟩ := Nat.exists_eq_add_of_lt hf
  rw [Nat.add_assoc, walk_append _ prev h hp]
  show (if p a then some (some (_, a)) else _) = _
  rw [if_pos ha]

/-- What a walk finds has the property. -/
theorem of_walk_eq_some {p : α → Bool} {fuel : Nat} {prev cur : Option α} {x : Option α × α}
    (h : walk next p fuel prev cur = some (some x)) : p x.2 = true := by
  -- by induction on the fuel: the loop stops only where the test holds
  induction fuel generalizing prev cur with
  | zero => cases h
  | succ fuel ih =>
    cases cur with
    | none => cases h
    | some a =>
      unfold walk at h
      split at h
      · next ha =>
        obtain rfl := Option.some.inj (Option.some.inj h)
        exact ha
      · exact ih h

end Linked
end Lwcan
