import Mathlib.Data.Finset.Card
import Lwcan.Lib.Runs
import Lwcan.Canif

/-!
# The numbers of the interfaces

`canif_add` looks for a number that no registered interface has: it tries one after the other,
starts the scan of the list anew after each collision, and gives up when the scan counts 254
interfaces. Every number it tries lies in `0..253`, so the search is over as soon as it meets a
number at which the scan does not end in a collision. One that is free is such a number; if none is,
the number of the interface at the end of the list is one, because the scan counts that interface
before it compares numbers.

* `number_some` — the search ends, and within one turn through the numbers;
* `Numbered` — the invariant: the registered interfaces have different numbers in `0..253`;
* `registered` — the interfaces that a history of additions and removals leaves registered, by their
  answers;
* `indices_unique` — it holds after every sequence of `canif_add` and `canif_remove`, and with it
  the two functions between interfaces and indices are inverse.
-/

namespace Lwcan
namespace Canifs

/-! ### The scan -/

/-- The numbers of the interfaces on a chain -/
def nums (mem : Nat → Canif) (chain : List Nat) : List Nat := chain.map fun c => (mem c).num

section Scan

variable {mem : Nat → Canif} {c : Nat} {chain : List Nat}

/-- One interface of the scan, counted as the `i + 1`st -/
theorem scan_cons {x i num : Nat} {cs : List Nat} (hx : x ≠ c) (hi : i < 254) :
    scan mem c num i (x :: cs) =
      if i = 253 then .full else if (mem x).num = num then .collision
        else scan mem c num (i + 1) cs := by
  have hu : u8 ((i : Int) + 1) = i + 1 := by
    rw [← Int.natCast_succ]
    exact u8_natCast (by omega)
  rw [scan, if_neg hx, hu]
  unfold maxCanifNum
  by_cases hfull : i = 253
  · rw [if_pos (by omega), if_pos hfull]
  · rw [if_neg (by omega), if_neg hfull]

/-- **A free number** is found free if the scan does not count too many interfaces. -/
theorem scan_clear {num i : Nat} (hc : c ∉ chain) (hi : i + chain.length < 254) :
    scan mem c num i chain = .clear ↔ num ∉ nums mem chain := by
  induction chain generalizing i with
  | nil => simp [scan, nums]
  | cons x cs ih =>
    obtain ⟨hx, hcs⟩ := not_or.mp (List.mem_cons.not.mp hc)
    rw [List.length_cons] at hi
    rw [scan_cons (Ne.symm hx) (by omega), if_neg (by omega)]
    by_cases hnum : (mem x).num = num
    · simp [nums, hnum]
    · rw [if_neg hnum, ih hcs (by omega)]
      simp [nums, Ne.symm hnum]

/-- How the scan of an interface that is not registered ends -/
theorem scan_cases (mem : Nat → Canif) (num : Nat) {i : Nat} (hc : c ∉ chain)
    (hi : i + chain.length ≤ 254) :
    (scan mem c num i chain = .clear ∧ num ∉ nums mem chain) ∨
      scan mem c num i chain = .collision ∨
        (scan mem c num i chain = .full ∧ i + chain.length = 254) := by
  induction chain generalizing i with
  | nil => exact Or.inl ⟨rfl, List.not_mem_nil⟩
  | cons x cs ih =>
    obtain ⟨hx, hcs⟩ := not_or.mp (List.mem_cons.not.mp hc)
    rw [List.length_cons] at hi ⊢
    rw [scan_cons (Ne.symm hx) (by omega)]
    by_cases hfull : i = 253
    · rw [if_pos hfull]
      exact Or.inr (Or.inr ⟨rfl, by omega⟩)
    by_cases hnum : (mem x).num = num
    · rw [if_neg hfull, if_pos hnum]
      exact Or.inr (Or.inl rfl)
    · rw [if_neg hfull, if_neg hnum]
      rcases ih hcs (i := i + 1) (by omega) with ⟨hs, hn⟩ | hs | ⟨hs, hl⟩
      · refine Or.inl ⟨hs, ?_⟩
        simpa [nums, Ne.symm hnum] using hn
      · exact Or.inr (Or.inl hs)
      · exact Or.inr (Or.inr ⟨hs, by omega⟩)

/-- **The last of 254 interfaces** is counted before its number is compared. -/
theorem scan_last {x i : Nat} (hc : c ∉ chain ++ [x]) (hn : (nums mem (chain ++ [x])).Nodup)
    (hi : i + chain.length = 253) : scan mem c (mem x).num i (chain ++ [x]) = .full := by
  induction chain generalizing i with
  | nil =>
    have hx : x ≠ c := fun h => hc (by simp [h])
    rw [List.nil_append, scan_cons hx (by simp at hi; omega), if_pos (by simpa using hi)]
  | cons y cs ih =>
    obtain ⟨hy, hcs⟩ := not_or.mp (List.mem_cons.not.mp hc)
    rw [List.length_cons] at hi
    simp only [nums, List.cons_append, List.map_cons, List.nodup_cons] at hn
    have hne : (mem y).num ≠ (mem x).num := by
      intro h
      exact hn.1 (by simp [h])
    rw [List.cons_append, scan_cons (Ne.symm hy) (by omega), if_neg (by omega), if_neg hne]
    exact ih hcs hn.2 (by omega)

end Scan

/-! ### The search -/

section Search

variable {mem : Nat → Canif} {c : Nat} {chain : List Nat}

/-- There are no more than 254 numbers. -/
theorem length_le_of_nodup {l : List Nat} (hn : l.Nodup) (hb : ∀ n ∈ l, n < 254) :
    l.length ≤ 254 := by
  have hsub : l.toFinset ⊆ Finset.range 254 := by
    intro n hmem
    exact Finset.mem_range.mpr (hb n (List.mem_toFinset.mp hmem))
  calc l.length
      = l.toFinset.card := (List.toFinset_card_of_nodup hn).symm
    _ ≤ (Finset.range 254).card := Finset.card_le_card hsub
    _ = 254 := Finset.card_range 254

/-- One of them is free if fewer are taken. -/
theorem exists_free {l : List Nat} (hl : l.length < 254) : ∃ n < 254, n ∉ l := by
  by_contra hall
  push Not at hall
  have hsub : Finset.range 254 ⊆ l.toFinset := by
    intro n hmem
    exact List.mem_toFinset.mpr (hall n (Finset.mem_range.mp hmem))
  have hle : (254 : Nat) ≤ l.length :=
    calc (254 : Nat)
        = (Finset.range 254).card := (Finset.card_range 254).symm
      _ ≤ l.toFinset.card := Finset.card_le_card hsub
      _ ≤ l.length := List.toFinset_card_le l
  omega

theorem length_nums (mem : Nat → Canif) (chain : List Nat) :
    (nums mem chain).length = chain.length := List.length_map ..

/-- **At some number the scan does not end in a collision.** -/
theorem exists_stop (hc : c ∉ chain) (hn : (nums mem chain).Nodup)
    (hb : ∀ n ∈ nums mem chain, n < 254) :
    ∃ n < 254, scan mem c n 0 chain ≠ .collision := by
  have hle := length_le_of_nodup hn hb
  rw [length_nums] at hle
  rcases Nat.lt_or_ge chain.length 254 with hlt | hge
  · obtain ⟨n, hn', hfree⟩ := exists_free (l := nums mem chain) (by rwa [length_nums])
    refine ⟨n, hn', ?_⟩
    rw [(scan_clear hc (by omega)).mpr hfree]
    rintro ⟨⟩
  · -- all numbers are taken: the search stops at the number of the last interface
    have hne : chain ≠ [] := by
      rintro rfl
      exact absurd hge (by decide)
    obtain ⟨init, x, rfl⟩ : ∃ init x, chain = init ++ [x] :=
      ⟨chain.dropLast, chain.getLast hne, (List.dropLast_append_getLast hne).symm⟩
    refine ⟨(mem x).num, hb _ (by simp [nums]), ?_⟩
    rw [scan_last hc hn (by simp at hle hge; omega)]
    rintro ⟨⟩

/-- The search comes to a number `k` turns away. -/
theorem number_of_stop {stop k fuel num : Nat} (hs : scan mem c stop 0 chain ≠ .collision)
    (hnum : num ≤ 254) (hk : (num + k) % 254 = stop) (hf : k < fuel) :
    (number mem c chain fuel num).isSome := by
  induction k generalizing fuel num with
  | zero =>
    obtain ⟨fuel, rfl⟩ := Nat.exists_eq_succ_of_ne_zero (Nat.ne_zero_of_lt hf)
    have hnow : (if num = maxCanifNum then 0 else num) = stop := by
      unfold maxCanifNum
      split <;> omega
    unfold number
    simp only [hnow]
    split <;> first | rfl | (next h => exact absurd h hs)
  | succ k ih =>
    obtain ⟨fuel, rfl⟩ := Nat.exists_eq_succ_of_ne_zero (Nat.ne_zero_of_lt hf)
    unfold number
    simp only
    split
    · rfl
    · rfl
    · -- a collision: one number on
      have hnow : (if num = maxCanifNum then 0 else num) < 254 := by
        unfold maxCanifNum
        split <;> omega
      have hmod : (num + (k + 1)) % 254 =
          ((if num = maxCanifNum then 0 else num) + 1 + k) % 254 := by
        unfold maxCanifNum
        split <;> omega
      rw [← Int.natCast_succ, u8_natCast (by omega)]
      exact ih (by omega) (by rw [← hk, hmod]) (by omega)
    · rfl

/-- **The search ends.** -/
theorem number_some (mem : Nat → Canif) (hc : c ∉ chain) (hn : (nums mem chain).Nodup)
    (hb : ∀ n ∈ nums mem chain, n < 254) {num : Nat} (hnum : num < 254) :
    (number mem c chain 256 num).isSome := by
  obtain ⟨stop, hstop, hs⟩ := exists_stop hc hn hb
  exact number_of_stop hs hnum.le (k := (stop + 254 - num) % 254) (by omega) (by omega)

/-- What the search returns: a free number, or that the list is full -/
theorem number_spec (hc : c ∉ chain) (hl : chain.length ≤ 254) {fuel num n : Nat}
    {err : Lwcanerr} (hnum : num ≤ 254) (h : number mem c chain fuel num = some (err, n)) :
    (err = .ok ∧ n < 254 ∧ n ∉ nums mem chain) ∨ (err = .canifMax ∧ chain.length = 254) := by
  induction fuel generalizing num with
  | zero => cases h
  | succ fuel ih =>
    have hnow : (if num = maxCanifNum then 0 else num) < 254 := by
      unfold maxCanifNum
      split <;> omega
    unfold number at h
    simp only at h
    -- the number tried now, after 253 wraps to 0
    generalize (if num = maxCanifNum then 0 else num) = now at *
    rcases scan_cases mem now (i := 0) hc (by omega) with
      ⟨hs, hfree⟩ | hs | ⟨hs, hfull⟩
    · rw [hs] at h
      cases h
      exact Or.inl ⟨rfl, hnow, hfree⟩
    · rw [hs] at h
      -- taken: the next turn tries the next number
      have hu : u8 ((now : Int) + 1) = now + 1 := by
        rw [← Int.natCast_succ]
        exact u8_natCast (by omega)
      simp only [hu] at h
      exact ih (by omega) h
    · rw [hs] at h
      cases h
      exact Or.inr ⟨rfl, by omega⟩

end Search
/-! ### The invariant -/

/-- **The registered interfaces have different numbers**, all of them in `0..253`, and so is the
number the next search begins with. -/
structure Numbered (r : Canifs) : Prop where
  nodup : (nums r.mem r.canifList).Nodup
  bound : ∀ n ∈ nums r.mem r.canifList, n < 254
  next : r.canifNum < 254

/-- What `canif_add` hands to the driver's `init` -/
def cleared (r : Canifs) (name : List UInt8) : Canif :=
  { num := r.canifNum, name := (name ++ [0, 0, 0, 0]).take 4, input := .canifInput }

/-- An interface that is not registered cuts nothing off. -/
theorem unlinkNext_of_notMem {c : Nat} {chain : List Nat} (hc : c ∉ chain) :
    unlinkNext c chain = chain := by
  induction chain with
  | nil => rfl
  | cons x cs ih =>
    obtain ⟨hx, hcs⟩ := not_or.mp (List.mem_cons.not.mp hc)
    rw [unlinkNext, if_neg (Ne.symm hx), ih hcs]

/-- Writing to an interface that is not on a chain renumbers nothing. -/
theorem nums_update (mem : Nat → Canif) {c : Nat} {chain : List Nat} (hc : c ∉ chain) (x : Canif) :
    nums (Function.update mem c x) chain = nums mem chain := by
  refine List.map_congr_left fun y hy => ?_
  have hne : y ≠ c := fun he => hc (he ▸ hy)
  rw [Function.update_of_ne hne]

section Steps

variable {r : Canifs} {c : Nat} {name : List UInt8} {init : Canif → Lwcanerr × Canif}
  {inited : Canif} {n : Nat}

/-- A number was found. -/
theorem canifAdd_ok (hc : c ∉ r.canifList) (hn₀ : name.length ≠ 0) (hn : name.length ≤ 4)
    (hi : init (r.cleared name) = (.ok, inited))
    (hnum : number (Function.update r.mem c inited) c r.canifList 256 inited.num = some (.ok, n)) :
    r.canifAdd (some c) (some name) (some init) =
      some (.ok,
        { canifList := c :: r.canifList
          canifNum := if n = maxCanifNum - 1 then 0 else u8 (n + 1)
          mem := Function.update r.mem c { inited with num := n } }) := by
  have hargs : ¬ (name.length = 0 ∨ 4 < name.length) := by omega
  unfold cleared at hi
  unfold canifAdd
  simp only [if_neg hargs, unlinkNext_of_notMem hc, hi, hnum, ne_eq, not_true_eq_false, if_false,
    Function.update_idem]

/-- The list is full. -/
theorem canifAdd_full (hc : c ∉ r.canifList) (hn₀ : name.length ≠ 0) (hn : name.length ≤ 4)
    (hi : init (r.cleared name) = (.ok, inited))
    (hnum : number (Function.update r.mem c inited) c r.canifList 256 inited.num =
      some (.canifMax, n)) :
    r.canifAdd (some c) (some name) (some init) =
      some (.canifMax, { r with mem := Function.update r.mem c { inited with num := n } }) := by
  have hargs : ¬ (name.length = 0 ∨ 4 < name.length) := by omega
  unfold cleared at hi
  unfold canifAdd
  simp only [if_neg hargs, unlinkNext_of_notMem hc, hi, hnum, ne_eq, not_true_eq_false, if_false,
    Function.update_idem]

/-- Arguments that are not accepted, or a driver that does not come up, leave the list alone. -/
theorem canifAdd_refused {canif : Option Nat} (name : Option (List UInt8))
    (init : Option (Canif → Lwcanerr × Canif)) (hc : ∀ c ∈ canif, c ∉ r.canifList)
    (h : ∀ c n f, canif = some c → name = some n → init = some f → n.length ≠ 0 → n.length ≤ 4 →
      (f (r.cleared n)).1 ≠ .ok) :
    ∃ err r', r.canifAdd canif name init = some (err, r') ∧ err ≠ .ok ∧ r'.canifList = r.canifList ∧
      r'.canifNum = r.canifNum ∧ nums r'.mem r.canifList = nums r.mem r.canifList := by
  unfold canifAdd
  split
  · next c n f =>
    have hc := hc c rfl
    split
    · exact ⟨.arg, r, rfl, nofun, rfl, rfl, rfl⟩
    · next hargs =>
      have herr := h c n f rfl rfl rfl (by omega) (by omega)
      unfold cleared at herr
      simp only [if_pos herr, unlinkNext_of_notMem hc]
      exact ⟨.lowLevelIf, _, rfl, nofun, rfl, rfl, nums_update _ hc _⟩
  · exact ⟨.arg, r, rfl, nofun, rfl, rfl, rfl⟩

/-- The list and the numbers on it are what the invariant is about. -/
theorem Numbered.congr {r' : Canifs} (h : Numbered r) (hl : r'.canifList = r.canifList)
    (hn : r'.canifNum = r.canifNum) (hm : nums r'.mem r.canifList = nums r.mem r.canifList) :
    Numbered r' := by
  refine ⟨?_, ?_, hn ▸ h.next⟩
  · rw [hl, hm]
    exact h.nodup
  · rw [hl, hm]
    exact h.bound

/-- **Adding an interface** whose arguments are accepted and whose driver comes up: it gets a
free number and goes to the front if fewer than 254 interfaces are registered, and else the list
stays. -/
theorem Numbered.canifAdd (h : Numbered r) (hc : c ∉ r.canifList) (hn₀ : name.length ≠ 0)
    (hn : name.length ≤ 4) (hinit : ∀ x, (init x).2.num = x.num)
    (hok : (init (r.cleared name)).1 = .ok) :
    ∃ err r', r.canifAdd (some c) (some name) (some init) = some (err, r') ∧ Numbered r' ∧
      (err = .ok ↔ r.canifList.length < 254) ∧
      r'.canifList = if err = .ok then c :: r.canifList else r.canifList := by
  have hlen := length_le_of_nodup h.nodup h.bound
  rw [length_nums] at hlen
  have hnum := hinit (r.cleared name)
  have hi : init (r.cleared name) = (.ok, (init (r.cleared name)).2) := Prod.ext hok rfl
  generalize (init (r.cleared name)).2 = inited at hi hnum
  have hstart : inited.num < 254 := hnum ▸ h.next
  -- the driver's part of the interface changes no number on the list
  have hmem := nums_update r.mem hc inited
  obtain ⟨⟨err, n⟩, hres⟩ := Option.isSome_iff_exists.mp
    (number_some (Function.update r.mem c inited) hc (hmem ▸ h.nodup) (hmem ▸ h.bound) hstart)
  -- a number was found, or all are taken
  rcases number_spec hc hlen hstart.le hres with ⟨rfl, hlt, hfree⟩ | ⟨rfl, hfull⟩
  · rw [hmem] at hfree
    refine ⟨.ok, _, canifAdd_ok hc hn₀ hn hi hres, ?_, iff_of_true rfl ?_, rfl⟩
    -- the numbers on the list are those there were and the new one
    · have hcons : nums (Function.update r.mem c { inited with num := n }) (c :: r.canifList) =
          n :: nums r.mem r.canifList := by
        rw [nums, List.map_cons, Function.update_self]
        exact congrArg _ (nums_update _ hc _)
      refine ⟨?_, ?_, ?_⟩
      · exact hcons ▸ List.nodup_cons.mpr ⟨hfree, h.nodup⟩
      · intro m hm
        rcases List.mem_cons.mp (hcons ▸ hm) with rfl | hm
        · exact hlt
        · exact h.bound m hm
      · show (if n = maxCanifNum - 1 then 0 else u8 (n + 1)) < 254
        unfold maxCanifNum
        split
        · decide
        · rw [← Int.natCast_succ, u8_natCast (by omega)]
          omega
    · -- with the new number on it, the list still has at most 254
      have hmax := length_le_of_nodup (l := n :: nums r.mem r.canifList)
        (List.nodup_cons.mpr ⟨hfree, h.nodup⟩) fun m hm => by
          rcases List.mem_cons.mp hm with rfl | hm
          · exact hlt
          · exact h.bound m hm
      rw [List.length_cons, length_nums] at hmax
      omega
  · refine ⟨.canifMax, _, canifAdd_full hc hn₀ hn hi hres, ?_,
      iff_of_false (by rintro ⟨⟩) (by omega), rfl⟩
    exact h.congr rfl rfl (nums_update _ hc _)

theorem Numbered.canifRemove (h : Numbered r) (canif : Option Nat) :
    Numbered (r.canifRemove canif).2 := by
  cases canif with
  | none => exact h
  | some c =>
    have hsub : (nums r.mem (r.canifList.erase c)).Sublist (nums r.mem r.canifList) :=
      List.erase_sublist.map _
    exact ⟨h.nodup.sublist hsub, fun n hn => h.bound n (hsub.subset hn), h.next⟩

end Steps

/-! ### Indices -/

section Indices

variable {r : Canifs}

/-- The index of an interface is its number plus one. -/
theorem Numbered.canifGetIndex (h : Numbered r) {c : Nat} (hc : c ∈ r.canifList) :
    r.canifGetIndex (some c) = (r.mem c).num + 1 := by
  have hb := h.bound _ (List.mem_map.mpr ⟨c, hc, rfl⟩)
  show u8 (((r.mem c).num : Int) + 1) = (r.mem c).num + 1
  rw [← Int.natCast_succ]
  exact u8_natCast (by omega)

/-- Different interfaces have different numbers. -/
theorem Numbered.eq_of_num (h : Numbered r) {c c' : Nat} (hc : c ∈ r.canifList)
    (hc' : c' ∈ r.canifList) (he : (r.mem c).num = (r.mem c').num) : c = c' :=
  List.inj_on_of_nodup_map h.nodup hc hc' he

/-- **The index finds the interface.** -/
theorem Numbered.canifGetByIndex (h : Numbered r) {c : Nat} (hc : c ∈ r.canifList) :
    r.canifGetByIndex (r.canifGetIndex (some c)) = some c := by
  unfold Canifs.canifGetByIndex
  rw [if_neg (by rw [h.canifGetIndex hc]; exact Nat.succ_ne_zero _)]
  have hfind : (r.canifList.find? fun x =>
      decide (r.canifGetIndex (some c) = r.canifGetIndex (some x))).isSome := by
    rw [List.find?_isSome]
    exact ⟨c, hc, by simp⟩
  obtain ⟨x, hx⟩ := Option.isSome_iff_exists.mp hfind
  have hmem := List.mem_of_find?_eq_some hx
  have heq : r.canifGetIndex (some c) = r.canifGetIndex (some x) := by
    simpa using List.find?_some hx
  rw [h.canifGetIndex hc, h.canifGetIndex hmem] at heq
  rw [hx, h.eq_of_num hc hmem (Nat.succ.inj heq)]

/-- **Another index finds none.** -/
theorem canifGetByIndex_eq_none {i : Nat}
    (hi : ∀ c ∈ r.canifList, r.canifGetIndex (some c) ≠ i) : r.canifGetByIndex i = none := by
  unfold Canifs.canifGetByIndex
  split
  · rfl
  · rw [List.find?_eq_none]
    intro c hc he
    exact hi c hc (of_decide_eq_true he).symm

end Indices

/-! ### Runs -/

/-- The operations that change the list -/
inductive Op
  | canifAdd (canif : Option Nat) (name : Option (List UInt8))
      (init : Option (Canif → Lwcanerr × Canif))
  | canifRemove (canif : Option Nat)

/-- The state after an operation; none if the search of `canif_add` does not end. -/
def step (r : Canifs) : Op → Option Canifs
  | .canifAdd canif name init => (r.canifAdd canif name init).map Prod.snd
  | .canifRemove canif => some (r.canifRemove canif).2

/-- An interface is added while it is not registered, and its driver leaves the number alone. -/
def Admissible (r : Canifs) : Op → Prop
  | .canifAdd canif _ init =>
    (∀ c ∈ canif, c ∉ r.canifList) ∧ ∀ f ∈ init, ∀ x, (f x).2.num = x.num
  | .canifRemove _ => True

/-- The registered interfaces after an operation, by what it returns: an addition that answers
`ERROR_OK` registers its interface, and a removal takes it back. -/
def registers (r : Canifs) (chain : List Nat) : Op → List Nat
  | .canifAdd canif name init =>
    if (r.canifAdd canif name init).any (·.1 = .ok) then canif.toList ++ chain else chain
  | .canifRemove canif => canif.elim chain chain.erase

/-- **The registered interfaces after a history**, the one added last first -/
def registered (r : Canifs) (chain : List Nat) : List Op → List Nat
  | [] => chain
  | o :: ops => (step r o).elim chain fun r' => registered r' (r.registers chain o) ops

/-- **One operation** ends, keeps the numbers apart, and registers what it says it does. -/
theorem Numbered.step {r : Canifs} (h : Numbered r) {o : Op} (ho : Admissible r o) :
    ∃ r', Canifs.step r o = some r' ∧ Numbered r' ∧ r'.canifList = r.registers r.canifList o := by
  cases o with
  | canifRemove canif =>
    refine ⟨_, rfl, h.canifRemove canif, ?_⟩
    cases canif with
    | none => rfl
    | some c => rfl
  | canifAdd canif name init =>
    obtain ⟨hc, hf⟩ := ho
    -- whether the call reaches the search for a number
    by_cases hok : ∃ c n f, canif = some c ∧ name = some n ∧ init = some f ∧ n.length ≠ 0 ∧
        n.length ≤ 4 ∧ (f (r.cleared n)).1 = .ok
    · obtain ⟨c, n, f, rfl, rfl, rfl, hn₀, hn, hi⟩ := hok
      obtain ⟨err, r', hadd, hr', -, hlist⟩ := h.canifAdd (hc c rfl) hn₀ hn (hf f rfl) hi
      refine ⟨r', by rw [Canifs.step, hadd]; rfl, hr', ?_⟩
      show _ = if (r.canifAdd _ _ _).any _ then _ else _
      rw [hlist, hadd, Option.any_some]
      by_cases herr : err = .ok
      · rw [if_pos herr, if_pos (decide_eq_true herr)]
        rfl
      · rw [if_neg herr, if_neg (by simpa using herr)]
    · -- refused before, or by the driver: the list and the numbers are as they were
      obtain ⟨err, r', hadd, herr, hl, hn, hm⟩ := canifAdd_refused (r := r) name init hc
        fun c n f h₁ h₂ h₃ h₄ h₅ h₆ => hok ⟨c, n, f, h₁, h₂, h₃, h₄, h₅, h₆⟩
      refine ⟨r', by rw [Canifs.step, hadd]; rfl, h.congr hl hn hm, ?_⟩
      show _ = if (r.canifAdd _ _ _).any _ then _ else _
      rw [hl, hadd, Option.any_some, if_neg (by simpa using herr)]

/-- **The list is the history's.** -/
theorem Numbered.run {r r' : Canifs} (h : Numbered r) {ops : List Op}
    (ha : Runs.Along Canifs.step Admissible r ops) (hr : Runs.run Canifs.step r ops = some r') :
    r'.canifList = r.registered r.canifList ops := by
  induction ops generalizing r with
  | nil =>
    obtain rfl := Option.some.inj hr
    rfl
  | cons o ops ih =>
    obtain ⟨r₁, hst, hr⟩ := Runs.run_cons.mp hr
    obtain ⟨r₂, hst', h₂, hlist⟩ := h.step ha.1
    obtain rfl : r₁ = r₂ := Option.some.inj (hst.symm.trans hst')
    rw [ih h₂ (ha.2 r₁ hst) hr]
    show _ = (Canifs.step r o).elim _ _
    rw [hst, hlist]
    rfl

/-- **An interface stays registered** until it is removed. -/
theorem Numbered.stays {r r' : Canifs} (h : Numbered r) {ops : List Op} {c : Nat}
    (hc : c ∈ r.canifList)
    (ha : Runs.Along Canifs.step Admissible r ops) (hr : Runs.run Canifs.step r ops = some r')
    (hno : ∀ o ∈ ops, o ≠ .canifRemove (some c)) : c ∈ r'.canifList := by
  have hkeep : ∀ r o r', (Numbered r ∧ c ∈ r.canifList) →
      (Admissible r o ∧ o ≠ .canifRemove (some c)) →
      Canifs.step r o = some r' → Numbered r' ∧ c ∈ r'.canifList := by
    rintro r o r' ⟨h, hc⟩ ⟨ho, hne⟩ hst
    obtain ⟨r₁, hst', h₁, hlist⟩ := h.step ho
    obtain rfl : r₁ = r' := Option.some.inj (hst'.symm.trans hst)
    refine ⟨h₁, ?_⟩
    rw [hlist]
    cases o with
    | canifAdd canif name init =>
      show c ∈ if (r.canifAdd canif name init).any _ then _ else _
      split
      · exact List.mem_append_right _ hc
      · exact hc
    | canifRemove canif =>
      cases canif with
      | none => exact hc
      | some x => exact (List.mem_erase_of_ne fun he => hne (by rw [he])).mpr hc
  have halong := ha.and (Runs.Along.of_forall (C := fun _ o => o ≠ .canifRemove (some c))
    (fun o ho _ => hno o ho) r)
  exact (Runs.run_inv hkeep ⟨h, hc⟩ halong hr).2

theorem Numbered.initial : Numbered {} :=
  ⟨List.nodup_nil, fun _ h => absurd h List.not_mem_nil, by decide⟩

/-- **Indices are unique and resolvable.** After every sequence of additions and removals, none of
which gets stuck, the registered interfaces, which are those that were added with `ERROR_OK` and not
removed since, have different numbers up to 253, each is found under its index, and nothing is found
under any other. An interface is then added exactly if fewer than 254 are registered; it goes to the
front of the list, and stays registered until it is removed. -/
theorem indices_unique {ops : List Op} (h : Runs.Along step Admissible {} ops) :
    ∃ r, Runs.run step {} ops = some r ∧ r.canifList = registered {} [] ops ∧
      (∀ c ∈ r.canifList, (r.mem c).num ≤ 253) ∧
      (∀ c ∈ r.canifList, ∀ c' ∈ r.canifList, (r.mem c).num = (r.mem c').num → c = c') ∧
      r.canifList.Nodup ∧
      (∀ c ∈ r.canifList, r.canifGetByIndex (r.canifGetIndex (some c)) = some c) ∧
      (∀ i, (∀ c ∈ r.canifList, r.canifGetIndex (some c) ≠ i) → r.canifGetByIndex i = none) ∧
      ∀ (c : Nat) (name : List UInt8) (init : Canif → Lwcanerr × Canif), c ∉ r.canifList →
        name.length ≠ 0 → name.length ≤ 4 → (∀ x, (init x).2.num = x.num) →
          (init (r.cleared name)).1 = .ok →
            ∃ err r', r.canifAdd (some c) (some name) (some init) = some (err, r') ∧
              (err = .ok ↔ r.canifList.length < 254) ∧
              r'.canifList = (if err = .ok then c :: r.canifList else r.canifList) ∧
              (err = .ok → ∀ ops' r'', Runs.Along step Admissible r' ops' →
                Runs.run step r' ops' = some r'' → (∀ o ∈ ops', o ≠ .canifRemove (some c)) →
                  c ∈ r''.canifList) := by
  -- no step gets stuck: the search for a number ends
  obtain ⟨r, hr, hn⟩ := Runs.run_total
    (fun r o hr ho => by
      obtain ⟨r', hst, hr', -⟩ := Numbered.step hr ho
      exact ⟨r', hst, hr'⟩) Numbered.initial h
  refine ⟨r, hr, Numbered.initial.run h hr, ?_, ?_, List.Nodup.of_map _ hn.nodup, ?_, ?_, ?_⟩
  · intro c hc
    exact Nat.lt_succ_iff.mp (hn.bound _ (List.mem_map.mpr ⟨c, hc, rfl⟩))
  · intro c hc c' hc' he
    exact hn.eq_of_num hc hc' he
  · intro c hc
    exact hn.canifGetByIndex hc
  · intro i hi
    exact canifGetByIndex_eq_none hi
  · intro c name init hc hn₀ hn' hinit hok
    obtain ⟨err, r', hadd, hr', hiff, hlist⟩ := hn.canifAdd hc hn₀ hn' hinit hok
    refine ⟨err, r', hadd, hiff, hlist, fun herr ops' r'' ha hrun hno => ?_⟩
    -- what is at the front now stays until it is removed
    refine hr'.stays ?_ ha hrun hno
    rw [hlist, if_pos herr]
    exact List.mem_cons_self

/-- A driver that comes up -/
def comesUp (x : Canif) : Lwcanerr × Canif := (.ok, { x with output := .driver 0 })

/-- Two interfaces are added, the first is removed and added again. -/
def readded : List Op :=
  [.canifAdd (some 0) (some [0x63]) (some comesUp), .canifAdd (some 1) (some [0x64]) (some comesUp),
    .canifRemove (some 0), .canifAdd (some 0) (some [0x63]) (some comesUp)]

theorem indices_unique_readded :
    ∃ r, Runs.run step {} readded = some r ∧ r.canifList = [0, 1] ∧
      (∀ c ∈ r.canifList, r.canifGetByIndex (r.canifGetIndex (some c)) = some c) ∧
      ∃ err r', r.canifAdd (some 2) (some [0x65]) (some comesUp) = some (err, r') ∧
        r'.canifList = if err = .ok then 2 :: r.canifList else r.canifList := by
  have hup : ∀ f ∈ some comesUp, ∀ x : Canif, (f x).2.num = x.num := by
    intro f hf x
    cases hf
    rfl
  have hall : Runs.Along step Admissible {} readded := by
    refine ⟨⟨by simp, hup⟩, fun r₁ h₁ => ?_⟩
    cases h₁
    refine ⟨⟨by decide, hup⟩, fun r₂ h₂ => ?_⟩
    cases h₂
    refine ⟨trivial, fun r₃ h₃ => ?_⟩
    cases h₃
    exact ⟨⟨by decide, hup⟩, fun _ _ => trivial⟩
  obtain ⟨r, hr, hreg, -, -, -, h, -, hadd⟩ := indices_unique hall
  have hlist : r.canifList = [0, 1] := hreg.trans (by decide)
  obtain ⟨err, r', hok, -, hfront, -⟩ := hadd 2 [0x65] comesUp (by rw [hlist]; decide) (by decide)
    (by decide) (hup comesUp rfl) rfl
  exact ⟨r, hr, hlist, h, err, r', hok, hfront⟩

end Canifs
end Lwcan
