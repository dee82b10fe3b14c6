import Lwcan.CanifIndex

/-!
# An addition that fails

`canif_add` clears and fills the structure and runs the driver's `init` before it looks whether the
interface is registered already. If it is, what was linked behind it is lost by then, and its name
and callbacks are those of the failed call.

* `canifAdd_cases` — the ways `canif_add` returns;
* `number_registered` — for a registered interface the search for a number ends at that interface;
* `failed_add_keeps_iff` — a failed addition changes nothing if and only if the arguments are
  refused, the interface is not registered, or it is the last of the list and gets back what it had.
-/

namespace Lwcan
namespace Canifs

variable {r r' : Canifs} {c : Nat} {canif : Option Nat} {name : Option (List UInt8)}
  {init : Option (Canif → Lwcanerr × Canif)} {err : Lwcanerr}

/-! ### The property, and when it holds -/

/-- **A failed addition changes nothing**: the list is the same, and so is every interface on it. -/
def FailedAddKeeps (r : Canifs) (canif : Option Nat) (name : Option (List UInt8))
    (init : Option (Canif → Lwcanerr × Canif)) : Prop :=
  ∀ err r', r.canifAdd canif name init = some (err, r') → err ≠ .ok →
    r'.canifList = r.canifList ∧ ∀ x ∈ r.canifList, r'.mem x = r.mem x

/-- A pointer is null, or the name does not have one to four characters. -/
def BadArgs (canif : Option Nat) (name : Option (List UInt8))
    (init : Option (Canif → Lwcanerr × Canif)) : Prop :=
  canif = none ∨ init = none ∨ ∀ n ∈ name, n.length = 0 ∨ 4 < n.length

/-- Counting up from a number, past 253 back to 0, the first one that is not taken -/
inductive Settles (taken : List Nat) : Nat → Nat → Prop
  | free {n : Nat} (hn : n ≠ maxCanifNum) (hfree : n ∉ taken) : Settles taken n n
  | next {n m : Nat} (hn : n ≠ maxCanifNum) (htaken : n ∈ taken)
      (h : Settles taken (u8 (n + 1)) m) : Settles taken n m
  | wrap {m : Nat} (h : Settles taken 0 m) : Settles taken maxCanifNum m

/-- Nothing is linked behind the interface, the call fills in what it has already, and the number it
comes to is its own. -/
structure Restores (r : Canifs) (c : Nat) (n : List UInt8) (f : Canif → Lwcanerr × Canif) :
    Prop where
  last : r.canifList.getLast? = some c
  filled : { (f (r.cleared n)).2 with num := (r.mem c).num } = r.mem c
  down : (f (r.cleared n)).1 ≠ .ok → (f (r.cleared n)).2.num = (r.mem c).num
  up : (f (r.cleared n)).1 = .ok →
    Settles (nums r.mem r.canifList.dropLast) (f (r.cleared n)).2.num (r.mem c).num

/-- The arguments are refused, the interface is not registered, or it gets back what it had. -/
def Spared (r : Canifs) (canif : Option Nat) (name : Option (List UInt8))
    (init : Option (Canif → Lwcanerr × Canif)) : Prop :=
  BadArgs canif name init ∨ (∀ c ∈ canif, c ∉ r.canifList) ∨
    ∃ c ∈ canif, ∃ n ∈ name, ∃ f ∈ init, r.Restores c n f

/-! ### The ways an addition ends -/

theorem canifAdd_badArgs (h : BadArgs canif name init) :
    r.canifAdd canif name init = some (.arg, r) := by
  unfold canifAdd
  split
  · next c n f =>
    obtain h | h | h := h
    · cases h
    · cases h
    · rw [if_pos (h n rfl)]
  · rfl

theorem exists_of_not_badArgs (h : ¬BadArgs canif name init) :
    ∃ c n f, canif = some c ∧ name = some n ∧ init = some f ∧ n.length ≠ 0 ∧ n.length ≤ 4 := by
  unfold BadArgs at h
  obtain ⟨hcanif, hinit, hname⟩ := not_or.mp h |>.imp_right not_or.mp
  push Not at hname
  obtain ⟨c, rfl⟩ := Option.ne_none_iff_exists'.mp hcanif
  obtain ⟨f, rfl⟩ := Option.ne_none_iff_exists'.mp hinit
  obtain ⟨n, hn, hn₀, hn₄⟩ := hname
  exact ⟨c, n, f, rfl, hn, rfl, hn₀, hn₄⟩

/-- **The ways `canif_add` returns** when its arguments are accepted: the driver does not come up,
or the search for a number decides. -/
theorem canifAdd_cases {n : List UInt8} {f : Canif → Lwcanerr × Canif} (hn₀ : n.length ≠ 0)
    (hn : n.length ≤ 4) (h : r.canifAdd (some c) (some n) (some f) = some (err, r')) :
    ((f (r.cleared n)).1 ≠ .ok ∧ err = .lowLevelIf ∧ r' =
        { r with
          canifList := unlinkNext c r.canifList
          mem := Function.update r.mem c (f (r.cleared n)).2 }) ∨
      ∃ m, (f (r.cleared n)).1 = .ok ∧
        number (Function.update r.mem c (f (r.cleared n)).2) c (unlinkNext c r.canifList) 256
          (f (r.cleared n)).2.num = some (err, m) ∧
        (err = .ok → r'.canifList = c :: unlinkNext c r.canifList ∧
          r'.mem = Function.update r.mem c { (f (r.cleared n)).2 with num := m }) ∧
        (err ≠ .ok → r' =
          { r with
            canifList := unlinkNext c r.canifList
            mem := Function.update r.mem c { (f (r.cleared n)).2 with num := m } }) := by
  -- the arguments are good, so the name is copied and the driver initialised
  have hargs : ¬ (n.length = 0 ∨ 4 < n.length) := by omega
  have hcleared :
      ({ num := r.canifNum, name := (n ++ [0, 0, 0, 0]).take 4, input := .canifInput } : Canif) =
      r.cleared n := rfl
  unfold canifAdd at h
  simp only [if_neg hargs, hcleared] at h
  -- the driver does not come up, or the list is searched for a free number
  split at h
  · next hdown =>
    cases h
    exact Or.inl ⟨hdown, rfl, rfl⟩
  · next hup =>
    refine Or.inr ?_
    split at h
    · cases h
    · next m hnum =>
      cases h
      exact ⟨m, not_not.mp hup, hnum, fun _ => ⟨rfl, by simp [Function.update_idem]⟩,
        fun hok => absurd rfl hok⟩
    · next err' m hne hnum =>
      cases h
      exact ⟨m, not_not.mp hup, hnum, fun hok => (hne hok).elim,
        fun _ => by simp [Function.update_idem]⟩

/-- What is linked behind a registered interface drops out of the chain. -/
theorem unlinkNext_of_mem {chain : List Nat} (hc : c ∈ chain) :
    ∃ front back, c ∉ front ∧ chain = front ++ c :: back ∧
      unlinkNext c chain = front ++ [c] := by
  induction chain with
  | nil => cases hc
  | cons x cs ih =>
    by_cases hx : x = c
    · subst hx
      exact ⟨[], cs, List.not_mem_nil, rfl, by simp [unlinkNext]⟩
    · obtain ⟨front, back, hf, hcs, hu⟩ := ih ((List.mem_cons.mp hc).resolve_left (Ne.symm hx))
      refine ⟨x :: front, back, ?_, by rw [hcs]; rfl, by rw [unlinkNext, if_neg hx, hu]; rfl⟩
      exact List.mem_cons.not.mpr (not_or.mpr ⟨Ne.symm hx, hf⟩)

/-! ### The search when the interface is registered -/

section Registered

variable {mem : Nat → Canif} {front : List Nat}

/-- The scan ends at the interface itself, unless one in front of it has the number. -/
theorem scan_registered {i : Nat} (num : Nat) (hc : c ∉ front) (hi : i + front.length ≤ 253) :
    scan mem c num i (front ++ [c]) =
      if num ∈ nums mem front then .collision else .registered := by
  -- along the list in front of the interface, which ends the search
  induction front generalizing i with
  | nil => simp [scan, nums]
  | cons x xs ih =>
    obtain ⟨hx, hxs⟩ := not_or.mp (List.mem_cons.not.mp hc)
    rw [List.length_cons] at hi
    rw [List.cons_append, scan_cons (Ne.symm hx) (by omega), if_neg (by omega)]
    by_cases hnum : (mem x).num = num
    · simp [nums, hnum]
    · rw [if_neg hnum, ih hxs (by omega)]
      simp [nums, Ne.symm hnum]

theorem Settles.det {taken : List Nat} {num m m' : Nat} (h : Settles taken num m)
    (h' : Settles taken num m') : m = m' := by
  -- each turn is determined by whether the number is free, taken or the last one
  induction h with
  | free hn hfree =>
    cases h' with
    | free => rfl
    | next _ htaken => exact absurd htaken hfree
    | wrap => exact absurd rfl hn
  | next hn htaken _ ih =>
    cases h' with
    | free _ hfree => exact absurd htaken hfree
    | next _ _ h' => exact ih h'
    | wrap => exact absurd rfl hn
  | wrap _ ih =>
    cases h' with
    | free hn => exact absurd rfl hn
    | next hn => exact absurd rfl hn
    | wrap h' => exact ih h'

/-- **The search for a registered interface** ends with `ERROR_CANIF`, at the first number that no
interface in front of it has. -/
theorem number_registered (hc : c ∉ front) (hl : front.length ≤ 253) {fuel num m : Nat}
    (h : number mem c (front ++ [c]) fuel num = some (err, m)) :
    err = .canif ∧ Settles (nums mem front) num m := by
  -- turn by turn, by the numbers in front of the interface
  induction fuel generalizing num with
  | zero => cases h
  | succ fuel ih =>
    have hwrap : ∀ {m}, Settles (nums mem front) (if num = maxCanifNum then 0 else num) m →
        Settles (nums mem front) num m := by
      intro m hs
      by_cases hm : num = maxCanifNum
      · rw [if_pos hm] at hs
        exact hm ▸ Settles.wrap hs
      · rwa [if_neg hm] at hs
    have hnow : (if num = maxCanifNum then 0 else num) ≠ maxCanifNum := by
      unfold maxCanifNum
      split <;> omega
    unfold number at h
    simp only at h
    generalize (if num = maxCanifNum then 0 else num) = now at *
    -- a taken number leads on, a free one ends at the interface itself
    rw [scan_registered now hc (by omega)] at h
    by_cases ht : now ∈ nums mem front
    · rw [if_pos ht] at h
      obtain ⟨herr, hs⟩ := ih h
      exact ⟨herr, hwrap (Settles.next hnow ht hs)⟩
    · rw [if_neg ht] at h
      cases h
      exact ⟨rfl, hwrap (Settles.free hnow ht)⟩

/-- It ends: two turns lead into `0..253`, and one of these numbers is not taken. -/
theorem number_registered_isSome (hc : c ∉ front) (hl : front.length ≤ 253) (num : Nat) :
    (number mem c (front ++ [c]) 256 num).isSome := by
  -- with fewer than 254 interfaces in front, some number is free
  obtain ⟨stop, hstop, hfree⟩ := exists_free (l := nums mem front) (by rw [length_nums]; omega)
  have hs : scan mem c stop 0 (front ++ [c]) ≠ .collision := by
    rw [scan_registered stop hc (by omega), if_neg hfree]
    rintro ⟨⟩
  -- from any number the search comes to it within one round
  have hclose : ∀ fuel num, 254 ≤ fuel → num ≤ 254 →
      (number mem c (front ++ [c]) fuel num).isSome := fun fuel num hf hnum =>
    number_of_stop hs hnum (k := (stop + 254 - num % 254) % 254) (by omega) (by omega)
  -- one turn from a number that is too large leads on, or the search is over
  have hturn : ∀ fuel num, (∀ n, n = u8 ((if num = maxCanifNum then 0 else num : Nat) + 1) →
      (number mem c (front ++ [c]) fuel n).isSome) →
      (number mem c (front ++ [c]) (fuel + 1) num).isSome := by
    intro fuel num hrest
    unfold number
    simp only
    split
    · rfl
    · rfl
    · exact hrest _ rfl
    · rfl
  refine hturn 255 num fun n hn => hturn 254 n fun n' hn' => hclose 254 n' le_rfl ?_
  have hn255 : n < 256 := hn ▸ u8_lt _
  rw [hn']
  unfold maxCanifNum u8
  split <;> omega

end Registered

/-! ### Reachable lists -/

/-- The interfaces on the list are distinct, and no more than 254. -/
structure Chained (r : Canifs) : Prop where
  nodup : r.canifList.Nodup
  length_le : r.canifList.length ≤ 254

/-- A scan that finds nothing has counted fewer than 254 interfaces, and not the new one. -/
theorem length_of_scan_clear {mem : Nat → Canif} {num i : Nat} {chain : List Nat} (hi : i < 254)
    (h : scan mem c num i chain = .clear) : c ∉ chain ∧ i + chain.length < 254 := by
  -- the index counts the interfaces passed, and the search gives up at 254
  induction chain generalizing i with
  | nil => exact ⟨List.not_mem_nil, by simpa using hi⟩
  | cons x cs ih =>
    by_cases hx : x = c
    · rw [scan, if_pos hx] at h
      cases h
    · rw [scan_cons hx hi] at h
      split at h
      · cases h
      split at h
      · cases h
      · obtain ⟨hc, hlen⟩ := ih (by omega) h
        rw [List.length_cons]
        exact ⟨List.mem_cons.not.mpr (not_or.mpr ⟨Ne.symm hx, hc⟩), by omega⟩

/-- A number is found only for an interface that is not registered, next to at most 253 others. -/
theorem number_ok {mem : Nat → Canif} {chain : List Nat} {fuel num m : Nat}
    (h : number mem c chain fuel num = some (.ok, m)) : c ∉ chain ∧ chain.length < 254 := by
  induction fuel generalizing num with
  | zero => cases h
  | succ fuel ih =>
    unfold number at h
    simp only at h
    split at h
    · cases h
    · cases h
    · exact ih h
    · next hs => simpa using length_of_scan_clear (by decide) hs

theorem sublist_unlinkNext (c : Nat) (chain : List Nat) : (unlinkNext c chain).Sublist chain := by
  induction chain with
  | nil => exact List.Sublist.refl _
  | cons x cs ih =>
    unfold unlinkNext
    split
    · exact (List.nil_sublist cs).cons_cons x
    · exact ih.cons_cons x

theorem Chained.canifAdd (h : r.Chained) (hadd : r.canifAdd canif name init = some (err, r')) :
    r'.Chained := by
  by_cases hbad : BadArgs canif name init
  · rw [canifAdd_badArgs hbad] at hadd
    cases hadd
    exact h
  · obtain ⟨c, n, f, rfl, rfl, rfl, hn₀, hn⟩ := exists_of_not_badArgs hbad
    have hsub := sublist_unlinkNext c r.canifList
    -- what is left of the list without the interface is in order
    have hcut : ∀ r' : Canifs, r'.canifList = unlinkNext c r.canifList → r'.Chained := by
      intro r' hl
      exact ⟨hl ▸ h.nodup.sublist hsub, hl ▸ hsub.length_le.trans h.length_le⟩
    obtain ⟨-, -, rfl⟩ | ⟨m, -, hnum, hok, hfail⟩ := canifAdd_cases hn₀ hn hadd
    · exact hcut _ rfl
    · by_cases herr : err = .ok
      · subst herr
        -- added at the front, the interface was not met on the way to the end
        obtain ⟨hc, hlen⟩ := number_ok hnum
        have hl := (hok rfl).1
        refine ⟨hl ▸ List.nodup_cons.mpr ⟨hc, h.nodup.sublist hsub⟩, ?_⟩
        rw [hl, List.length_cons]
        exact hlen
      · rw [hfail herr]
        exact hcut _ rfl

theorem Chained.canifRemove (h : r.Chained) (canif : Option Nat) :
    (r.canifRemove canif).2.Chained := by
  cases canif with
  | none => exact h
  | some c =>
    exact ⟨h.nodup.sublist List.erase_sublist, List.erase_sublist.length_le.trans h.length_le⟩

/-- **Every sequence of operations** keeps the list in order. -/
theorem Chained.of_run {ops : List Op} (hr : Runs.run step {} ops = some r) : r.Chained := by
  refine Runs.run_inv (I := Chained) (C := fun _ _ => True) ?_
    ⟨List.nodup_nil, Nat.zero_le _⟩ (Runs.Along.trivial _ ops) hr
  intro r o r' h _ hst
  cases o with
  | canifAdd canif name init =>
    obtain ⟨⟨err, u⟩, hadd, rfl⟩ := Option.map_eq_some_iff.mp hst
    exact h.canifAdd hadd
  | canifRemove canif =>
    cases Option.some.inj hst
    exact h.canifRemove canif

/-! ### When a failed addition changes nothing -/

/-- An interface that is not registered is all that a failed addition writes to. -/
theorem failedAddKeeps_of_notMem (hc : ∀ c ∈ canif, c ∉ r.canifList) :
    r.FailedAddKeeps canif name init := by
  intro err r' hadd herr
  by_cases hbad : BadArgs canif name init
  · rw [canifAdd_badArgs hbad] at hadd
    cases hadd
    exact ⟨rfl, fun _ _ => rfl⟩
  · obtain ⟨c, n, f, rfl, rfl, rfl, hn₀, hn⟩ := exists_of_not_badArgs hbad
    have hc := hc c rfl
    -- only the new interface is written
    have hkeep : ∀ y : Canif, ∀ x ∈ r.canifList, Function.update r.mem c y x = r.mem x := by
      intro y x hx
      exact Function.update_of_ne (fun he : x = c => hc (he ▸ hx)) _ _
    obtain ⟨-, -, rfl⟩ | ⟨m, -, -, -, hfail⟩ := canifAdd_cases hn₀ hn hadd
    · exact ⟨unlinkNext_of_notMem hc, hkeep _⟩
    · rw [hfail herr]
      exact ⟨unlinkNext_of_notMem hc, hkeep _⟩

/-- **Adding a registered interface** cuts off what is behind it and fills it anew; then the driver
does not come up, or the call fails with `ERROR_CANIF`. -/
theorem canifAdd_registered (h : r.Chained) (hc : c ∈ r.canifList) {n : List UInt8}
    {f : Canif → Lwcanerr × Canif} (hn₀ : n.length ≠ 0) (hn : n.length ≤ 4) :
    ∃ front back, r.canifList = front ++ c :: back ∧ ∃ err m,
      r.canifAdd (some c) (some n) (some f) = some (err,
        { r with
          canifList := front ++ [c]
          mem := Function.update r.mem c { (f (r.cleared n)).2 with num := m } }) ∧
      (((f (r.cleared n)).1 ≠ .ok ∧ err = .lowLevelIf ∧ m = (f (r.cleared n)).2.num) ∨
        ((f (r.cleared n)).1 = .ok ∧ err = .canif ∧
          Settles (nums r.mem front) (f (r.cleared n)).2.num m)) := by
  obtain ⟨front, back, hf, hlist, hu⟩ := unlinkNext_of_mem hc
  -- the interface itself takes one of the 254 places
  have hlen : front.length ≤ 253 := by
    have hle := h.length_le
    rw [hlist, List.length_append, List.length_cons] at hle
    omega
  have hargs : ¬ (n.length = 0 ∨ 4 < n.length) := by omega
  have hcleared :
      ({ num := r.canifNum, name := (n ++ [0, 0, 0, 0]).take 4, input := .canifInput } : Canif) =
      r.cleared n := rfl
  refine ⟨front, back, hlist, ?_⟩
  by_cases hup : (f (r.cleared n)).1 = .ok
  · have hreg : (number (Function.update r.mem c (f (r.cleared n)).2) c (front ++ [c]) 256
        (f (r.cleared n)).2.num).isSome := number_registered_isSome hf hlen _
    obtain ⟨⟨err, m⟩, hnum⟩ := Option.isSome_iff_exists.mp hreg
    -- the search meets the interface at the end of the list that was cut off at it
    obtain ⟨rfl, hs⟩ := number_registered hf hlen hnum
    rw [nums_update _ hf] at hs
    refine ⟨.canif, m, ?_, Or.inr ⟨hup, rfl, hs⟩⟩
    unfold canifAdd
    simp only [if_neg hargs, hcleared, hup, hu, hnum, ne_eq, not_true_eq_false, if_false,
      Function.update_idem]
  · refine ⟨.lowLevelIf, _, ?_, Or.inl ⟨hup, rfl, rfl⟩⟩
    unfold canifAdd
    simp only [if_neg hargs, hcleared, hu, ne_eq, hup, not_false_eq_true, if_true]

/-- A failed addition of a registered interface changes nothing exactly if it restores the
interface. -/
theorem failedAddKeeps_registered (h : r.Chained) (hc : c ∈ r.canifList) {n : List UInt8}
    {f : Canif → Lwcanerr × Canif} (hn₀ : n.length ≠ 0) (hn : n.length ≤ 4) :
    r.FailedAddKeeps (some c) (some n) (some f) ↔ r.Restores c n f := by
  obtain ⟨front, back, hlist, err, m, hadd, hres⟩ := canifAdd_registered h hc (f := f) hn₀ hn
  have herr : err ≠ .ok := by
    obtain ⟨-, rfl, -⟩ | ⟨-, rfl, -⟩ := hres <;> simp
  constructor
  · intro hkeep
    obtain ⟨hl, hm⟩ := hkeep err _ hadd herr
    -- what was behind the interface is gone, unless nothing was
    have hback : back = [] := by
      rw [hlist] at hl
      simpa using hl.symm
    subst hback
    have hmem := hm c hc
    simp only [Function.update_self] at hmem
    have hnum : m = (r.mem c).num := congrArg Canif.num hmem
    subst hnum
    refine ⟨by simp [hlist], hmem, fun hdown => ?_, fun hup => ?_⟩
    · obtain ⟨-, -, hm⟩ | ⟨hup, -⟩ := hres
      · exact hm.symm
      · exact absurd hup hdown
    · obtain ⟨hdown, -⟩ | ⟨-, -, hs⟩ := hres
      · exact absurd hup hdown
      · simpa [hlist] using hs
  · intro hrest err' r' hadd' _
    rw [hadd] at hadd'
    cases hadd'
    -- the interface is the last of the list: nothing is cut off
    have hback : back = [] := by
      by_contra hne
      have hlast := hrest.last
      rw [hlist, List.getLast?_append_of_ne_nil _ (by simp), List.getLast?_cons_of_ne_nil hne]
        at hlast
      have hmem : c ∈ back := List.mem_of_getLast? hlast
      have hnodup := h.nodup
      rw [hlist] at hnodup
      exact (List.nodup_cons.mp (List.nodup_append.mp hnodup).2.1).1 hmem
    subst hback
    -- the number it ends with is determined, and the one it had is such a number
    have hnum : m = (r.mem c).num := by
      obtain ⟨hdown, -, hm⟩ | ⟨hup, -, hs⟩ := hres
      · exact hm.trans (hrest.down hdown)
      · have hs' := hrest.up hup
        rw [hlist, List.dropLast_concat] at hs'
        exact hs.det hs'
    refine ⟨hlist.symm, fun x _ => ?_⟩
    rw [hnum, hrest.filled, Function.update_eq_self]

theorem failedAddKeeps_iff (h : r.Chained) (canif : Option Nat) (name : Option (List UInt8))
    (init : Option (Canif → Lwcanerr × Canif)) :
    r.FailedAddKeeps canif name init ↔ r.Spared canif name init := by
  by_cases hbad : BadArgs canif name init
  · refine iff_of_true ?_ (Or.inl hbad)
    intro err r' hadd _
    rw [canifAdd_badArgs hbad] at hadd
    cases hadd
    exact ⟨rfl, fun _ _ => rfl⟩
  · obtain ⟨c, n, f, rfl, rfl, rfl, hn₀, hn⟩ := exists_of_not_badArgs hbad
    -- an interface that is not in the list loses nothing, one that is may
    by_cases hc : c ∈ r.canifList
    · rw [failedAddKeeps_registered h hc hn₀ hn]
      constructor
      · intro hrest
        exact Or.inr (Or.inr ⟨c, rfl, n, rfl, f, rfl, hrest⟩)
      · rintro (hb | hno | ⟨c', hc', n', hn', f', hf', hrest⟩)
        · exact absurd hb hbad
        · exact absurd hc (hno c rfl)
        · cases hc'
          cases hn'
          cases hf'
          exact hrest
    · have hno : ∀ c' ∈ some c, c' ∉ r.canifList := by
        intro c' hc'
        cases hc'
        exact hc
      exact iff_of_true (failedAddKeeps_of_notMem hno) (Or.inr (Or.inl hno))

/-- **A failed addition changes nothing** if and only if the arguments are refused, the interface is
not registered, or it is the last of the list and gets back what it had; adding a registered
interface whose driver comes up fails with `ERROR_CANIF` in any case. -/
theorem failed_add_keeps_iff {ops : List Op} {r : Canifs} (hr : Runs.run step {} ops = some r)
    (canif : Option Nat) (name : Option (List UInt8)) (init : Option (Canif → Lwcanerr × Canif)) :
    (r.FailedAddKeeps canif name init ↔ r.Spared canif name init) ∧
      ∀ c ∈ canif, ∀ n ∈ name, ∀ f ∈ init, c ∈ r.canifList → n.length ≠ 0 → n.length ≤ 4 →
        (f (r.cleared n)).1 = .ok → ∃ r', r.canifAdd canif name init = some (.canif, r') := by
  have h := Chained.of_run hr
  refine ⟨failedAddKeeps_iff h canif name init, ?_⟩
  rintro c rfl n rfl f rfl hc hn₀ hn hup
  obtain ⟨front, back, -, err, m, hadd, ⟨hdown, -⟩ | ⟨-, rfl, -⟩⟩ :=
    canifAdd_registered h hc (f := f) hn₀ hn
  · exact absurd hup hdown
  · exact ⟨_, hadd⟩

/-- Two interfaces are added. -/
def twoAdded : List Op :=
  [.canifAdd (some 0) (some [0x63]) (some comesUp), .canifAdd (some 1) (some [0x64]) (some comesUp)]

theorem failed_add_keeps_twoAdded : ∃ r, Runs.run step {} twoAdded = some r ∧
    r.FailedAddKeeps (some 2) (some [0x65]) (some fun x => (.lowLevelIf, x)) := by
  obtain ⟨r, hr, hc⟩ := Runs.exists_run step {} twoAdded (fun r => 2 ∉ r.canifList) (by decide)
  refine ⟨r, hr, ((failed_add_keeps_iff hr _ _ _).1).mpr (Or.inr (Or.inl ?_))⟩
  intro c hc'
  cases hc'
  exact hc

/-- The one in front is added again: the other is gone, and its index finds nothing. -/
theorem failed_add_loses :
    ¬∀ (ops : List Op) (r : Canifs) (canif : Option Nat) (name : Option (List UInt8))
      (init : Option (Canif → Lwcanerr × Canif)), Runs.run step {} ops = some r →
      ∀ err r', r.canifAdd canif name init = some (err, r') → err ≠ .ok →
        ∀ x ∈ r.canifList, r'.canifGetByIndex (r.canifGetIndex (some x)) = some x := by
  intro h
  -- the second interface is added once more, and the first one is cut off
  obtain ⟨r, hr, hx, hlost⟩ := Runs.exists_run step {} twoAdded
    (fun r => 0 ∈ r.canifList ∧ (r.canifAdd (some 1) (some [0x64]) (some comesUp)).any fun p =>
      p.1 ≠ .ok ∧ p.2.canifGetByIndex (r.canifGetIndex (some 0)) = none) (by decide)
  obtain ⟨⟨err, r'⟩, hadd, hp⟩ := (Option.any_eq_true _ _).mp hlost
  obtain ⟨herr, hnone⟩ := of_decide_eq_true hp
  have hfound := h twoAdded r (some 1) (some [0x64]) (some comesUp) hr err r' hadd herr 0 hx
  rw [hnone] at hfound
  cases hfound

end Canifs
end Lwcan
