import Mathlib.Data.List.Find
import Mathlib.Data.List.TakeWhile
import Lwcan.CanifAdd

/-!
# Finding an interface by its name

`canif_add` keeps the name in a field of four bytes, padded with zeros and without a terminator if
it has four characters. `canif_get_by_name` compares four bytes. It reads past the end of a shorter
string, and it does not read on to see whether a longer one ends after the fourth character.

Next to the list stands what it is for: `names`, the registered interfaces with the names they were
added under, the last one added first. `Named` relates the two, and `step_named` keeps it.

* `padded_eq_iff` — what the comparison of four bytes says about two strings;
* `lookup_by_name_iff` — the lookup finds what `names` has under the string if and only if the
  string has four characters, or one of the two ways in which it can go wrong does not matter.
-/

namespace Lwcan
namespace Canifs

/-! ### The registry as it is meant -/

/-- A registered interface with the name it was added under -/
abbrev Names := List (Nat × List UInt8)

/-- The state next to the names, after an operation -/
def stepNames (s : Canifs × Names) : Op → Option (Canifs × Names)
  | .canifAdd canif name init =>
    (s.1.canifAdd canif name init).map fun p =>
      (p.2, if p.1 = .ok then (canif.getD 0, name.getD []) :: s.2 else s.2)
  | .canifRemove canif =>
    some ((s.1.canifRemove canif).2, canif.elim s.2 fun c => s.2.eraseP fun e => e.1 = c)

/-- The memory that a string points to: its characters, the terminator, and what is behind it -/
def cString (n : List UInt8) (after : Nat → UInt8) (i : Nat) : UInt8 := (n ++ [0]).getD i (after i)

/-- **Lookup is by the whole string**: what is found is the interface added last under this name, if
one is registered, whatever the memory behind the string. -/
def FindsByName (r : Canifs) (names : Names) (n : List UInt8) (after : Nat → UInt8) : Prop :=
  r.canifGetByName (some (cString n after)) = (names.find? fun e => e.2 = n).map Prod.fst ∧
    r.canifNameToIndex (some (cString n after)) =
      r.canifGetIndex ((names.find? fun e => e.2 = n).map Prod.fst)

/-! ### When it holds -/

/-- A name is a string, a driver leaves it alone, and an addition that fails changes nothing. -/
def KeepsNames (s : Canifs × Names) : Op → Prop
  | .canifAdd canif name init =>
    (∀ n ∈ name, 0 ∉ n) ∧ (∀ f ∈ init, ∀ x, (f x).2.name = x.name) ∧ s.1.Spared canif name init
  | .canifRemove _ => True

/-- Behind the terminator there are zeros up to the fourth byte, if it is not behind that itself. -/
def ZeroFilled (n : List UInt8) (after : Nat → UInt8) : Prop := ∀ i < 4, n.length < i → after i = 0

instance (n : List UInt8) (after : Nat → UInt8) : Decidable (ZeroFilled n after) :=
  inferInstanceAs (Decidable (∀ i < 4, _ → _))

/-- A string of up to four characters is filled with zeros, or no interface has this name; a longer
one does not begin with the name of an interface that has four characters. -/
def Comparable (names : Names) (n : List UInt8) (after : Nat → UInt8) : Prop :=
  (n.length ≤ 4 ∧ (ZeroFilled n after ∨ ∀ e ∈ names, e.2 ≠ n)) ∨
    (4 < n.length ∧ ∀ e ∈ names, e.2 ≠ n.take 4)

/-! ### Comparing four bytes -/

/-- What `canif_add` stores for a name -/
def padded (n : List UInt8) : List UInt8 := (n ++ [0, 0, 0, 0]).take 4

/-- The characters of a name are what its field has in front of the first zero. -/
theorem takeWhile_padded {m : List UInt8} (hm : m.length ≤ 4) (h₀ : 0 ∉ m) :
    (padded m).takeWhile (· ≠ 0) = m := by
  have hall : ∀ b ∈ m, (decide (b ≠ 0)) = true := by
    intro b hb
    exact decide_eq_true fun he => h₀ (he ▸ hb)
  unfold padded
  rw [List.take_append, List.take_of_length_le hm, List.takeWhile_append_of_pos hall]
  have hzeros : ([0, 0, 0, 0].take (4 - m.length) : List UInt8).takeWhile (· ≠ 0) = [] := by
    generalize 4 - m.length = k
    cases k <;> rfl
  rw [hzeros, List.append_nil]

/-- The four bytes that are compared -/
def fourBytes (s : Nat → UInt8) : List UInt8 := [s 0, s 1, s 2, s 3]

theorem fourBytes_long {n : List UInt8} (h : 4 ≤ n.length) (after : Nat → UInt8) :
    fourBytes (cString n after) = n.take 4 := by
  match n with
  | a :: b :: c :: d :: n => simp [fourBytes, cString]

/-- A short string shows its terminator and what is behind it. -/
theorem fourBytes_short {n : List UInt8} (h : n.length < 4) (after : Nat → UInt8) :
    fourBytes (cString n after) =
      n ++ 0 :: (List.range' (n.length + 1) (3 - n.length)).map after := by
  match n with
  | [] => simp [fourBytes, cString, List.range']
  | [a] => simp [fourBytes, cString, List.range']
  | [a, b] => simp [fourBytes, cString]
  | [a, b, c] => simp [fourBytes, cString]
  | a :: b :: c :: d :: n => exact absurd h (by simp)

theorem padded_of_lt {n : List UInt8} (h : n.length < 4) :
    padded n = n ++ 0 :: List.replicate (3 - n.length) 0 := by
  match n with
  | [] => rfl
  | [a] => rfl
  | [a, b] => rfl
  | [a, b, c] => rfl
  | a :: b :: c :: d :: n => exact absurd h (by simp)

/-- **The comparison of four bytes**: the name is what the string begins with, and a short string is
filled with zeros. -/
theorem padded_eq_iff {m n : List UInt8} (hm : m.length ≤ 4) (hm₀ : 0 ∉ m) (hn₀ : 0 ∉ n)
    (after : Nat → UInt8) :
    padded m = fourBytes (cString n after) ↔
      m = n.take 4 ∧ ZeroFilled n after := by
  have hpos : ∀ {l : List UInt8}, 0 ∉ l → ∀ b ∈ l, (decide (b ≠ 0)) = true := by
    intro l hl b hb
    exact decide_eq_true fun he => hl (he ▸ hb)
  have htake : 0 ∉ n.take 4 := fun h => hn₀ (List.mem_of_mem_take h)
  -- up to the first zero the four bytes are the string's characters
  have hchars : (fourBytes (cString n after)).takeWhile (· ≠ 0) = n.take 4 := by
    by_cases hl : 4 ≤ n.length
    · rw [fourBytes_long hl]
      exact List.takeWhile_eq_self_iff.mpr (hpos htake)
    · rw [fourBytes_short (by omega), List.takeWhile_append_of_pos (hpos hn₀),
        List.take_of_length_le (by omega)]
      simp
  -- behind the terminator the field has zeros, and the caller's string whatever follows it
  have hpad : n.length < 4 → (padded n = fourBytes (cString n after) ↔ ZeroFilled n after) := by
    intro hl
    have hzeros : List.replicate (3 - n.length) 0 =
        (List.range' (n.length + 1) (3 - n.length)).map after ↔
          ∀ i ∈ List.range' (n.length + 1) (3 - n.length), after i = 0 := by
      rw [eq_comm, ← List.map_eq_replicate_iff, List.length_range']
    rw [padded_of_lt hl, fourBytes_short hl, List.append_cancel_left_eq, List.cons.injEq, hzeros]
    simp only [List.mem_range'_1, true_and]
    constructor
    · intro h i h₁ h₂
      exact h i ⟨h₂, by omega⟩
    · intro h i hi
      exact h i (by omega) hi.1
  constructor
  · intro h
    -- equal four bytes have equal characters
    have hmn : m = n.take 4 := by
      rw [← hchars, ← h, takeWhile_padded hm hm₀]
    refine ⟨hmn, ?_⟩
    by_cases hl : 4 ≤ n.length
    · exact fun i hi hlt => by omega
    · rw [hmn, List.take_of_length_le (by omega)] at h
      exact (hpad (by omega)).mp h
  · rintro ⟨rfl, h⟩
    by_cases hl : 4 ≤ n.length
    · rw [fourBytes_long hl]
      simp [padded, hl]
    · rw [List.take_of_length_le (by omega)]
      exact (hpad (by omega)).mpr h

/-! ### The registry keeps the names -/

/-- **The list is that of the names**, and every field holds its name. -/
structure Named (r : Canifs) (names : Names) : Prop where
  list : r.canifList = names.map Prod.fst
  field : ∀ e ∈ names, (r.mem e.1).name = padded e.2
  length_le : ∀ e ∈ names, e.2.length ≤ 4
  string : ∀ e ∈ names, 0 ∉ e.2

theorem Named.initial : Named {} [] :=
  ⟨rfl, fun _ h => absurd h List.not_mem_nil, fun _ h => absurd h List.not_mem_nil,
    fun _ h => absurd h List.not_mem_nil⟩

/-- The names stay where the list and the interfaces on it do. -/
theorem Named.congr {r r' : Canifs} {names : Names} (h : Named r names)
    (hl : r'.canifList = r.canifList) (hm : ∀ x ∈ r.canifList, r'.mem x = r.mem x) :
    Named r' names := by
  refine ⟨hl.trans h.list, fun e he => ?_, h.length_le, h.string⟩
  rw [hm e.1 (by rw [h.list]; exact List.mem_map_of_mem he)]
  exact h.field e he

/-- **An addition that succeeds** puts the interface in front, with its name. -/
theorem Named.added {r r' : Canifs} {names : Names} (h : Named r names) {c : Nat} {n : List UInt8}
    {f : Canif → Lwcanerr × Canif} (hn₀ : n.length ≠ 0) (hn : n.length ≤ 4) (hs : 0 ∉ n)
    (hf : ∀ x, (f x).2.name = x.name)
    (hadd : r.canifAdd (some c) (some n) (some f) = some (.ok, r')) :
    Named r' ((c, n) :: names) := by
  obtain ⟨-, herr, -⟩ | ⟨m, -, hnum, hok, -⟩ := canifAdd_cases hn₀ hn hadd
  · cases herr
  · -- an interface that is in the list is not added once more
    have hc : c ∉ r.canifList := by
      intro hc
      obtain ⟨front, back, -, -, hu⟩ := unlinkNext_of_mem hc
      refine (number_ok hnum).1 ?_
      rw [hu]
      simp
    -- it is put in front, and only it is written
    obtain ⟨hl, hm⟩ := hok rfl
    rw [unlinkNext_of_notMem hc] at hl
    refine ⟨by rw [hl, h.list]; rfl, ?_, ?_, ?_⟩
    · intro e he
      rw [hm]
      obtain rfl | he := List.mem_cons.mp he
      · simp [hf, cleared, padded]
      · have hne : e.1 ≠ c := by
          intro hec
          refine hc ?_
          rw [h.list, ← hec]
          exact List.mem_map_of_mem he
        rw [Function.update_of_ne hne]
        exact h.field e he
    · intro e he
      obtain rfl | he := List.mem_cons.mp he
      · exact hn
      · exact h.length_le e he
    · intro e he
      obtain rfl | he := List.mem_cons.mp he
      · exact hs
      · exact h.string e he

theorem Named.removed {r : Canifs} {names : Names} (h : Named r names) (c : Nat) :
    Named (r.canifRemove (some c)).2 (names.eraseP fun e => e.1 = c) := by
  have hsub : (names.eraseP fun e => e.1 = c).Sublist names := List.eraseP_sublist
  refine ⟨?_, fun e he => h.field e (hsub.subset he), fun e he => h.length_le e (hsub.subset he),
    fun e he => h.string e (hsub.subset he)⟩
  simp only [canifRemove, h.list]
  rw [List.erase_eq_eraseP, List.eraseP_map]
  refine congrArg (fun p => (names.eraseP p).map Prod.fst) (funext fun e => ?_)
  exact Bool.eq_iff_iff.mpr ⟨fun hb => decide_eq_true (beq_iff_eq.mp hb).symm,
    fun hb => beq_iff_eq.mpr (of_decide_eq_true hb).symm⟩

/-- **One operation** keeps the names. -/
theorem step_named {s s' : Canifs × Names} (h : Named s.1 s.2) (hch : s.1.Chained) {o : Op}
    (ho : KeepsNames s o) (hst : stepNames s o = some s') : Named s'.1 s'.2 ∧ s'.1.Chained := by
  obtain ⟨r, names⟩ := s
  cases o with
  | canifRemove canif =>
    cases hst
    cases canif with
    | none => exact ⟨h, hch⟩
    | some c => exact ⟨h.removed c, hch.canifRemove _⟩
  | canifAdd canif name init =>
    obtain ⟨hstr, hdriver, hspared⟩ := ho
    obtain ⟨⟨err, r'⟩, hadd, rfl⟩ := Option.map_eq_some_iff.mp hst
    refine ⟨?_, hch.canifAdd hadd⟩
    by_cases herr : err = .ok
    · subst herr
      -- bad arguments are refused
      have hargs : ¬BadArgs canif name init := by
        intro hbad
        rw [canifAdd_badArgs hbad] at hadd
        cases hadd
      obtain ⟨c, n, f, rfl, rfl, rfl, hn₀, hn⟩ := exists_of_not_badArgs hargs
      exact h.added hn₀ hn (hstr n rfl) (hdriver f rfl) hadd
    · -- a call that fails is one that keeps the interfaces
      obtain ⟨hl, hm⟩ := (failedAddKeeps_iff hch canif name init).mpr hspared err r' hadd herr
      simp only [if_neg herr]
      exact h.congr hl hm

/-! ### Looking up a name -/

/-- **What the loop of `canif_get_by_name` finds.** -/
theorem canifGetByName_named {r : Canifs} {names : Names} (h : Named r names) {n : List UInt8}
    (hn : 0 ∉ n) (after : Nat → UInt8) :
    r.canifGetByName (some (cString n after)) =
      if ZeroFilled n after then (names.find? fun e => e.2 = n.take 4).map Prod.fst else none := by
  -- an interface matches by its first four characters, if zeros follow a shorter name
  have hmatch : ∀ e ∈ names, (decide ((r.mem e.1).name = fourBytes (cString n after)) = true ↔
      e.2 = n.take 4 ∧ ZeroFilled n after) := by
    intro e he
    rw [decide_eq_true_iff, h.field e he]
    exact padded_eq_iff (h.length_le e he) (h.string e he) hn after
  have hget : r.canifGetByName (some (cString n after)) =
      (names.find? fun e => (r.mem e.1).name = fourBytes (cString n after)).map Prod.fst := by
    simp only [canifGetByName, h.list, List.find?_map]
    rfl
  rw [hget]
  split
  · next hz =>
    congr 1
    refine List.find?_congr fun e he => ?_
    rw [Bool.eq_iff_iff, hmatch e he, decide_eq_true_iff, and_iff_left hz]
  · next hz =>
    rw [List.find?_eq_none.mpr fun e he hm => hz ((hmatch e he).mp hm).2]
    rfl

/-- **Lookup is by the whole string** exactly where the comparison of four bytes cannot tell the
difference. -/
theorem findsByName_iff {r : Canifs} {names : Names} (h : Named r names) {n : List UInt8}
    (hn : 0 ∉ n) (after : Nat → UInt8) :
    FindsByName r names n after ↔ Comparable names n after := by
  have hnone : ∀ m : List UInt8, ((names.find? fun e => e.2 = m).map Prod.fst = none ↔
      ∀ e ∈ names, e.2 ≠ m) := by
    intro m
    simp
  have hfinds : FindsByName r names n after ↔ r.canifGetByName (some (cString n after)) =
      (names.find? fun e => e.2 = n).map Prod.fst :=
    ⟨And.left, fun he => ⟨he, congrArg _ he⟩⟩
  rw [hfinds, canifGetByName_named h hn]
  unfold Comparable
  -- a longer name is found if its first four characters are registered; it never was itself
  by_cases hl : n.length ≤ 4
  · rw [List.take_of_length_le hl]
    by_cases hz : ZeroFilled n after
    · simp [hz, hl]
    · rw [if_neg hz, eq_comm, hnone]
      simp [hz, hl, Nat.not_lt.mpr hl]
  · have hz : ZeroFilled n after := fun i hi hlt => by omega
    have hspec : (names.find? fun e => e.2 = n).map Prod.fst = none := by
      refine (hnone n).mpr fun e he hen => hl ?_
      rw [← hen]
      exact h.length_le e he
    rw [if_pos hz, hspec, hnone]
    simp [hl, Nat.not_le.mp hl]

/-- **Lookup by name.** After every sequence of operations that keeps the names, the interface found
under a string is the one added last under that name if and only if the string is comparable. -/
theorem lookup_by_name_iff {ops : List Op} {r : Canifs} {names : Names}
    (hc : Runs.Along stepNames KeepsNames ({}, []) ops)
    (hr : Runs.run stepNames ({}, []) ops = some (r, names)) {n : List UInt8} (hn : 0 ∉ n)
    (after : Nat → UInt8) : FindsByName r names n after ↔ Comparable names n after := by
  have hinv : Named r names ∧ r.Chained :=
    Runs.run_inv (I := fun s : Canifs × Names => Named s.1 s.2 ∧ s.1.Chained)
      (fun _ _ _ h ho hst => step_named h.1 h.2 ho hst)
      ⟨Named.initial, ⟨List.nodup_nil, Nat.zero_le _⟩⟩ hc hr
  exact findsByName_iff hinv.1 hn after

/-- An interface is added under the name `can0`. -/
def can0Added : List Op :=
  [.canifAdd (some 0) (some [0x63, 0x61, 0x6E, 0x30]) (some comesUp)]

theorem can0Added_keepsNames : Runs.Along stepNames KeepsNames ({}, []) can0Added := by
  refine ⟨⟨?_, ?_, Or.inr (Or.inl fun c _ => List.not_mem_nil)⟩, fun _ _ => trivial⟩
  · intro n hn
    cases hn
    decide
  · intro f hf x
    cases hf
    rfl

theorem lookup_by_name_can0 : ∃ r names, Runs.run stepNames ({}, []) can0Added = some (r, names) ∧
    FindsByName r names [0x63, 0x61, 0x6E, 0x30] fun _ => 0xFF := by
  obtain ⟨⟨r, names⟩, hr, -⟩ := Runs.exists_run stepNames ({}, []) can0Added (fun _ => True)
    (by decide)
  exact ⟨r, names, hr, (lookup_by_name_iff can0Added_keepsNames hr (by decide) _).mpr
    (Or.inl ⟨by decide, Or.inl (by decide)⟩)⟩

/-- The name `can01` finds the interface that was added as `can0`. -/
theorem longer_name_matches :
    ¬∀ (ops : List Op) (r : Canifs) (names : Names) (n : List UInt8) (after : Nat → UInt8),
      Runs.Along stepNames KeepsNames ({}, []) ops →
      Runs.run stepNames ({}, []) ops = some (r, names) → 0 ∉ n → FindsByName r names n after := by
  intro h
  obtain ⟨⟨r, names⟩, hr, hfound, hnone⟩ := Runs.exists_run stepNames ({}, []) can0Added
    (fun s => s.1.canifGetByName (some (cString [0x63, 0x61, 0x6E, 0x30, 0x31] fun _ => 0)) =
      some 0 ∧ s.2.find? (fun e => e.2 = [0x63, 0x61, 0x6E, 0x30, 0x31]) = none) (by decide)
  have hfinds := (h can0Added r names [0x63, 0x61, 0x6E, 0x30, 0x31] (fun _ => 0)
    can0Added_keepsNames hr (by decide)).1
  rw [hfound, hnone] at hfinds
  cases hfinds

end Canifs
end Lwcan
