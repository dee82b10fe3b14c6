import Lwcan.IsotpOut

/-!
# Blocks of consecutive frames

Both flows decide after each consecutive frame whether a flow-control frame is due, from an
`int8_t`: the block size minus the sequence number of the frame, which runs through 0 to 15 and is
not restarted with the block. `limit` is how many decisions that gets right.

* `blockOpen_iff_dvd`, `not_blockOpen_iff_dvd_limit` — the decision is right below `limit` and wrong
  there.
* `Blocks` — the blocks of a message, counted as they should be.
* `AtGate`, `AfterFrame` — what the code decides keeps the blocks honoured below the limit, and no
  longer.
-/

namespace Lwcan

/-! ### The decision after a frame -/

/-- The first consecutive frame after which the decision is wrong, for block sizes 1 to 255 -/
def limit (bs : Nat) : Nat :=
  if bs = 1 then 16
  else if bs ≤ 14 then bs + 1
  else if bs = 15 then 30
  else if bs ≤ 127 then bs
  else if bs = 128 then 16
  else 1

theorem limit_pos (bs : Nat) : 0 < limit bs := by
  unfold limit
  split_ifs <;> omega

section Decision

variable {bs i : Nat}

/-- After frame `i` a flow control is due, as the code decides. -/
theorem blockOpen_eq_false (hbs : 1 ≤ bs) :
    blockOpen bs i = false ↔ ((bs : Int) - i + 128) % 256 ≤ 128 := by
  unfold blockOpen i8
  simp only [Bool.or_eq_false_iff, decide_eq_false_iff_not]
  omega

/-- **The decision is right** below the limit: a block ends where `bs` divides the number of
frames. -/
theorem blockOpen_iff_dvd (hbs : 1 ≤ bs) (hi : 1 ≤ i) (hl : i < limit bs) :
    blockOpen bs (i % 16) = false ↔ bs ∣ i := by
  rw [blockOpen_eq_false hbs]
  unfold limit at hl
  split_ifs at hl with h₁ h₂ h₃ h₄ h₅
  · subst h₁
    exact iff_of_true (by omega) (one_dvd i)
  · -- no more than one block
    have hdvd : bs ∣ i ↔ i = bs :=
      ⟨fun h => le_antisymm (by omega) (Nat.le_of_dvd (by omega) h), fun h => h ▸ dvd_rfl⟩
    rw [hdvd]
    omega
  · subst h₃
    have hmod : i % 16 = if i < 16 then i else i - 16 := by split <;> omega
    rw [hmod]
    split <;> omega
  · exact iff_of_false (by omega) fun h => absurd (Nat.le_of_dvd (by omega) h) (by omega)
  · subst h₅
    omega
  · omega

/-- **The decision is wrong** at the limit. -/
theorem not_blockOpen_iff_dvd_limit (hbs : 1 ≤ bs) (hbs' : bs ≤ 255) :
    ¬ (blockOpen bs (limit bs % 16) = false ↔ bs ∣ limit bs) := by
  rw [blockOpen_eq_false hbs]
  unfold limit
  split_ifs with h₁ h₂ h₃ h₄ h₅
  · subst h₁
    decide
  · have hdvd : ¬ bs ∣ bs + 1 := fun h => by
      have := (Nat.dvd_add_right dvd_rfl).mp h
      have := Nat.le_of_dvd (by omega) this
      omega
    have hclosed : ((bs : Int) - ((bs + 1) % 16 : Nat) + 128) % 256 ≤ 128 := by omega
    exact fun h => hdvd (h.mp hclosed)
  · subst h₃
    decide
  · have hopen : ¬ ((bs : Int) - (bs % 16 : Nat) + 128) % 256 ≤ 128 := by omega
    exact fun h => hopen (h.mpr dvd_rfl)
  · subst h₅
    decide
  · have hdvd : ¬ bs ∣ 1 := fun h => absurd (Nat.le_of_dvd (by omega) h) (by omega)
    have hclosed : ((bs : Int) - (1 % 16 : Nat) + 128) % 256 ≤ 128 := by omega
    exact fun h => hdvd (h.mp hclosed)

end Decision

/-! ### Blocks -/

/-- The blocks of a message. -/
structure Blocks where
  /-- The consecutive frames so far -/
  sent : Nat := 0
  /-- Those since the last flow control -/
  since : Nat := 0
  /-- After how many of them the message went on, with a flow control or another frame -/
  passed : Nat := 0
  /-- Every block but the last had the block size. -/
  honoured : Bool := true
  deriving DecidableEq

namespace Blocks

/-- Another consecutive frame, in the same block -/
def frame (bs : Nat) (b : Blocks) : Blocks :=
  ⟨b.sent + 1, b.since + 1, b.sent, b.honoured && b.since < bs⟩

/-- A flow control ends the block. -/
def gate (bs : Nat) (b : Blocks) : Blocks :=
  ⟨b.sent, 0, b.sent, b.honoured && (b.sent = 0 || b.since = bs)⟩

/-- What was decided so far was right below the limit and wrong from there on. -/
def Limited (bs : Nat) (b : Blocks) : Prop := b.honoured ↔ b.passed < limit bs

/-- A block has just ended, or none has begun. -/
structure AtGate (bs : Nat) (b : Blocks) : Prop where
  limited : b.Limited bs
  passed : b.passed = b.sent
  since : b.since = 0
  dvd : b.honoured → bs ∣ b.sent

/-- A frame was the last thing, and what follows it is not decided. -/
structure AfterFrame (bs : Nat) (b : Blocks) : Prop where
  limited : b.Limited bs
  passed : b.passed + 1 = b.sent
  since : b.honoured → b.since = (b.sent - 1) % bs + 1

variable {bs : Nat} {b : Blocks}

theorem atGate_start : AtGate bs {} :=
  ⟨iff_of_true rfl (limit_pos bs), rfl, rfl, fun _ => dvd_zero bs⟩

/-- The first flow control of a message -/
theorem AtGate.gate (h : AtGate bs b) (hs : b.sent = 0) : AtGate bs (b.gate bs) := by
  obtain ⟨sent, since, passed, honoured⟩ := b
  obtain ⟨h₁, h₂, h₃, -⟩ := h
  cases hs
  cases h₂
  refine ⟨?_, rfl, rfl, fun _ => dvd_zero bs⟩
  show (honoured && (decide (0 = 0) || _)) = true ↔ _
  rw [decide_eq_true rfl, Bool.true_or, Bool.and_true]
  exact h₁

/-- The first frame of a block -/
theorem AtGate.frame (h : AtGate bs b) (hbs : 1 ≤ bs) : AfterFrame bs (b.frame bs) := by
  obtain ⟨sent, since, passed, honoured⟩ := b
  obtain ⟨h₁, h₂, h₃, h₄⟩ := h
  cases h₂
  cases h₃
  have hpos : 0 < bs := hbs
  have hh : (honoured && decide (0 < bs)) = honoured := by
    rw [decide_eq_true hpos, Bool.and_true]
  refine ⟨?_, rfl, fun hh' => ?_⟩
  · show (honoured && decide (0 < bs)) = true ↔ _
    rw [hh]
    exact h₁
  · change (honoured && decide (0 < bs)) = true at hh'
    rw [hh] at hh'
    show 1 = (sent + 1 - 1) % bs + 1
    rw [Nat.add_sub_cancel, Nat.mod_eq_zero_of_dvd (h₄ hh')]

/-- The decision after a frame, right or wrong -/
theorem AfterFrame.decided (h : AfterFrame bs b) (hbs : 1 ≤ bs) (hbs' : bs ≤ 255) {h' : Bool}
    (hd : h' = true ↔ b.honoured ∧ (blockOpen bs (b.sent % 16) = false ↔ bs ∣ b.sent)) :
    h' = true ↔ b.sent < limit bs := by
  obtain ⟨h₁, h₂, -⟩ := h
  unfold Limited at h₁
  rw [hd, h₁]
  constructor
  · rintro ⟨hlt, hright⟩
    rcases Nat.lt_or_ge b.sent (limit bs) with hl | hl
    · exact hl
    · have heq : b.sent = limit bs := by omega
      rw [heq] at hright
      exact absurd hright (not_blockOpen_iff_dvd_limit hbs hbs')
  · intro hlt
    exact ⟨by omega, blockOpen_iff_dvd hbs (by omega) hlt⟩

/-- Frames of a block so far, counted from its start -/
theorem since_eq_iff_dvd (hbs : 1 ≤ bs) {n : Nat} (hn : 1 ≤ n) : (n - 1) % bs + 1 = bs ↔
    bs ∣ n := by
  obtain ⟨k, rfl⟩ := Nat.exists_eq_add_of_le' hn
  obtain ⟨c, rfl⟩ := Nat.exists_eq_add_of_le' hbs
  rw [Nat.add_sub_cancel, Nat.dvd_iff_mod_eq_zero, Nat.succ_mod_succ_eq_zero_iff]
  omega

/-- **A flow control after a frame**, as the code decides -/
theorem AfterFrame.gate (h : AfterFrame bs b) (hbs : 1 ≤ bs) (hbs' : bs ≤ 255)
    (hd : blockOpen bs (b.sent % 16) = false) : AtGate bs (b.gate bs) := by
  have hpos : 1 ≤ b.sent := by
    have := h.passed
    omega
  have key : (b.gate bs).honoured = true ↔ b.honoured ∧ bs ∣ b.sent := by
    show (b.honoured && (decide (b.sent = 0) || decide (b.since = bs))) = true ↔ _
    rw [Bool.and_eq_true, Bool.or_eq_true, decide_eq_true_iff, decide_eq_true_iff]
    refine and_congr_right fun hh => ?_
    rw [h.since hh, since_eq_iff_dvd hbs hpos]
    exact or_iff_right (by omega)
  refine ⟨?_, rfl, rfl, fun hh => (key.mp hh).2⟩
  refine h.decided hbs hbs' (key.trans (and_congr_right fun _ => ?_))
  exact ⟨fun hdvd => iff_of_true hd hdvd, fun hiff => hiff.mp hd⟩

/-- **Another frame after a frame**, as the code decides -/
theorem AfterFrame.frame (h : AfterFrame bs b) (hbs : 1 ≤ bs) (hbs' : bs ≤ 255)
    (hd : blockOpen bs (b.sent % 16) = true) : AfterFrame bs (b.frame bs) := by
  have hpos : 1 ≤ b.sent := by
    have := h.passed
    omega
  have hlt := Nat.mod_lt (b.sent - 1) (Nat.lt_of_succ_le hbs)
  have key : (b.frame bs).honoured = true ↔ b.honoured ∧ ¬ bs ∣ b.sent := by
    show (b.honoured && decide (b.since < bs)) = true ↔ _
    rw [Bool.and_eq_true, decide_eq_true_iff]
    refine and_congr_right fun hh => ?_
    rw [h.since hh, ← since_eq_iff_dvd hbs hpos]
    omega
  refine ⟨?_, rfl, fun hh => ?_⟩
  · refine h.decided hbs hbs' (key.trans (and_congr_right fun _ => ?_))
    rw [hd]
    exact ⟨fun hdvd => iff_of_false (by rintro ⟨⟩) hdvd,
      fun hiff hdvd => absurd (hiff.mpr hdvd) (by rintro ⟨⟩)⟩
  · obtain ⟨hh, hdvd⟩ := key.mp hh
    have hne := mt (since_eq_iff_dvd hbs hpos).mp hdvd
    show b.since + 1 = (b.sent + 1 - 1) % bs + 1
    rw [h.since hh, Nat.add_sub_cancel, ← Nat.mod_eq_of_lt (by omega : (b.sent - 1) % bs + 1 < bs),
      Nat.mod_add_mod, Nat.sub_add_cancel hpos]

end Blocks
end Lwcan
