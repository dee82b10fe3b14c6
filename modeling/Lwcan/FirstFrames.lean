import Lwcan.FdFrames
import Lwcan.System

/-!
# Lengths in classic first frames

A classic first frame has twelve bits for the length of the message. `isotp_send` accepts every
length for which the allocator has room, and `isotp_fill_ff` masks what does not fit: the frame of a
message of 4096 bytes announces none. `announces_iff` says which messages are announced with their
length.
-/

namespace Lwcan
namespace Node

variable {cfg : Config} {s : Node} {p : Nat} {d : List UInt8} {g : Grant}

/-- **What is accepted is announced**: a message that `isotp_send` accepts has at most 4095 bytes,
and if it takes a first frame, `isotp_get_ff_dl` reads its length from what `isotp_fill_ff`
builds. -/
def Announces (cfg : Config) (s : Node) (p : Nat) (d : List UInt8) (g : Grant) (frame : CanFrame) :
    Prop :=
  (s.isotpSend cfg (some p) (some d) g).1 = .ok →
    d.length ≤ 4095 ∧
      (((s.isotpSend cfg (some p) (some d) g).2.flow (p, .output)).state = .txFf →
        isotpGetFfDl cfg
            (isotpFillFf cfg ((s.isotpSend cfg (some p) (some d) g).2.headBuffer (p, .output))
              ((s.isotpSend cfg (some p) (some d) g).2.flow (p, .output)) frame).2.data =
          d.length)

/-- **The first frame** of an accepted message announces the low twelve bits of its length. -/
theorem isotpGetFfDl_isotpFillFf (hc : cfg.canfd = false) (hl : d.length < 4294967296)
    (h : (s.isotpSend cfg (some p) (some d) g).1 = .ok)
    (hs : ((s.isotpSend cfg (some p) (some d) g).2.flow (p, .output)).state = .txFf)
    (frame : CanFrame) :
    isotpGetFfDl cfg
        (isotpFillFf cfg ((s.isotpSend cfg (some p) (some d) g).2.headBuffer (p, .output))
          ((s.isotpSend cfg (some p) (some d) g).2.flow (p, .output)) frame).2.data =
      d.length % 4096 := by
  obtain ⟨buf, hbuf, -, -, -, hrem, hstate⟩ := isotpSend_accepted h
  generalize (s.isotpSend cfg (some p) (some d) g).2 = s' at *
  -- only a message that needs more than a single frame is in `ISOTP_TX_FF`
  have hlong : sfMax cfg < d.length := by
    by_contra hshort
    rw [hs, if_neg hshort] at hstate
    cases hstate
  obtain ⟨-, hwire⟩ := isotpFillFf_eq cfg buf (s'.flow (p, .output)) frame
    (by rw [hrem]; exact hlong) (by rw [hrem]; exact hl)
  rw [hbuf]
  generalize (isotpFillFf cfg (some buf) (s'.flow (p, .output)) frame).2 = f at *
  rw [hrem, ffHeader, if_neg (by simp [hc])] at hwire
  -- the two header bytes of the frame are the first two cells of its data
  have hlen : 2 ≤ f.len := by
    have := congrArg List.length hwire
    simp only [CanFrame.wire, Mem.length_slice, List.length_append, List.length_cons,
      List.length_nil] at this
    omega
  have hcell : ∀ i < 2, some (f.data i) = f.wire[i]? := by
    intro i hi
    rw [CanFrame.wire, Mem.getElem?_slice, if_pos (by omega), Nat.zero_add]
  have hzero : f.data 0 = ffType ||| (UInt8.ofNat (d.length >>> 8) &&& 0x0F) :=
    Option.some.inj ((hcell 0 (by decide)).trans (by rw [hwire]; rfl))
  have hone : f.data 1 = UInt8.ofNat d.length &&& 0xFF :=
    Option.some.inj ((hcell 1 (by decide)).trans (by rw [hwire]; rfl))
  simp only [isotpGetFfDl, ffIsFd, hc, Bool.false_and, Bool.false_eq_true, if_false, hzero, hone]
  exact ffHeader_classic d.length

/-- **A message is announced with its length** if and only if it has at most 4095 bytes, or it is
refused: the flow is not idle, or the allocator has no room. -/
theorem announces_iff {cfg : Config} (hc : cfg.canfd = false) (s : Node) (p : Nat) {d : List UInt8}
    (g : Grant) (frame : CanFrame) (hl : d.length < 4294967296) :
    Announces cfg s p d g frame ↔
      d.length ≤ 4095 ∨ (s.flow (p, .output)).state ≠ .idle ∨ g.granted = false := by
  constructor
  · intro h
    by_contra hno
    obtain ⟨hlong, hno⟩ := not_or.mp hno
    obtain ⟨hidle, hgrant⟩ := not_or.mp hno
    -- a message too long for twelve bits, an idle flow and room for it: it is accepted
    have hne : d ≠ [] := by
      rintro rfl
      exact hlong (Nat.zero_le _)
    have hok : (s.isotpSend cfg (some p) (some d) g).1 = .ok :=
      (isotpSend_eq_ok_iff hne).mpr ⟨p, rfl, not_not.mp hidle, by simpa using hgrant⟩
    exact hlong (h hok).1
  · intro h hok
    -- of what is accepted only the length can be at fault
    obtain ⟨-, -, hne, -⟩ := isotpSend_accepted hok
    obtain ⟨p', hp', hidle, hgrant⟩ := (isotpSend_eq_ok_iff hne).mp hok
    cases hp'
    have hshort : d.length ≤ 4095 := by
      obtain h | h | h := h
      · exact h
      · exact absurd hidle h
      · rw [h] at hgrant
        cases hgrant
    refine ⟨hshort, fun hs => ?_⟩
    rw [isotpGetFfDl_isotpFillFf hc hl hok hs]
    exact Nat.mod_eq_of_lt (by omega)

theorem announces_twenty :
    Announces Config.classic ((lwcanInit Config.classic).isotpNew Config.classic).2 0
      (List.replicate 20 0x55) ⟨some 1, some 2, fun _ => 0⟩ ⟨0, 0, 0, fun _ => 0⟩ :=
  (announces_iff rfl _ _ _ _ (by decide)).mpr (Or.inl (by decide))

/-- A message of 4096 bytes is accepted, and announced as one of none. -/
theorem announces_none :
    ¬∀ (cfg : Config) (es : List Event) (s : Node) (p : Nat) (d : List UInt8) (g : Grant)
      (frame : CanFrame), cfg.canfd = false → Run cfg es s → p ∈ s.isotpPcbList →
      d.length < 4294967296 → (s.isotpSend cfg (some p) (some d) g).1 = .ok →
      ((s.isotpSend cfg (some p) (some d) g).2.flow (p, .output)).state = .txFf →
      isotpGetFfDl cfg
          (isotpFillFf cfg ((s.isotpSend cfg (some p) (some d) g).2.headBuffer (p, .output))
            ((s.isotpSend cfg (some p) (some d) g).2.flow (p, .output)) frame).2.data =
        d.length := by
  intro h
  obtain ⟨s, hr, hp, hidle⟩ := exists_run Config.classic connected
    (fun s => 0 ∈ s.isotpPcbList ∧ (s.flow (0, .output)).state = .idle) (by decide)
  have hlen : (List.replicate 4096 (0x55 : UInt8)).length = 4096 := List.length_replicate
  have hne : List.replicate 4096 (0x55 : UInt8) ≠ [] := by
    intro hnil
    rw [hnil] at hlen
    cases hlen
  have hok : (s.isotpSend Config.classic (some 0) (some (List.replicate 4096 0x55))
      ⟨some 1, some 2, fun _ => 0⟩).1 = .ok :=
    (isotpSend_eq_ok_iff hne).mpr ⟨0, rfl, hidle, rfl⟩
  -- it takes a first frame
  have hstate : ((s.isotpSend Config.classic (some 0) (some (List.replicate 4096 0x55))
      ⟨some 1, some 2, fun _ => 0⟩).2.flow (0, .output)).state = .txFf := by
    obtain ⟨-, -, -, -, -, -, hstate⟩ := isotpSend_accepted hok
    rw [hstate, hlen]
    rfl
  -- which announces the low twelve bits of 4096, all of them zero
  have hread := h Config.classic connected s 0 _ _ ⟨0, 0, 0, fun _ => 0⟩ rfl hr hp
    (by rw [hlen]; decide) hok hstate
  rw [isotpGetFfDl_isotpFillFf rfl (by rw [hlen]; decide) hok hstate, hlen] at hread
  cases hread

end Node
end Lwcan
