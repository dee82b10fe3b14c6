import Mathlib.Tactic.Common

/-!
# Monitors

A monitor reads a log entry by entry and keeps a state of its own, `step : σ → α → σ`. What the log
says at an entry is a statement about that entry and the monitor's state before it:

* `AtEach step P m l` — `P` holds at every entry of `l`, read from the monitor's state `m` on;
* `AtEach.append` — a log read in two parts;
* `AtEach.of_split` — the statement at one place;
* `foldl_of_keeps` — entries the monitor ignores.
-/

namespace Lwcan
namespace Monitor

variable {σ α : Type*}

/-- `P` holds of every entry and the monitor's state before it. -/
def AtEach (step : σ → α → σ) (P : σ → α → Prop) : σ → List α → Prop
  | _, [] => True
  | m, a :: l => P m a ∧ AtEach step P (step m a) l

variable {step : σ → α → σ} {P : σ → α → Prop} {m : σ} {l l' l₁ l₂ : List α} {a : α}

theorem AtEach.append :
    AtEach step P m (l ++ l') ↔ AtEach step P m l ∧ AtEach step P (l.foldl step m) l' := by
  induction l generalizing m with
  | nil => simp [AtEach]
  | cons a l ih => simp only [List.cons_append, AtEach, ih, List.foldl_cons, and_assoc]

/-- The statement at one place in the log -/
theorem AtEach.of_split (h : AtEach step P m (l₁ ++ a :: l₂)) : P (l₁.foldl step m) a :=
  (AtEach.append.mp h).2.1

theorem AtEach.of_forall (h : ∀ a ∈ l, ∀ m, P m a) : AtEach step P m l := by
  induction l generalizing m with
  | nil => trivial
  | cons a l ih =>
    exact ⟨h a List.mem_cons_self m, ih fun a' ha' => h a' (List.mem_cons_of_mem _ ha')⟩

/-- Entries that leave the monitor's state as it is -/
theorem foldl_of_keeps (h : ∀ a ∈ l, ∀ m, step m a = m) (m : σ) : l.foldl step m = m := by
  induction l with
  | nil => rfl
  | cons a l ih =>
    rw [List.foldl_cons, h a List.mem_cons_self,
      ih fun a' ha' => h a' (List.mem_cons_of_mem _ ha')]

end Monitor
end Lwcan
