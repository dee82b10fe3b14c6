import Mathlib.Tactic.Common

/-!
# Runs of a partial step function

A system is a function `step : σ → ε → Option σ`, where `none` says that the event cannot happen
in that state. The library has what reasoning about its runs needs:

* `run` — the state a list of events leads to;
* `Along C s es` — every step of the run from `s` on `es` meets the condition `C`;
* `run_inv` — the invariant rule: what every step that meets `C` keeps, a run that meets `C` keeps;
* `run_total` — the same for steps that the invariant makes possible: no such run gets stuck;
* `along_inv` — the same, read at every state the run visits;
* `along_enabled` — every event of a run can happen where it does;
* `along_congr` — two conditions that agree on every step agree on a run;
* `run_related` — two runs on related events, whose states every step keeps related;
* `translate` — the events of another system that a run stands for, and `run_translate`: what the
  run does to a part of the state, if each step does it to the part;
* `run_simulates` — the same, where an invariant makes the steps possible and what they stand for
  meets a condition of its own;
* `picked` — the events of a run that a test picks, and `run_picked`: a system that takes only those
  and stays related;
* `picked_length_add_le` — there are no more of them than a rank allows that each of them lowers.
-/

namespace Lwcan
namespace Runs

variable {σ ε : Type*} (step : σ → ε → Option σ)

/-- The state after the events `es`, if each of them can happen in turn. -/
def run : σ → List ε → Option σ
  | s, [] => some s
  | s, e :: es => (step s e).bind fun t => run t es

/-- Every step of the run from `s` on `es` is taken under the condition `C`. -/
def Along (C : σ → ε → Prop) : σ → List ε → Prop
  | _, [] => True
  | s, e :: es => C s e ∧ ∀ t, step s e = some t → Along C t es

variable {step} {C D : σ → ε → Prop} {I : σ → Prop} {s t u : σ} {es fs : List ε}

@[simp] theorem run_nil : run step s [] = some s := rfl

theorem run_cons {e : ε} :
    run step s (e :: es) = some u ↔ ∃ t, step s e = some t ∧ run step t es = some u := by
  simp [run, Option.bind_eq_some_iff]

/-- A run on a concatenation is a run on the first part and one on the second. -/
theorem run_append :
    run step s (es ++ fs) = some u ↔ ∃ t, run step s es = some t ∧ run step t fs = some u := by
  induction es generalizing s with
  | nil => simp
  | cons e es ih =>
    rw [List.cons_append, run_cons]
    constructor
    · rintro ⟨t, ht, hu⟩
      obtain ⟨v, hv, hu⟩ := ih.mp hu
      exact ⟨v, run_cons.mpr ⟨t, ht, hv⟩, hu⟩
    · rintro ⟨v, hv, hu⟩
      obtain ⟨t, ht, hv⟩ := run_cons.mp hv
      exact ⟨t, ht, ih.mpr ⟨v, hv, hu⟩⟩

/-- A decidable condition is decided along a run by running it. -/
instance decidableAlong [∀ s e, Decidable (C s e)] :
    (s : σ) → (es : List ε) → Decidable (Along step C s es)
  | _, [] => isTrue True.intro
  | s, e :: es =>
    match h : step s e with
    | none =>
      decidable_of_iff (C s e) ⟨fun hc => ⟨hc, fun t ht => by rw [h] at ht; cases ht⟩, And.left⟩
    | some t =>
      have := decidableAlong t es
      decidable_of_iff (C s e ∧ Along step C t es)
        ⟨fun hc => ⟨hc.1, fun u hu => by rw [h] at hu; exact Option.some.inj hu ▸ hc.2⟩,
          fun hc => ⟨hc.1, hc.2 t h⟩⟩

variable (step) in
/-- A run is found by running it. -/
theorem exists_run (s : σ) (es : List ε) (P : σ → Prop) [DecidablePred P]
    (h : (run step s es).any fun t => P t) : ∃ t, run step s es = some t ∧ P t := by
  obtain ⟨t, ht, hP⟩ := (Option.any_eq_true _ _).mp h
  exact ⟨t, ht, of_decide_eq_true hP⟩

theorem Along.trivial (s : σ) (es : List ε) : Along step (fun _ _ => True) s es := by
  induction es generalizing s with
  | nil => exact True.intro
  | cons e es ih => exact ⟨True.intro, fun t _ => ih t⟩

/-- A condition on the events alone -/
theorem Along.of_forall (h : ∀ e ∈ es, ∀ s, C s e) (s : σ) : Along step C s es := by
  induction es generalizing s with
  | nil => exact True.intro
  | cons e es ih =>
    exact ⟨h e List.mem_cons_self s, fun t _ =>
      ih (fun e' he' => h e' (List.mem_cons_of_mem _ he')) t⟩

/-- A condition may be weakened along a run. -/
theorem Along.mono (h : Along step C s es) (hCD : ∀ s e, C s e → D s e) : Along step D s es := by
  induction es generalizing s with
  | nil => trivial
  | cons e es ih => exact ⟨hCD s e h.1, fun t ht => ih (h.2 t ht)⟩

/-- Two conditions met along a run are met together. -/
theorem Along.and (hC : Along step C s es) (hD : Along step D s es) :
    Along step (fun s e => C s e ∧ D s e) s es := by
  induction es generalizing s with
  | nil => trivial
  | cons e es ih => exact ⟨⟨hC.1, hD.1⟩, fun t ht => ih (hC.2 t ht) (hD.2 t ht)⟩

/-- A condition met along a concatenation is met along its first part. -/
theorem Along.left (h : Along step C s (es ++ fs)) : Along step C s es := by
  induction es generalizing s with
  | nil => trivial
  | cons e es ih => exact ⟨h.1, fun t ht => ih (h.2 t ht)⟩

/-- A condition met along a concatenation is met along its second part. -/
theorem Along.right (h : Along step C s (es ++ fs)) (hr : run step s es = some t) :
    Along step C t fs := by
  induction es generalizing s with
  | nil =>
    obtain rfl : s = t := Option.some.inj hr
    exact h
  | cons e es ih =>
    obtain ⟨v, hv, hr⟩ := run_cons.mp hr
    exact ih (h.2 v hv) hr

/-- A condition met along a run, and along one from where it ends -/
theorem Along.append (h : Along step C s es)
    (h' : ∀ t, run step s es = some t → Along step C t fs) : Along step C s (es ++ fs) := by
  induction es generalizing s with
  | nil => exact h' s rfl
  | cons e es ih =>
    exact ⟨h.1, fun t ht => ih (h.2 t ht) fun u hu => h' u (run_cons.mpr ⟨t, ht, hu⟩)⟩

/-- **The invariant rule.** What holds at the start and is kept by every step that meets `C` holds
at the end of a run that meets `C`. -/
theorem run_inv (hstep : ∀ s e t, I s → C s e → step s e = some t → I t)
    (hI : I s) (hC : Along step C s es) (hr : run step s es = some t) : I t := by
  induction es generalizing s with
  | nil =>
    obtain rfl : s = t := Option.some.inj hr
    exact hI
  | cons e es ih =>
    obtain ⟨v, hv, hr⟩ := run_cons.mp hr
    exact ih (hstep s e v hI hC.1 hv) (hC.2 v hv) hr

/-- **The invariant rule for total runs.** Where the invariant makes every step that meets `C`
possible, a run that meets `C` reaches its end. -/
theorem run_total (hstep : ∀ s e, I s → C s e → ∃ t, step s e = some t ∧ I t)
    (hI : I s) (hC : Along step C s es) : ∃ t, run step s es = some t ∧ I t := by
  induction es generalizing s with
  | nil => exact ⟨s, rfl, hI⟩
  | cons e es ih =>
    obtain ⟨v, hv, hIv⟩ := hstep s e hI hC.1
    obtain ⟨t, ht, hIt⟩ := ih hIv (hC.2 v hv)
    exact ⟨t, run_cons.mpr ⟨v, hv, ht⟩, hIt⟩

/-- The invariant rule, read at every state the run visits. -/
theorem along_inv (hstep : ∀ s e t, I s → C s e → step s e = some t → I t)
    (hI : I s) (hC : Along step C s es) : Along step (fun s _ => I s) s es := by
  induction es generalizing s with
  | nil => trivial
  | cons e es ih => exact ⟨hI, fun t ht => ih (hstep s e t hI hC.1 ht) (hC.2 t ht)⟩

/-- Every event of a run can happen in the state in which it does. -/
theorem along_enabled (hr : run step s es = some t) :
    Along step (fun s e => ∃ t, step s e = some t) s es := by
  induction es generalizing s with
  | nil => trivial
  | cons e es ih =>
    obtain ⟨v, hv, hr⟩ := run_cons.mp hr
    refine ⟨⟨v, hv⟩, fun u hu => ?_⟩
    obtain rfl : v = u := Option.some.inj (hv.symm.trans hu)
    exact ih hr

/-- **The rule for two conditions.** Where the invariant makes two conditions on a step agree, and
they keep it, a run meets the one if and only if it meets the other. -/
theorem along_congr {E : ε → Prop}
    (hstep : ∀ s e t, I s → E e → step s e = some t → (C s e ↔ D s e) ∧ (C s e → I t))
    (hI : I s) (hE : ∀ e ∈ es, E e) (hr : run step s es = some t) :
    Along step C s es ↔ Along step D s es := by
  -- by induction on the run: what holds of the first step carries the invariant to the rest
  induction es generalizing s with
  | nil => exact Iff.rfl
  | cons e es ih =>
    obtain ⟨v, hv, hr⟩ := run_cons.mp hr
    obtain ⟨hCD, hIv⟩ := hstep s e v hI (hE e List.mem_cons_self) hv
    have hrest : C s e → (Along step C v es ↔ Along step D v es) := fun hC =>
      ih (hIv hC) (fun e' he' => hE e' (List.mem_cons_of_mem _ he')) hr
    constructor
    · rintro ⟨hC, ha⟩
      refine ⟨hCD.mp hC, fun u hu => ?_⟩
      obtain rfl : v = u := Option.some.inj (hv.symm.trans hu)
      exact (hrest hC).mp (ha v hv)
    · rintro ⟨hD, ha⟩
      refine ⟨hCD.mpr hD, fun u hu => ?_⟩
      obtain rfl : v = u := Option.some.inj (hv.symm.trans hu)
      exact (hrest (hCD.mpr hD)).mpr (ha v hv)

/-- **The rule for two runs.** Where related events keep related states related, as long as the one
run meets `C`, the other run reaches its end, too, in a related state. -/
theorem run_related {R : σ → σ → Prop} {E : ε → ε → Prop}
    (hstep : ∀ s s' e e' t, R s s' → E e e' → C s e → step s e = some t →
      ∃ t', step s' e' = some t' ∧ R t t')
    {s' : σ} {es' : List ε} (hR : R s s') (hE : List.Forall₂ E es es') (hC : Along step C s es)
    (hr : run step s es = some t) : ∃ t', run step s' es' = some t' ∧ R t t' := by
  -- by induction on the two rows of events
  induction hE generalizing s s' with
  | nil =>
    obtain rfl : s = t := Option.some.inj hr
    exact ⟨s', rfl, hR⟩
  | cons he _ ih =>
    obtain ⟨v, hv, hr⟩ := run_cons.mp hr
    obtain ⟨v', hv', hRv⟩ := hstep s s' _ _ v hR he hC.1 hv
    obtain ⟨t', ht', hRt⟩ := ih hRv (hC.2 v hv) hr
    exact ⟨t', run_cons.mpr ⟨v', hv', ht'⟩, hRt⟩

variable (step) in
/-- The events of another system that a run stands for, step by step -/
def translate {δ : Type*} (f : σ → ε → List δ) : σ → List ε → List δ
  | _, [] => []
  | s, e :: es => f s e ++ (step s e).elim [] fun t => translate f t es

theorem translate_cons {δ : Type*} {f : σ → ε → List δ} {e : ε} (h : step s e = some t) :
    translate step f s (e :: es) = f s e ++ translate step f t es := by
  rw [translate, h]
  rfl

/-- **The rule for a part of the state.** Where each step does to a part of the state what another
system does on the events the step stands for, a run does to it what that system does on all of
them. -/
theorem run_translate {τ δ : Type*} {step' : τ → δ → Option τ} {π : σ → τ} {f : σ → ε → List δ}
    (hstep : ∀ s e t, step s e = some t → run step' (π s) (f s e) = some (π t))
    (hr : run step s es = some t) : run step' (π s) (translate step f s es) = some (π t) := by
  induction es generalizing s with
  | nil =>
    obtain rfl : s = t := Option.some.inj hr
    rfl
  | cons e es ih =>
    obtain ⟨v, hv, hr⟩ := run_cons.mp hr
    rw [translate_cons hv]
    exact run_append.mpr ⟨π v, hstep s e v hv, ih hr⟩

/-- **The rule for a simulation.** Where the invariant makes every step that meets `C` possible, and
what the step does to a part of the state is a run of another system, so is what a whole run does to
that part. -/
theorem run_simulates {τ δ : Type*} {step' : τ → δ → Option τ} {D : τ → δ → Prop} {π : σ → τ}
    {f : σ → ε → List δ}
    (hstep : ∀ s e, I s → C s e → ∃ t, step s e = some t ∧ I t ∧
      run step' (π s) (f s e) = some (π t) ∧ Along step' D (π s) (f s e))
    (hI : I s) (hC : Along step C s es) :
    ∃ t, run step s es = some t ∧ I t ∧ run step' (π s) (translate step f s es) = some (π t) ∧
      Along step' D (π s) (translate step f s es) := by
  -- by induction on the run: each event is the row of events that simulates it
  induction es generalizing s with
  | nil => exact ⟨s, rfl, hI, rfl, True.intro⟩
  | cons e es ih =>
    obtain ⟨v, hv, hIv, hd, ha⟩ := hstep s e hI hC.1
    obtain ⟨t, ht, hIt, hds, has⟩ := ih hIv (hC.2 v hv)
    rw [translate_cons hv]
    refine ⟨t, run_cons.mpr ⟨v, hv, ht⟩, hIt, run_append.mpr ⟨π v, hd, hds⟩, ?_⟩
    refine ha.append fun u hu => ?_
    obtain rfl : π v = u := Option.some.inj (hd.symm.trans hu)
    exact has

variable (step) in
/-- The events of a run that are picked, each in the state in which it happens. -/
def picked (p : σ → ε → Bool) : σ → List ε → List ε
  | _, [] => []
  | s, e :: es =>
    let rest := (step s e).elim [] fun t => picked p t es
    if p s e then e :: rest else rest

/-- Where the test is on the event alone, what is picked is what it filters. -/
theorem picked_of_event {q : ε → Bool} (hr : run step s es = some t) :
    picked step (fun _ e => q e) s es = es.filter q := by
  induction es generalizing s with
  | nil => rfl
  | cons e es ih =>
    obtain ⟨v, hv, hr⟩ := run_cons.mp hr
    rw [picked, hv, List.filter_cons]
    show (if q e then e :: picked step (fun _ e => q e) v es else picked step
      (fun _ e => q e) v es) = _
    rw [ih hr]

/-- **The rank rule.** Where no step raises a rank, and those on picked events lower it, a run has
no more picked events than the rank says. -/
theorem picked_length_add_le {p : σ → ε → Bool} {rank : σ → Nat}
    (hstep : ∀ s e t, I s → C s e → step s e = some t → I t ∧ rank t + (p s e).toNat ≤ rank s)
    (hI : I s) (hC : Along step C s es) (hr : run step s es = some t) :
    (picked step p s es).length + rank t ≤ rank s := by
  -- by induction on the run: each event that is picked lowers the rank
  induction es generalizing s with
  | nil =>
    obtain rfl : s = t := Option.some.inj hr
    exact Nat.le_of_eq (Nat.zero_add (rank s))
  | cons e es ih =>
    obtain ⟨v, hv, hr⟩ := run_cons.mp hr
    obtain ⟨hIv, hle⟩ := hstep s e v hI hC.1 hv
    have hrest := ih hIv (hC.2 v hv) hr
    have hlen : (picked step p s (e :: es)).length = (p s e).toNat +
        (picked step p v es).length := by
      rw [picked, hv]
      cases p s e with
      | true => exact Nat.add_comm _ 1
      | false => exact (Nat.zero_add _).symm
    omega

/-- **The rule for a part of a run.** Where an event that is picked keeps related states related,
and one that is not does so without the other run, the picked events are a run of their own. -/
theorem run_picked {R : σ → σ → Prop} {p : σ → ε → Bool}
    (hmine : ∀ s s' e t, R s s' → C s e → p s e = true → step s e = some t →
      ∃ t', step s' e = some t' ∧ R t t')
    (hother : ∀ s s' e t, R s s' → C s e → p s e = false → step s e = some t → R t s')
    {s' : σ} (hR : R s s') (hC : Along step C s es) (hr : run step s es = some t) :
    ∃ t', run step s' (picked step p s es) = some t' ∧ R t t' := by
  induction es generalizing s s' with
  | nil =>
    obtain rfl : s = t := Option.some.inj hr
    exact ⟨s', rfl, hR⟩
  | cons e es ih =>
    obtain ⟨v, hv, hr⟩ := run_cons.mp hr
    have hrest : picked step p s (e :: es) =
        if p s e then e :: picked step p v es else picked step p v es := by
      rw [picked, hv]
      rfl
    rw [hrest]
    -- an event that is picked is taken on both sides, another only on one
    cases hp : p s e with
    | true =>
      obtain ⟨v', hv', hRv⟩ := hmine s s' e v hR hC.1 hp hv
      obtain ⟨t', ht', hRt⟩ := ih hRv (hC.2 v hv) hr
      exact ⟨t', run_cons.mpr ⟨v', hv', ht'⟩, hRt⟩
    | false => exact ih (hother s s' e v hR hC.1 hp hv) (hC.2 v hv) hr

end Runs
end Lwcan
