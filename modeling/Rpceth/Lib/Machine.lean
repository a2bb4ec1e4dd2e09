import Mathlib.Init

/-! Runs of a machine given by a partial step function: `step s e` is the state after event `e`, or
    `none` where `e` is not possible in `s`. -/

namespace Lib
variable {σ ε : Type}

/-- The states reached from `start` by steps that all meet `ok`. -/
inductive Reached (step : σ → ε → Option σ) (ok : σ → ε → Prop) (start : σ) : σ → Prop where
  | start : Reached step ok start start
  | step {s t : σ} {e : ε} : Reached step ok start s → ok s e → step s e = some t → Reached step ok start t

namespace Reached
variable {step : σ → ε → Option σ} {ok : σ → ε → Prop} {start s t : σ}

/-- What the start has and every step that meets `ok` keeps, every reached state has. -/
theorem invariant {I : σ → Prop} (hstart : I start)
    (hstep : ∀ s e t, I s → ok s e → step s e = some t → I t) (h : Reached step ok start s) : I s := by
  induction h with
  | start => exact hstart
  | step _ hok hs ih => exact hstep _ _ _ ih hok hs

theorem mono {ok' : σ → ε → Prop} (h : Reached step ok start s) (hok : ∀ s e, ok s e → ok' s e) :
    Reached step ok' start s := by
  induction h with
  | start => exact .start
  | step _ h hs ih => exact .step ih (hok _ _ h) hs

theorem trans (h₁ : Reached step ok start s) (h₂ : Reached step ok s t) : Reached step ok start t := by
  induction h₂ with
  | start => exact h₁
  | step _ hok hs ih => exact .step ih hok hs

/-- The rule for simulations: if the states are related at the start, and every step of the one machine is matched
    by steps of the other one, then every state that the one reaches is related to one that the other reaches. -/
theorem simulate {τ ε' : Type} {step' : τ → ε' → Option τ} {ok' : τ → ε' → Prop} {start' : τ} {R : σ → τ → Prop}
    (hstart : R start start')
    (hstep : ∀ s e s' t, Reached step ok start s → ok s e → step s e = some s' → R s t →
      ∃ t', Reached step' ok' t t' ∧ R s' t')
    (h : Reached step ok start s) : ∃ t, Reached step' ok' start' t ∧ R s t := by
  induction h with
  | start => exact ⟨start', .start, hstart⟩
  | step hr hok hs ih =>
    obtain ⟨t, ht, hR⟩ := ih
    obtain ⟨t', ht', hR'⟩ := hstep _ _ _ t hr hok hs hR
    exact ⟨t', ht.trans ht', hR'⟩

end Reached

/-- The state after a list of events, if all of them are possible. -/
def run (step : σ → ε → Option σ) (s : σ) : List ε → Option σ
  | [] => some s
  | e :: es => (step s e).bind fun t => run step t es

theorem reached_of_run_of_forall {step : σ → ε → Option σ} {ok : σ → ε → Prop} {s t : σ} {es : List ε}
    (hok : ∀ e ∈ es, ∀ s, ok s e) (h : run step s es = some t) : Reached step ok s t := by
  induction es generalizing s with
  | nil =>
    cases h
    exact .start
  | cons e es ih =>
    obtain ⟨u, hu, ht⟩ := Option.bind_eq_some_iff.mp h
    have hfirst : Reached step ok s u := .step .start (hok e List.mem_cons_self s) hu
    exact hfirst.trans (ih (fun e he => hok e (List.mem_cons_of_mem _ he)) ht)

/-- The steps that meet `ok`. -/
def guarded (step : σ → ε → Option σ) (ok : σ → ε → Prop) [∀ s e, Decidable (ok s e)] (s : σ) (e : ε) : Option σ :=
  if ok s e then step s e else none

section
variable {step : σ → ε → Option σ} {ok : σ → ε → Prop} [∀ s e, Decidable (ok s e)] {s t : σ} {es : List ε}

theorem reached_of_run (h : run (guarded step ok) s es = some t) : Reached step ok s t := by
  induction es generalizing s with
  | nil =>
    cases h
    exact .start
  | cons e es ih =>
    obtain ⟨u, hu, ht⟩ := Option.bind_eq_some_iff.mp h
    unfold guarded at hu
    split at hu
    · rename_i hok
      have hfirst : Reached step ok s u := .step .start hok hu
      exact hfirst.trans (ih ht)
    · cases hu

theorem exists_reached_of_run {p : σ → Bool} (h : (run (guarded step ok) s es).any p = true) :
    ∃ t, Reached step ok s t ∧ p t = true := by
  obtain ⟨t, ht, hp⟩ := (Option.any_eq_true _ _).mp h
  exact ⟨t, reached_of_run ht, hp⟩

end
end Lib
