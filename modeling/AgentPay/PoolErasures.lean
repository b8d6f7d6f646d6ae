import AgentPay.RequestPool

/-!
# Forgetting part of a pool

A pool may carry more than another: its shared state and its requests each have a part that
the smaller pool does not know. If every move of the larger is a move of the smaller, or one
it does not notice, then every run of the larger is a run of the smaller with the rest
forgotten. In the other direction, a run of the smaller is carried over step by step, where
one step may take several.
-/
namespace AgentPay.PoolErasures
open Runs RequestPool

universe u
variable {σ ρ σ' ρ' ε : Type u}

/-- The pool with the rest of its parts forgotten. -/
def erase (f : σ → σ') (k : ρ → ρ') (p : Pool σ ρ) : Pool σ' ρ' :=
  ⟨f p.shared, p.requests.map k⟩

section Erasure
variable {Arrives : ρ → Prop} {Move : σ → ρ → σ → ρ → Prop} {Outside : σ → ε → σ → Prop}
variable {Arrives' : ρ' → Prop} {Move' : σ' → ρ' → σ' → ρ' → Prop} {Outside' : σ' → ε → σ' → Prop}
variable {f : σ → σ'} {k : ρ → ρ'} {p q : Pool σ ρ} {l : Label ρ ε}

theorem set_same {rs : List ρ'} {n : ℕ} {r : ρ'} (h : rs[n]? = some r) : rs.set n r = rs := by
  obtain ⟨hlt, hr⟩ := List.getElem?_eq_some_iff.mp h
  rw [← hr]
  exact List.set_getElem_self hlt

/-- One step of the larger pool, seen from the smaller. -/
theorem erase_step (harrives : ∀ r, Arrives r → Arrives' (k r))
    (hmove : ∀ s r s' r', Move s r s' r' →
      Move' (f s) (k r) (f s') (k r') ∨ f s' = f s ∧ k r' = k r)
    (houtside : ∀ s e s', Outside s e s' → Outside' (f s) e (f s'))
    (h : Step Arrives Move Outside p l q) :
    (∃ l', Step Arrives' Move' Outside' (erase f k p) l' (erase f k q)) ∨
      erase f k q = erase f k p := by
  cases h with
  | @arrive s rs r ha =>
    left
    refine ⟨.arrive (k r), ?_⟩
    simp only [erase, List.map_append, List.map_singleton]
    exact .arrive (harrives r ha)
  | @outside s s' rs e ho => exact .inl ⟨.outside e, .outside (houtside s e s' ho)⟩
  | @advance s s' rs r r' n hr hm =>
    have hmapped : (rs.map k)[n]? = some (k r) := by rw [List.getElem?_map, hr]; rfl
    rcases hmove s r s' r' hm with hm | ⟨hs, hsame⟩
    · left
      refine ⟨.advance n, ?_⟩
      simp only [erase, List.map_set]
      exact .advance hmapped hm
    · right
      simp only [erase, List.map_set, hs, hsame, set_same hmapped]

theorem erase_run (harrives : ∀ r, Arrives r → Arrives' (k r))
    (hmove : ∀ s r s' r', Move s r s' r' →
      Move' (f s) (k r) (f s') (k r') ∨ f s' = f s ∧ k r' = k r)
    (houtside : ∀ s e s', Outside s e s' → Outside' (f s) e (f s'))
    {h : History (Pool σ ρ) (Label ρ ε)} (hr : Run (Step Arrives Move Outside) p h q) :
    ∃ h', Run (Step Arrives' Move' Outside') (erase f k p) h' (erase f k q) := by
  induction hr with
  | start => exact ⟨[], .start⟩
  | step _ hs ih =>
    obtain ⟨h', hr'⟩ := ih
    rcases erase_step harrives hmove houtside hs with ⟨l', hs'⟩ | hsame
    · exact ⟨_, hr'.step hs'⟩
    · rw [hsame]
      exact ⟨h', hr'⟩

end Erasure

/-- What a run is carried over to, when every one of its steps is, along a relation between
the states, and every step that is taken satisfies `C`. -/
theorem lift_run {τ ι τ' ι' : Type u} {step : τ → ι → τ → Prop} {step' : τ' → ι' → τ' → Prop}
    {R : τ → τ' → Prop} {C : Transition τ' ι' → Prop}
    (hstep : ∀ s i t s', R s s' → step s i t → ∃ h' t', Run step' s' h' t' ∧ R t t' ∧ ∀ x ∈ h', C x)
    {s t : τ} {s' : τ'} {h : History τ ι} (hr : Run step s h t) (h₀ : R s s') :
    ∃ h' t', Run step' s' h' t' ∧ R t t' ∧ ∀ x ∈ h', C x := by
  induction hr with
  | start => exact ⟨[], s', .start, h₀, nofun⟩
  | step _ hs ih =>
    obtain ⟨h₁, t₁, hr₁, hR₁, hC₁⟩ := ih
    obtain ⟨h₂, t₂, hr₂, hR₂, hC₂⟩ := hstep _ _ _ _ hR₁ hs
    exact ⟨h₂ ++ h₁, t₂, hr₁.append hr₂, hR₂, List.forall_mem_append.mpr ⟨hC₂, hC₁⟩⟩

end AgentPay.PoolErasures
