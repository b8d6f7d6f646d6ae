import AgentPay.Runs
import Mathlib.Algebra.BigOperators.Group.List.Basic
import Mathlib.Algebra.GroupWithZero.Nat

/-!
# Concurrent requests over a shared state

A pool is a shared state and the list of all requests that ever arrived, each
with its own local state; a request's number is its place in the list and a
finished request stays there. One step is an arrival, one atomic move of one
request, or a step of the outside world. Runs of the pool are all interleavings.

The invariant rule is the usual one for interleavings: a fact about one request
is established on arrival, kept by its own moves, and not disturbed by the moves
of the others or by the outside. Quantities are sums over the requests.
-/
namespace AgentPay.RequestPool
open Runs

universe u
variable {σ ρ ε : Type u}

structure Pool (σ ρ : Type u) where
  shared : σ
  requests : List ρ

inductive Label (ρ ε : Type u) where
  | arrive (r : ρ)
  | advance (n : ℕ)
  | outside (e : ε)

section Steps
variable (Arrives : ρ → Prop) (Move : σ → ρ → σ → ρ → Prop) (Outside : σ → ε → σ → Prop)

inductive Step : Pool σ ρ → Label ρ ε → Pool σ ρ → Prop
  | arrive {s : σ} {rs : List ρ} {r : ρ} : Arrives r →
      Step ⟨s, rs⟩ (.arrive r) ⟨s, rs ++ [r]⟩
  | advance {s s' : σ} {rs : List ρ} {r r' : ρ} {n : ℕ} : rs[n]? = some r → Move s r s' r' →
      Step ⟨s, rs⟩ (.advance n) ⟨s', rs.set n r'⟩
  | outside {s s' : σ} {rs : List ρ} {e : ε} : Outside s e s' →
      Step ⟨s, rs⟩ (.outside e) ⟨s', rs⟩

end Steps

/-- Every request of the pool satisfies `P` together with the shared state. -/
def Each (P : σ → ρ → Prop) (p : Pool σ ρ) : Prop :=
  ∀ (n : ℕ) (r : ρ), p.requests[n]? = some r → P p.shared r

/-- The sum of a quantity over the requests. -/
def total (f : ρ → ℕ) (rs : List ρ) : ℕ := (rs.map f).sum

section Rules
variable {Arrives : ρ → Prop} {Move : σ → ρ → σ → ρ → Prop} {Outside : σ → ε → σ → Prop}
variable {P : σ → ρ → Prop} {p q : Pool σ ρ} {l : Label ρ ε}

theorem getElem?_append_singleton {rs : List ρ} {r r' : ρ} {n : ℕ}
    (h : (rs ++ [r])[n]? = some r') : rs[n]? = some r' ∨ r' = r := by
  rw [List.getElem?_append] at h
  split_ifs at h with hn
  · exact .inl h
  · rw [List.getElem?_singleton] at h
    split_ifs at h
    exact .inr (Option.some.inj h).symm

theorem getElem?_set_cases {rs : List ρ} {r r' : ρ} {n m : ℕ}
    (h : (rs.set n r)[m]? = some r') : (m = n ∧ r' = r) ∨ (m ≠ n ∧ rs[m]? = some r') := by
  rw [List.getElem?_set] at h
  split_ifs at h with hn hl
  · exact .inl ⟨hn.symm, (Option.some.inj h).symm⟩
  · exact .inr ⟨Ne.symm hn, h⟩

theorem Each.of_idle (h : p.requests = []) : Each P p := by
  intro n r hn
  simp [h] at hn

/-- The invariant rule for one step: requests arrive with the property, the
moved request keeps it, and so does every other under the change it sees. -/
theorem Step.each (h : Step Arrives Move Outside p l q) (hp : Each P p)
    (harrive : ∀ r, Arrives r → P p.shared r)
    (hown : ∀ n r r', l = .advance n → p.requests[n]? = some r →
      Move p.shared r q.shared r' → P p.shared r → P q.shared r')
    (hkeep : ∀ (n : ℕ) x, p.requests[n]? = some x → P p.shared x → P q.shared x) :
    Each P q := by
  cases h with
  | @arrive s rs r ha =>
    intro n x hx
    rcases getElem?_append_singleton hx with hx | rfl
    · exact hp n x hx
    · exact harrive x ha
  | @advance s s' rs r r' n hr hm =>
    intro m x hx
    rcases getElem?_set_cases hx with ⟨-, rfl⟩ | ⟨-, hx⟩
    · exact hown n r x rfl hr hm (hp n r hr)
    · exact hkeep m x hx (hp m x hx)
  | @outside s s' rs e ho =>
    intro n x hx
    exact hkeep n x hx (hp n x hx)

theorem total_append (f : ρ → ℕ) (rs : List ρ) (r : ρ) :
    total f (rs ++ [r]) = total f rs + f r := by
  simp [total]

theorem total_set (f : ρ → ℕ) {rs : List ρ} {n : ℕ} {r : ρ} (r' : ρ) (h : rs[n]? = some r) :
    total f (rs.set n r') + f r = total f rs + f r' := by
  induction rs generalizing n with
  | nil => simp at h
  | cons x rs ih =>
    cases n with
    | zero =>
      simp only [List.getElem?_cons_zero, Option.some.injEq] at h
      subst h
      simp only [total, List.set_cons_zero, List.map_cons, List.sum_cons]
      omega
    | succ n =>
      have hr := ih (n := n) (by simpa using h)
      simp only [total, List.set_cons_succ, List.map_cons, List.sum_cons] at hr ⊢
      omega

end Rules

/-! ### Schedules

Where moves are functions, a list of labels determines a run. -/
section Schedules
variable (arrives : ρ → Bool) (move : σ → ρ → σ × ρ) (outside : σ → ε → Option σ)

/-- One step, when the label is possible. -/
def step? (p : Pool σ ρ) : Label ρ ε → Option (Pool σ ρ)
  | .arrive r => if arrives r then some ⟨p.shared, p.requests ++ [r]⟩ else none
  | .advance n =>
    match p.requests[n]? with
    | some r => some ⟨(move p.shared r).1, p.requests.set n (move p.shared r).2⟩
    | none => none
  | .outside e =>
    match outside p.shared e with
    | some s => some ⟨s, p.requests⟩
    | none => none

/-- Takes the labels of a schedule that are possible, the last one first. -/
def play (p : Pool σ ρ) : List (Label ρ ε) → History (Pool σ ρ) (Label ρ ε) × Pool σ ρ
  | [] => ([], p)
  | l::ls =>
    match play p ls with
    | (h, q) =>
      match step? arrives move outside q l with
      | some q' => (⟨q, l, q'⟩ :: h, q')
      | none => (h, q)

variable {arrives move outside}
variable {Arrives : ρ → Prop} {Move : σ → ρ → σ → ρ → Prop} {Outside : σ → ε → σ → Prop}

theorem step?_sound (harrives : ∀ r, arrives r = true → Arrives r)
    (hmove : ∀ s r, Move s r (move s r).1 (move s r).2)
    (houtside : ∀ s e s', outside s e = some s' → Outside s e s') {p q : Pool σ ρ} {l : Label ρ ε}
    (h : step? arrives move outside p l = some q) : Step Arrives Move Outside p l q := by
  cases l with
  | arrive r =>
    simp only [step?] at h
    split_ifs at h with ha
    obtain rfl := Option.some.inj h
    exact .arrive (harrives r ha)
  | advance n =>
    simp only [step?] at h
    split at h
    · rename_i r hr
      obtain rfl := Option.some.inj h
      exact .advance hr (hmove _ _)
    · cases h
  | outside e =>
    simp only [step?] at h
    split at h
    · rename_i s hs
      obtain rfl := Option.some.inj h
      exact .outside (houtside _ _ _ hs)
    · cases h

theorem play_run (harrives : ∀ r, arrives r = true → Arrives r)
    (hmove : ∀ s r, Move s r (move s r).1 (move s r).2)
    (houtside : ∀ s e s', outside s e = some s' → Outside s e s') (p : Pool σ ρ)
    (ls : List (Label ρ ε)) :
    Run (Step Arrives Move Outside) p (play arrives move outside p ls).1
      (play arrives move outside p ls).2 := by
  induction ls with
  | nil => exact .start
  | cons l ls ih =>
    simp only [play]
    split
    · rename_i q hq
      exact ih.step (step?_sound harrives hmove houtside hq)
    · exact ih

/-- The newest step of a schedule whose newest label is possible. -/
theorem play_cons {p : Pool σ ρ} {l : Label ρ ε} {ls : List (Label ρ ε)}
    (h : (step? arrives move outside (play arrives move outside p ls).2 l).isSome = true) :
    (play arrives move outside p (l::ls)).1 =
      ⟨(play arrives move outside p ls).2, l, (play arrives move outside p (l::ls)).2⟩ ::
        (play arrives move outside p ls).1 := by
  obtain ⟨q, hq⟩ := Option.isSome_iff_exists.mp h
  simp only [play, hq]

end Schedules

end AgentPay.RequestPool
