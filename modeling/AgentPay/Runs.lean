import Mathlib.Data.Nat.Notation
import Mathlib.Logic.Function.Basic

/-!
# Finite runs of a labelled transition relation

A run keeps its whole history: one record per step with the state before, the
label and the state after, newest first. Accumulated quantities of a run are
then ordinary list functions of its history, and a side condition on a run is
a condition on the members of its history.
-/
namespace AgentPay.Runs

universe u v
variable {σ : Type u} {ι : Type v}

structure Transition (σ : Type u) (ι : Type v) where
  before : σ
  label : ι
  after : σ

abbrev History (σ : Type u) (ι : Type v) := List (Transition σ ι)

inductive Run (step : σ → ι → σ → Prop) (start : σ) : History σ ι → σ → Prop
  | start : Run step start [] start
  | step {h : History σ ι} {s t : σ} {i : ι} : Run step start h s → step s i t →
      Run step start (⟨s,i,t⟩::h) t

/-- A quantity summed over the steps of a run whose label is selected. -/
def History.total (p : ι → Bool) (f : σ → σ → ℕ) : History σ ι → ℕ
  | [] => 0
  | t::h => (if p t.label then f t.before t.after else 0) + History.total p f h

/-- A state some run from an initial state ends in. -/
def Reachable (step : σ → ι → σ → Prop) (initial : σ → Prop) (s : σ) : Prop :=
  ∃ (start : σ) (h : History σ ι), initial start ∧ Run step start h s

variable {step : σ → ι → σ → Prop} {start s : σ} {h : History σ ι}

/-- The invariant rule: the side condition `C` of each executed step is
available to the step obligation. -/
theorem Run.invariant {I : σ → Prop} {C : σ → ι → Prop}
    (hI : ∀ s i t, I s → C s i → step s i t → I t)
    (hr : Run step start h s) (h₀ : I start) (hC : ∀ t ∈ h, C t.before t.label) : I s := by
  induction hr with
  | start => exact h₀
  | step _ hs ih =>
      have hp := ih (fun t ht => hC t (List.mem_cons_of_mem _ ht))
      exact hI _ _ _ hp (hC _ List.mem_cons_self) hs

theorem Run.invariant_all {I : σ → Prop} (hI : ∀ s i t, I s → step s i t → I t)
    (hr : Run step start h s) (h₀ : I start) : I s :=
  hr.invariant (C := fun _ _ => True) (fun s i t hs _ => hI s i t hs) h₀ (fun _ _ => trivial)

/-- The invariant held before every step of a run. -/
theorem Run.invariant_before {I : σ → Prop} {C : σ → ι → Prop}
    (hI : ∀ s i t, I s → C s i → step s i t → I t)
    (hr : Run step start h s) (h₀ : I start) (hC : ∀ t ∈ h, C t.before t.label) :
    ∀ t ∈ h, I t.before ∧ step t.before t.label t.after := by
  induction hr with
  | start => exact fun t ht => absurd ht List.not_mem_nil
  | step hr hs ih =>
    have hC' := fun t ht => hC t (List.mem_cons_of_mem _ ht)
    intro t ht
    rcases List.mem_cons.mp ht with rfl | ht
    · exact ⟨hr.invariant hI h₀ hC', hs⟩
    · exact ih hC' t ht

/-- The invariant rule with a side condition on whole transitions. -/
theorem Run.invariant_along {I : σ → Prop} {C : Transition σ ι → Prop}
    (hI : ∀ t : Transition σ ι, I t.before → C t → step t.before t.label t.after → I t.after)
    (hr : Run step start h s) (h₀ : I start) (hC : ∀ t ∈ h, C t) :
    I s ∧ ∀ t ∈ h, I t.before ∧ step t.before t.label t.after := by
  induction hr with
  | start => exact ⟨h₀, fun t ht => absurd ht List.not_mem_nil⟩
  | step hr hs ih =>
    obtain ⟨hi, hbefore⟩ := ih fun t ht => hC t (List.mem_cons_of_mem _ ht)
    refine ⟨hI _ hi (hC _ List.mem_cons_self) hs, ?_⟩
    intro t ht
    rcases List.mem_cons.mp ht with rfl | ht
    · exact ⟨hi, hs⟩
    · exact hbefore t ht

/-- Where the side condition is exactly what keeps the invariant, a run meets it
at every step if and only if the invariant holds throughout. -/
theorem Run.invariant_iff {I : σ → Prop} {C : σ → ι → Prop}
    (hI : ∀ s i t, I s → step s i t → (I t ↔ C s i))
    (hr : Run step start h s) (h₀ : I start) :
    (∀ t ∈ h, I t.after) ↔ ∀ t ∈ h, C t.before t.label := by
  have hkeep : ∀ s i t, I s → C s i → step s i t → I t := fun s i t hs hc hst =>
    (hI s i t hs hst).mpr hc
  induction hr with
  | start => simp
  | step hr hs ih =>
    rw [List.forall_mem_cons, List.forall_mem_cons]
    constructor
    · rintro ⟨hafter, hall⟩
      have hC := ih.mp hall
      exact ⟨(hI _ _ _ (hr.invariant hkeep h₀ hC) hs).mp hafter, hC⟩
    · rintro ⟨hc, hC⟩
      exact ⟨(hI _ _ _ (hr.invariant hkeep h₀ hC) hs).mpr hc, ih.mpr hC⟩

/-- Any step of a run was taken from the state its earlier steps led to. -/
theorem Run.split (hr : Run step start h s) {later earlier : History σ ι} {t : Transition σ ι}
    (he : h = later ++ t :: earlier) :
    Run step start earlier t.before ∧ step t.before t.label t.after := by
  induction hr generalizing later with
  | start => simp at he
  | step hr hs ih =>
    cases later with
    | nil =>
      rw [List.nil_append, List.cons.injEq] at he
      obtain ⟨rfl, rfl⟩ := he
      exact ⟨hr, hs⟩
    | cons x later =>
      rw [List.cons_append, List.cons.injEq] at he
      exact ih he.2

/-- The steps behind a step are a run from the state it led to. -/
theorem Run.rest (hr : Run step start h s) {later earlier : History σ ι} {t : Transition σ ι}
    (he : h = later ++ t :: earlier) : Run step t.after later s := by
  induction hr generalizing later with
  | start => simp at he
  | step hr hs ih =>
    cases later with
    | nil =>
      rw [List.nil_append, List.cons.injEq] at he
      obtain ⟨rfl, -⟩ := he
      exact .start
    | cons x later =>
      rw [List.cons_append, List.cons.injEq] at he
      obtain ⟨rfl, he⟩ := he
      exact (ih he).step hs

theorem Run.append {h' : History σ ι} {t : σ} (hr : Run step start h s) (hs : Run step s h' t) :
    Run step start (h' ++ h) t := by
  induction hs with
  | start => exact hr
  | step _ hs ih => exact ih.step hs

theorem Reachable.invariant {initial : σ → Prop} {I : σ → Prop}
    (hr : Reachable step initial s) (h₀ : ∀ s, initial s → I s)
    (hI : ∀ s i t, I s → step s i t → I t) : I s := by
  obtain ⟨start, h, hi, hr⟩ := hr
  exact hr.invariant_all hI (h₀ start hi)

theorem Reachable.tail {initial : σ → Prop} {t : σ} {i : ι}
    (hr : Reachable step initial s) (hs : step s i t) : Reachable step initial t := by
  obtain ⟨start, h, hi, hr⟩ := hr
  exact ⟨start, _, hi, hr.step hs⟩

theorem Reachable.run {initial : σ → Prop} {t : σ}
    (hr : Reachable step initial s) (hs : Run step s h t) : Reachable step initial t := by
  induction hs with
  | start => exact hr
  | step _ hs ih => exact ih.tail hs

end AgentPay.Runs
