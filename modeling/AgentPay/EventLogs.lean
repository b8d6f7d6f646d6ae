import AgentPay.Runs

/-!
# Logs a view can be rebuilt from

A step may write an entry to a log, and an observer who never sees the states
folds the entries into a view of his own. If every step moves the view as its
entry says, the fold is the view, at the end of every run. A log is legal when
every entry was admissible to the view the earlier ones had built, so that an
observer can also refuse a log.

Logs are kept newest first, as histories are.
-/
namespace AgentPay.EventLogs
open Runs

universe u v w x
variable {σ : Type u} {ι : Type v} {ε : Type w} {ν : Type x}

def entries (emit : Transition σ ι → Option ε) (h : History σ ι) : List ε := h.filterMap emit

def replay (note : ε → ν → ν) (v : ν) (l : List ε) : ν := l.foldr note v

def noteStep (note : ε → ν → ν) (v : ν) : Option ε → ν
  | none => v
  | some e => note e v

inductive Legal (admits : ν → ε → Prop) (note : ε → ν → ν) (v : ν) : List ε → Prop
  | nil : Legal admits note v []
  | cons {l : List ε} {e : ε} : Legal admits note v l → admits (replay note v l) e →
      Legal admits note v (e :: l)

section Entries
variable {emit : Transition σ ι → Option ε} {note : ε → ν → ν} {v : ν}

theorem replay_entries_cons {t : Transition σ ι} {h : History σ ι} :
    replay note v (entries emit (t :: h)) =
      noteStep note (replay note v (entries emit h)) (emit t) := by
  unfold entries
  rw [List.filterMap_cons]
  cases emit t with
  | none => rfl
  | some e => rfl

end Entries

section Rebuilding
variable {step : σ → ι → σ → Prop} {start s : σ} {h : History σ ι}
variable {emit : Transition σ ι → Option ε} {note : ε → ν → ν} {view : σ → ν}
variable {admits : ν → ε → Prop} {I : σ → Prop}

theorem replay_run (hI : ∀ s i t, I s → step s i t → I t)
    (hview : ∀ s i t, I s → step s i t → view t = noteStep note (view s) (emit ⟨s, i, t⟩))
    (hr : Run step start h s) (h₀ : I start) :
    replay note (view start) (entries emit h) = view s := by
  induction hr with
  | start => rfl
  | step hr hs ih =>
    rw [replay_entries_cons, ih]
    exact (hview _ _ _ (hr.invariant_all hI h₀) hs).symm

/-- A run whose every entry fits the state it was written in has a legal log. -/
theorem legal_run (hI : ∀ s i t, I s → step s i t → I t)
    (hview : ∀ s i t, I s → step s i t → view t = noteStep note (view s) (emit ⟨s, i, t⟩))
    (hadmits : ∀ s i t e, I s → step s i t → emit ⟨s, i, t⟩ = some e → admits (view s) e)
    (hr : Run step start h s) (h₀ : I start) :
    Legal admits note (view start) (entries emit h) := by
  induction hr with
  | start => exact .nil
  | @step h s t i hr hs ih =>
    have hbefore := hr.invariant_all hI h₀
    unfold entries
    rw [List.filterMap_cons]
    split
    · exact ih
    · rename_i e he
      refine ih.cons ?_
      have hrebuilt : replay note (view start) (entries emit h) = view s :=
        replay_run hI hview hr h₀
      rw [hrebuilt]
      exact hadmits _ _ _ _ hbefore hs he

end Rebuilding

end AgentPay.EventLogs
