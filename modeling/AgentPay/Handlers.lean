import AgentPay.Fallible

/-!
# Handlers that keep their writes when they fail

A handler reads and writes a state and answers a value or an error. A write that
was made before an error stays made: only the single statement that fails leaves
the state alone. Handlers are built from `query` and `exec`, and two kinds of
properties are derived along that construction: `Keeps`, a relation between the
states before and after, and `Noninterferent`, a relation between two states
that the answers cannot tell apart.
-/
namespace AgentPay.Handlers
open Fallible

variable {σ ε α β : Type}

structure Handler (σ ε α : Type) where
  run : σ → Except ε α × σ

instance : Monad (Handler σ ε) where
  pure a := ⟨fun s => (.ok a, s)⟩
  bind x f := ⟨fun s =>
    match x.run s with
    | (.ok a, t) => (f a).run t
    | (.error e, t) => (.error e, t)⟩

def query (q : σ → Except ε α) : Handler σ ε α := ⟨fun s => (q s, s)⟩

/-- A statement: it commits what it writes or fails and writes nothing. -/
def exec (u : σ → Except ε (α × σ)) : Handler σ ε α := ⟨fun s =>
  match u s with
  | .ok (a, t) => (.ok a, t)
  | .error e => (.error e, s)⟩

/-- A step that does not look at the state. -/
def lift (x : Except ε α) : Handler σ ε α := query fun _ => x

def demand (c : Prop) [Decidable c] (e : ε) : Handler σ ε PUnit := lift (require c e)

section Equations
variable {x : Handler σ ε α} {f : α → Handler σ ε β} {s t : σ} {a : α} {b : β} {e : ε}

@[simp] theorem run_pure : (pure a : Handler σ ε α).run s = (.ok a, s) := rfl

@[simp] theorem run_query {q : σ → Except ε α} : (query q).run s = (q s, s) := rfl

@[simp] theorem run_lift {y : Except ε α} : (lift y : Handler σ ε α).run s = (y, s) := rfl

theorem run_bind_of_ok (h : x.run s = (.ok a, t)) : (x >>= f).run s = (f a).run t := by
  simp only [bind]
  rw [h]

theorem run_bind_of_error (h : x.run s = (.error e, t)) : (x >>= f).run s = (.error e, t) := by
  simp only [bind]
  rw [h]

theorem run_lift_bind_of_ok {y : Except ε α} (h : y = .ok a) : (lift y >>= f).run s = (f a).run s :=
  run_bind_of_ok (by rw [run_lift, h])

theorem run_lift_bind_of_error {y : Except ε α} (h : y = .error e) :
    (lift y >>= f).run s = (.error e, s) := run_bind_of_error (by rw [run_lift, h])

theorem run_bind_eq_ok {u : σ} : (x >>= f).run s = (.ok b, u) ↔
    ∃ a t, x.run s = (.ok a, t) ∧ (f a).run t = (.ok b, u) := by
  rcases h : x.run s with ⟨e | a, t⟩
  · rw [run_bind_of_error h]
    simp
  · rw [run_bind_of_ok h]
    constructor
    · intro hf
      exact ⟨a, t, rfl, hf⟩
    · rintro ⟨a', t', he, hf⟩
      cases he
      exact hf

theorem run_exec_of_ok {u : σ → Except ε (α × σ)} (h : u s = .ok (a, t)) :
    (exec u).run s = (.ok a, t) := by
  simp only [exec]
  rw [h]

theorem run_exec_of_error {u : σ → Except ε (α × σ)} (h : u s = .error e) :
    (exec u).run s = (.error e, s) := by
  simp only [exec]
  rw [h]

theorem run_exec_eq_ok {u : σ → Except ε (α × σ)} :
    (exec u).run s = (.ok a, t) ↔ u s = .ok (a, t) := by
  rcases h : u s with e | ⟨a', t'⟩
  · rw [run_exec_of_error h]
    simp
  · rw [run_exec_of_ok h]
    simp

end Equations

/-! ### What a handler does to its state -/

/-- A relation that steps can be put together under. -/
structure Frame (R : σ → σ → Prop) : Prop where
  refl : ∀ s, R s s
  trans : ∀ {s t u}, R s t → R t u → R s u

/-- Whatever the handler answers, the state after it is related to the state
before it. -/
def Keeps (R : σ → σ → Prop) (x : Handler σ ε α) : Prop := ∀ s, R s (x.run s).2

section Keeps
variable {R : σ → σ → Prop} {x : Handler σ ε α} {f : α → Handler σ ε β}

theorem keeps_pure (hR : Frame R) (a : α) : Keeps R (pure a : Handler σ ε α) := fun s => hR.refl s

theorem keeps_query (hR : Frame R) (q : σ → Except ε α) : Keeps R (query q) := fun s => hR.refl s

theorem keeps_exec (hR : Frame R) {u : σ → Except ε (α × σ)}
    (h : ∀ s a t, u s = .ok (a, t) → R s t) : Keeps R (exec u) := by
  intro s
  rcases hu : u s with e | ⟨a, t⟩
  · rw [run_exec_of_error hu]
    exact hR.refl s
  · rw [run_exec_of_ok hu]
    exact h s a t hu

theorem keeps_bind (hR : Frame R) (hx : Keeps R x) (hf : ∀ a, Keeps R (f a)) :
    Keeps R (x >>= f) := by
  intro s
  have hs := hx s
  rcases h : x.run s with ⟨e | a, t⟩
  · rw [run_bind_of_error h]
    rw [h] at hs
    exact hs
  · rw [run_bind_of_ok h]
    rw [h] at hs
    exact hR.trans hs (hf a t)

def Reads (x : Handler σ ε α) : Prop := Keeps (fun s t => s = t) x

theorem frame_eq : Frame fun s t : σ => s = t := ⟨fun _ => rfl, Eq.trans⟩

theorem reads_pure (a : α) : Reads (pure a : Handler σ ε α) := keeps_pure frame_eq a

theorem reads_query (q : σ → Except ε α) : Reads (query q) := keeps_query frame_eq q

theorem reads_bind (hx : Reads x) (hf : ∀ a, Reads (f a)) : Reads (x >>= f) :=
  keeps_bind frame_eq hx hf

theorem Reads.keeps (hR : Frame R) (h : Reads x) : Keeps R x := by
  intro s
  rw [← h s]
  exact hR.refl s

/-- The writes of a handler end with its last statement. -/
theorem run_exec_bind_reads {u : σ → Except ε (α × σ)} {s t : σ} {a : α} (h : u s = .ok (a, t))
    (hf : Reads (f a)) : ((exec u >>= f).run s).2 = t := by
  rw [run_bind_of_ok (run_exec_of_ok h)]
  exact (hf t).symm

theorem run_exec_bind_of_error {u : σ → Except ε (α × σ)} {s : σ} {e : ε} (h : u s = .error e) :
    ((exec u >>= f).run s).2 = s := by
  rw [run_bind_of_error (run_exec_of_error h)]

end Keeps

/-! ### What a handler's answer depends on -/

/-- From states related by `R` that both give an answer, the answers are the same
and the states after it are related by `S`, which may speak of the answer. -/
def Noninterferent (R : σ → σ → Prop) (x : Handler σ ε α) (S : α → σ → σ → Prop) : Prop :=
  ∀ ⦃s₁ s₂ t₁ t₂ : σ⦄ ⦃a₁ a₂ : α⦄, R s₁ s₂ → x.run s₁ = (.ok a₁, t₁) →
    x.run s₂ = (.ok a₂, t₂) → a₁ = a₂ ∧ S a₁ t₁ t₂

section Noninterference
variable {R : σ → σ → Prop} {x : Handler σ ε α} {f : α → Handler σ ε β}

theorem noninterferent_pure {S : α → σ → σ → Prop} (a : α) (h : ∀ {s t}, R s t → S a s t) :
    Noninterferent R (pure a : Handler σ ε α) S := by
  intro s₁ s₂ t₁ t₂ a₁ a₂ hR h₁ h₂
  cases h₁
  cases h₂
  exact ⟨rfl, h hR⟩

theorem noninterferent_query {q : σ → Except ε α} {S : α → σ → σ → Prop}
    (h : ∀ {s₁ s₂ a₁ a₂}, R s₁ s₂ → q s₁ = .ok a₁ → q s₂ = .ok a₂ → a₁ = a₂ ∧ S a₁ s₁ s₂) :
    Noninterferent R (query q) S := by
  intro s₁ s₂ t₁ t₂ a₁ a₂ hR h₁ h₂
  rw [run_query, Prod.mk.injEq] at h₁ h₂
  obtain ⟨h₁, rfl⟩ := h₁
  obtain ⟨h₂, rfl⟩ := h₂
  exact h hR h₁ h₂

theorem noninterferent_lift (y : Except ε α) :
    Noninterferent R (lift y : Handler σ ε α) fun a s t => y = .ok a ∧ R s t := by
  apply noninterferent_query
  intro _ _ a₁ a₂ hR h₁ h₂
  have h := h₁
  rw [h₂, Except.ok.injEq] at h
  exact ⟨h.symm, h₁, hR⟩

theorem noninterferent_bind {S : α → σ → σ → Prop} {T : β → σ → σ → Prop}
    (hx : Noninterferent R x S) (hf : ∀ a, Noninterferent (S a) (f a) T) :
    Noninterferent R (x >>= f) T := by
  intro s₁ s₂ t₁ t₂ b₁ b₂ hR h₁ h₂
  rw [run_bind_eq_ok] at h₁ h₂
  obtain ⟨a₁, u₁, hx₁, hf₁⟩ := h₁
  obtain ⟨a₂, u₂, hx₂, hf₂⟩ := h₂
  obtain ⟨rfl, hu⟩ := hx hR hx₁ hx₂
  exact hf a₁ hu hf₁ hf₂

/-- A statement whose answer may differ, followed by the demand that it found
what it looked for. -/
theorem noninterferent_exec_demand {u : σ → Except ε (Bool × σ)} {y : Handler σ ε β} {e : ε}
    {S : σ → σ → Prop} {T : β → σ → σ → Prop}
    (h : ∀ {s₁ s₂ t₁ t₂}, R s₁ s₂ → u s₁ = .ok (true, t₁) → u s₂ = .ok (true, t₂) → S t₁ t₂)
    (hy : Noninterferent S y T) : Noninterferent R (do
      let done ← exec u
      demand (done = true) e
      y) T := by
  intro s₁ s₂ t₁ t₂ b₁ b₂ hR h₁ h₂
  simp only [run_bind_eq_ok, demand, run_lift, run_exec_eq_ok, Prod.mk.injEq, require_eq_ok] at h₁ h₂
  obtain ⟨_, u₁, hu₁, _, _, ⟨rfl, rfl⟩, h₁⟩ := h₁
  obtain ⟨_, u₂, hu₂, _, _, ⟨rfl, rfl⟩, h₂⟩ := h₂
  exact hy (h hR hu₁ hu₂) h₁ h₂

end Noninterference

end AgentPay.Handlers
