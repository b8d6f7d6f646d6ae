import Mathlib.Logic.Basic
import Mathlib.Tactic.SplitIfs

/-!
# Guarded sequences of fallible steps

A handler is a sequence of guards and of steps that may fail. The two guards
below are the only primitives; every handler is read off with the inversion
lemmas for success and for failure, which are simp lemmas, so that no proof
about a handler unfolds a bind.
-/
namespace AgentPay.Fallible

universe u v
variable {ε : Type u} {α β : Type v}

/-- The guard `require!(c, e)`. -/
def require (c : Prop) [Decidable c] (e : ε) : Except ε PUnit.{v + 1} :=
  if c then .ok ⟨⟩ else .error e

/-- The guard `x.ok_or(e)?`. -/
def okOr (x : Option α) (e : ε) : Except ε α :=
  match x with
  | some a => .ok a
  | none => .error e

@[simp] theorem require_eq_ok {c : Prop} [Decidable c] {e : ε} {u : PUnit} :
    require c e = .ok u ↔ c := by
  unfold require
  split_ifs with h <;> simp [h]

@[simp] theorem require_eq_error {c : Prop} [Decidable c] {e e' : ε} :
    (require c e : Except ε PUnit) = .error e' ↔ ¬c ∧ e = e' := by
  unfold require
  split_ifs with h <;> simp [h]

@[simp] theorem okOr_eq_ok {x : Option α} {e : ε} {a : α} :
    okOr x e = .ok a ↔ x = some a := by
  cases x <;> simp [okOr]

@[simp] theorem okOr_eq_error {x : Option α} {e e' : ε} :
    okOr x e = .error e' ↔ x = none ∧ e = e' := by
  cases x <;> simp [okOr]

@[simp] theorem bind_eq_ok {x : Except ε α} {f : α → Except ε β} {b : β} :
    x >>= f = .ok b ↔ ∃ a, x = .ok a ∧ f a = .ok b := by
  cases x <;> simp [bind, Except.bind]

@[simp] theorem bind_eq_error {x : Except ε α} {f : α → Except ε β} {e : ε} :
    x >>= f = .error e ↔ x = .error e ∨ ∃ a, x = .ok a ∧ f a = .error e := by
  cases x <;> simp [bind, Except.bind]

theorem ok_bind {a : α} {f : α → Except ε β} : (Except.ok a : Except ε α) >>= f = f a := rfl

theorem error_bind {e : ε} {f : α → Except ε β} :
    (Except.error e : Except ε α) >>= f = .error e := rfl

@[simp] theorem pure_eq_ok {a b : α} : (pure a : Except ε α) = .ok b ↔ a = b := by
  simp [pure, Except.pure]

@[simp] theorem pure_eq_error {a : α} {e : ε} : (pure a : Except ε α) = .error e ↔ False := by
  simp [pure, Except.pure]

theorem require_bind_of {c : Prop} [Decidable c] {e : ε} {k : PUnit → Except ε α} (h : c) :
    require c e >>= k = k ⟨⟩ := by
  rw [require, if_pos h]
  rfl

theorem require_bind_of_not {c : Prop} [Decidable c] {e : ε} {k : PUnit → Except ε α} (h : ¬c) :
    require c e >>= k = .error e := by
  rw [require, if_neg h]
  rfl

/-- A guard under a map of the result and one of the error. -/
theorem require_bind_maps {ε' : Type u} {c : Prop} [Decidable c] {e : ε}
    {k : PUnit → Except ε α} {f : ε → ε'} {g : α → β} :
    ((require c e >>= k).map g).mapError f =
      require c (f e) >>= fun u => ((k u).map g).mapError f := by
  unfold require
  split_ifs
  · rfl
  · rfl

theorem toOption_eq_some {x : Except ε α} {a : α} : x.toOption = some a ↔ x = .ok a := by
  cases x <;> simp [Except.toOption]

theorem mapM_eq_ok {γ : Type v} {f : α → Except ε γ} {g : α → γ} {l : List α}
    (h : ∀ a ∈ l, f a = .ok (g a)) : l.mapM f = .ok (l.map g) := by
  induction l with
  | nil => rfl
  | cons a l ih =>
    rw [List.mapM_cons, h a List.mem_cons_self, ih fun b hb => h b (List.mem_cons_of_mem _ hb)]
    rfl

theorem mapM_isOk {γ : Type v} {f : α → Except ε γ} {l : List α}
    (h : ∀ a ∈ l, ∃ b, f a = .ok b) : ∃ bs, l.mapM f = .ok bs := by
  induction l with
  | nil => exact ⟨[], rfl⟩
  | cons a l ih =>
    rcases h a List.mem_cons_self with ⟨b, hb⟩
    rcases ih fun c hc => h c (List.mem_cons_of_mem _ hc) with ⟨bs, hbs⟩
    refine ⟨b :: bs, ?_⟩
    rw [List.mapM_cons, hb, hbs]
    rfl

theorem mapM_congr {γ : Type v} {f g : α → Except ε γ} {l : List α} (h : ∀ a ∈ l, f a = g a) :
    l.mapM f = l.mapM g := by
  induction l with
  | nil => rfl
  | cons a l ih =>
    rw [List.mapM_cons, List.mapM_cons, h a List.mem_cons_self,
      ih fun b hb => h b (List.mem_cons_of_mem _ hb)]

/-- A map that goes through went through at every element. -/
theorem isOk_of_mapM {γ : Type v} {f : α → Except ε γ} {l : List α} {bs : List γ}
    (h : l.mapM f = .ok bs) : ∀ a ∈ l, ∃ b, f a = .ok b := by
  induction l generalizing bs with
  | nil => exact fun a ha => absurd ha List.not_mem_nil
  | cons a l ih =>
    simp only [List.mapM_cons, bind_eq_ok, pure_eq_ok] at h
    obtain ⟨b, hb, bs', hbs', -⟩ := h
    exact List.forall_mem_cons.mpr ⟨⟨b, hb⟩, ih hbs'⟩

/-- Every result of a map is the result of one of its calls. -/
theorem mem_of_mapM {γ : Type v} {f : α → Except ε γ} {l : List α} {bs : List γ}
    (h : l.mapM f = .ok bs) {b : γ} (hb : b ∈ bs) : ∃ a ∈ l, f a = .ok b := by
  induction l generalizing bs with
  | nil =>
    simp only [List.mapM_nil, pure_eq_ok] at h
    subst h
    cases hb
  | cons a l ih =>
    simp only [List.mapM_cons, bind_eq_ok, pure_eq_ok] at h
    obtain ⟨b', hb', bs', hbs', rfl⟩ := h
    rcases List.mem_cons.mp hb with rfl | hb
    · exact ⟨a, List.mem_cons_self, hb'⟩
    · obtain ⟨x, hx, hfx⟩ := ih hbs' hb
      exact ⟨x, List.mem_cons_of_mem _ hx, hfx⟩

/-- Errors of an inner component are embedded in the caller's. -/
@[simp] theorem mapError_eq_ok {ε' : Type u} {x : Except ε α} {f : ε → ε'} {a : α} :
    x.mapError f = .ok a ↔ x = .ok a := by
  cases x <;> simp [Except.mapError]

@[simp] theorem mapError_eq_error {ε' : Type u} {x : Except ε α} {f : ε → ε'} {e : ε'} :
    x.mapError f = .error e ↔ ∃ e', x = .error e' ∧ f e' = e := by
  cases x <;> simp [Except.mapError]

/-- Every error a computation can end in satisfies `p`. -/
def Raises (p : ε → Prop) (x : Except ε α) : Prop := ∀ e, x = .error e → p e

@[simp] theorem raises_bind {p : ε → Prop} {x : Except ε α} {f : α → Except ε β} :
    Raises p (x >>= f) ↔ Raises p x ∧ ∀ a, x = .ok a → Raises p (f a) := by
  cases x <;> simp [Raises]

@[simp] theorem raises_require {p : ε → Prop} {c : Prop} [Decidable c] {e : ε} :
    Raises p (require c e : Except ε PUnit) ↔ (¬c → p e) := by
  unfold Raises
  constructor
  · intro h hc
    exact h e (require_eq_error.mpr ⟨hc, rfl⟩)
  · intro h e' he
    obtain ⟨hc, rfl⟩ := require_eq_error.mp he
    exact h hc

@[simp] theorem raises_pure {p : ε → Prop} {a : α} : Raises p (pure a : Except ε α) :=
  fun _ he => absurd he (by simp)

@[simp] theorem raises_okOr {p : ε → Prop} {x : Option α} {e : ε} :
    Raises p (okOr x e) ↔ (x = none → p e) := by
  cases x <;> simp [Raises, okOr]

@[simp] theorem raises_map {p : ε → Prop} {f : α → β} {x : Except ε α} :
    Raises p (f <$> x) ↔ Raises p x := by
  cases x <;> simp [Raises, Functor.map, Except.map]

@[simp] theorem raises_mapError {ε' : Type u} {p : ε' → Prop} {f : ε → ε'} {x : Except ε α} :
    Raises p (x.mapError f) ↔ Raises (fun e => p (f e)) x := by
  cases x <;> simp [Raises, Except.mapError]

/-- The error a computation ended in, to evaluate concrete failures. -/
def error? : Except ε α → Option ε
  | .ok _ => none
  | .error e => some e

theorem error?_eq_some {x : Except ε α} {e : ε} : error? x = some e ↔ x = .error e := by
  cases x <;> simp [error?]

theorem error?_eq_none {x : Except ε α} : error? x = none ↔ ∃ a, x = .ok a := by
  cases x <;> simp [error?]

theorem ok_or_error (x : Except ε α) : (∃ a, x = .ok a) ∨ ∃ e, x = .error e := by
  cases x with
  | ok a => exact .inl ⟨a, rfl⟩
  | error e => exact .inr ⟨e, rfl⟩

end AgentPay.Fallible
