import Mathlib.Algebra.Order.Ring.Rat
import Mathlib.Data.List.Basic
import Mathlib.Tactic.Linarith
import Mathlib.Tactic.Ring

/-!
# Accounts that fill at a rate

A meter charges events that come in order of time. What an event may be charged stands in
an account, its level, which never exceeds a capacity, never falls below zero, and rises
with time at most at a rate. However the events come, what they are charged in a window is
bounded by the capacity and what flows in during the window.
-/
namespace AgentPay.TokenBuckets

/-- A system that charges events to an account. `Valid s t` says that `s` is a state the
system can be in at time `t`. -/
structure Meter (σ ε : Type) where
  step : σ → ε → σ
  time : ε → ℚ
  charged : σ → ε → ℚ
  level : σ → ℚ → ℚ
  Valid : σ → ℚ → Prop
  capacity : ℚ
  rate : ℚ
  rate_nonneg : 0 ≤ rate
  charged_nonneg : ∀ {s e}, 0 ≤ charged s e
  level_nonneg : ∀ {s t}, Valid s t → 0 ≤ level s t
  level_le : ∀ {s t}, Valid s t → level s t ≤ capacity
  valid_later : ∀ {s t t'}, Valid s t → t ≤ t' → Valid s t'
  level_later : ∀ {s t t'}, Valid s t → t ≤ t' → level s t' ≤ level s t + (t' - t) * rate
  valid_step : ∀ {s e}, Valid s (time e) → Valid (step s e) (time e)
  level_step : ∀ {s e}, Valid s (time e) →
    level (step s e) (time e) + charged s e ≤ level s (time e)

namespace Meter
variable {σ ε : Type} (m : Meter σ ε)

def Within (a b : ℚ) (e : ε) : Prop := a ≤ m.time e ∧ m.time e ≤ b

instance (a b : ℚ) (e : ε) : Decidable (m.Within a b e) :=
  inferInstanceAs (Decidable (a ≤ m.time e ∧ m.time e ≤ b))

/-- What the events of a window are charged. -/
def chargedIn (a b : ℚ) : σ → List ε → ℚ
  | _, [] => 0
  | s, e :: es => (if m.Within a b e then m.charged s e else 0) + chargedIn a b (m.step s e) es

/-- The events come in order of time, from `t` on. -/
def Ordered (t : ℚ) (es : List ε) : Prop :=
  (∀ e ∈ es, t ≤ m.time e) ∧ es.Pairwise fun e e' => m.time e ≤ m.time e'

variable {m} {s : σ} {es : List ε} {e : ε} {a b t : ℚ}

theorem Ordered.tail (h : m.Ordered t (e :: es)) : m.Ordered (m.time e) es :=
  List.pairwise_cons.mp h.2

theorem Ordered.from_head (h : m.Ordered t (e :: es)) : m.Ordered (m.time e) (e :: es) :=
  ⟨List.forall_mem_cons.mpr ⟨le_rfl, h.tail.1⟩, h.2⟩

theorem Ordered.head_le (h : m.Ordered t (e :: es)) : t ≤ m.time e := h.1 e List.mem_cons_self

theorem chargedIn_after (hb : b < t) (h : m.Ordered t es) : m.chargedIn a b s es = 0 := by
  induction es generalizing s t with
  | nil => rfl
  | cons e es ih =>
    have hout : ¬m.Within a b e := fun hin => absurd hin.2 (not_le.mpr (hb.trans_le h.head_le))
    rw [chargedIn, if_neg hout, zero_add]
    exact ih (hb.trans_le h.head_le) h.tail

theorem flow_nonneg (h : t ≤ b) : 0 ≤ (b - t) * m.rate :=
  mul_nonneg (sub_nonneg.mpr h) m.rate_nonneg

/-- From a moment on, events are charged to what the level is then and what flows in. -/
theorem chargedIn_le_level (hs : m.Valid s t) (h : m.Ordered t es) (hb : t ≤ b) :
    m.chargedIn a b s es ≤ m.level s t + (b - t) * m.rate := by
  induction es generalizing s t with
  | nil =>
    have hlevel := m.level_nonneg hs
    have hflow := @flow_nonneg _ _ m _ _ hb
    rw [chargedIn]
    linarith
  | cons e es ih =>
    rcases le_or_gt (m.time e) b with hin | hout
    · have hvalid := m.valid_later hs h.head_le
      have hrest := ih (m.valid_step hvalid) h.tail hin
      have hpay := m.level_step hvalid
      have hrise := m.level_later hs h.head_le
      have hcharge : (if m.Within a b e then m.charged s e else 0) ≤ m.charged s e := by
        split_ifs
        · exact le_rfl
        · exact m.charged_nonneg
      have hflow : (b - t) * m.rate = (b - m.time e) * m.rate + (m.time e - t) * m.rate := by ring
      rw [chargedIn, hflow]
      linarith
    · rw [chargedIn_after hout h.from_head]
      have hlevel := m.level_nonneg hs
      have hflow := @flow_nonneg _ _ m _ _ hb
      linarith

/-- In a window no more is charged than the capacity and what flows in. -/
theorem chargedIn_le (hs : m.Valid s t) (h : m.Ordered t es) (hab : a ≤ b) :
    m.chargedIn a b s es ≤ m.capacity + (b - a) * m.rate := by
  have hbound : 0 ≤ m.capacity + (b - a) * m.rate :=
    add_nonneg ((m.level_nonneg hs).trans (m.level_le hs)) (flow_nonneg hab)
  induction es generalizing s t with
  | nil => exact hbound
  | cons e es ih =>
    have hvalid := m.valid_later hs h.head_le
    rcases lt_or_ge (m.time e) a with hbefore | hin
    · have hout : ¬m.Within a b e := fun hwithin => absurd hwithin.1 (not_le.mpr hbefore)
      rw [chargedIn, if_neg hout, zero_add]
      exact ih (m.valid_step hvalid) h.tail
    · rcases le_or_gt (m.time e) b with hb | hafter
      · have hlevel := m.level_le hvalid
        have hflow : (b - m.time e) * m.rate ≤ (b - a) * m.rate :=
          mul_le_mul_of_nonneg_right (by linarith) m.rate_nonneg
        have hcharged := @chargedIn_le_level _ _ m _ _ a b _ hvalid h.from_head hb
        linarith
      · rw [chargedIn_after hafter h.from_head]
        exact hbound

end Meter

end AgentPay.TokenBuckets
