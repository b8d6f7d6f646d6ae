import Mathlib.Data.Int.GCD
import Mathlib.Data.Int.ModEq
import Mathlib.Data.List.Basic
import Mathlib.Tactic.Linarith
import Mathlib.Tactic.Ring
import Mathlib.Tactic.Zify

/-!
# Token buckets in whole grains

A bucket of `c` tokens that fills up in `p` ticks is counted in grains: a token is `p`
grains, and `c` grains flow in with every tick. Draws may come out of order. A draw whose
instant lies before the last one finds no new grains, and sets the clock of the bucket back.

In a crowded place a bucket is thrown away once nobody has drawn from it for `e` ticks, and
who comes next finds a full one. The place is crowded until a draw comes when another
bucket, the rival, has been left alone for as long.

What later draws can tell of a bucket is what they would find in it, and from this the pairs
of draws are known whose order nobody can tell.
-/
namespace AgentPay.GrainBuckets

structure Vessel where
  grains : ℕ
  last : ℕ
  /-- In a crowded place, when the rival was last drawn from. -/
  rival : Option ℕ

section Draws
variable (c p e : ℕ)

/-- What the vessel holds at an instant, unless it was thrown away. -/
def Vessel.level (v : Vessel) (t : ℕ) : ℕ := min (v.grains + (t - v.last) * c) (c * p)

def Vessel.found (v : Vessel) (t : ℕ) : ℕ :=
  if v.rival.isSome ∧ e ≤ t - v.last then c * p else v.level c p t

def Vessel.rivalAfter (v : Vessel) (t : ℕ) : Option ℕ := v.rival.filter fun l => t - l < e

def spared (n : ℕ) : ℕ := if p ≤ n then n - p else n

/-- One draw, with whether it got a token. -/
def Vessel.draw (v : Vessel) (t : ℕ) : Vessel × Bool :=
  (⟨spared p (v.found c p e t), t, v.rivalAfter e t⟩, p ≤ v.found c p e t)

def drawn (v : Vessel) : List ℕ → ℕ
  | [] => 0
  | t::ts => (v.draw c p e t).2.toNat + drawn (v.draw c p e t).1 ts

def left (v : Vessel) (ts : List ℕ) : Vessel := ts.foldl (fun v t => (v.draw c p e t).1) v

/-- Draws tick by tick, at each as many as the vessel can serve and one more. -/
def walk (t i : ℕ) : List ℕ :=
  (List.range (i + 1)).flatMap fun j => List.replicate (c + 1) (t + j)

end Draws

section Levels
variable {c p e n : ℕ} {v w : Vessel} {r : Option ℕ} {t t' : ℕ} {ts us : List ℕ}

theorem level_le : v.level c p t ≤ c * p := min_le_right _ _

theorem found_le : v.found c p e t ≤ c * p := by
  unfold Vessel.found
  split_ifs
  · exact le_rfl
  · exact level_le

theorem level_later (hlast : v.last ≤ t) (h : t ≤ t') :
    v.level c p t' = min (v.level c p t + (t' - t) * c) (c * p) := by
  have hsplit : (t' - v.last) * c = (t - v.last) * c + (t' - t) * c := by
    rw [← add_mul]
    congr 1
    omega
  unfold Vessel.level
  omega

theorem found_of_lt (h : t - v.last < e) : v.found c p e t = v.level c p t :=
  if_neg fun hthrown => absurd hthrown.2 (not_le.mpr h)

theorem found_now (he : 0 < e) (h : n ≤ c * p) (ht : t ≤ t') :
    (Vessel.mk n t' r).found c p e t = n := by
  have hnow : t - t' = 0 := Nat.sub_eq_zero_of_le ht
  rw [found_of_lt (hnow.trans_lt he), Vessel.level, hnow, zero_mul, add_zero]
  exact min_eq_left h

theorem found_later (hlast : v.last ≤ t) (h : t ≤ t') : v.found c p e t' =
    if v.rival.isSome ∧ e ≤ t' - v.last then c * p
    else min (v.found c p e t + (t' - t) * c) (c * p) := by
  by_cases hthrown : v.rival.isSome ∧ e ≤ t' - v.last
  · rw [Vessel.found, if_pos hthrown, if_pos hthrown]
  · have hkept : ¬(v.rival.isSome ∧ e ≤ t - v.last) := fun hearly =>
      hthrown ⟨hearly.1, hearly.2.trans (Nat.sub_le_sub_right h v.last)⟩
    rw [Vessel.found, if_neg hthrown, if_neg hthrown, Vessel.found, if_neg hkept]
    exact level_later hlast h

theorem drawn_congr (hrival : v.rival = w.rival)
    (h : ∀ t ∈ ts.head?, v.found c p e t = w.found c p e t) :
    drawn c p e v ts = drawn c p e w ts := by
  rcases ts with _ | ⟨t, ts⟩
  · rfl
  · have hfound := h t rfl
    rw [drawn, drawn, Vessel.draw, Vessel.draw, Vessel.rivalAfter, Vessel.rivalAfter, hfound,
      hrival]

theorem drawn_append :
    drawn c p e v (ts ++ us) = drawn c p e v ts + drawn c p e (left c p e v ts) us := by
  induction ts generalizing v with
  | nil => exact (zero_add _).symm
  | cons t ts ih =>
    rw [List.cons_append, drawn, drawn, ih, add_assoc]
    rfl

theorem left_append : left c p e v (ts ++ us) = left c p e (left c p e v ts) us :=
  List.foldl_append

theorem draw_of_le (h : p ≤ v.found c p e t) :
    v.draw c p e t = (⟨v.found c p e t - p, t, v.rivalAfter e t⟩, true) := by
  rw [Vessel.draw, spared, if_pos h, decide_eq_true h]

theorem draw_of_lt (h : v.found c p e t < p) :
    v.draw c p e t = (⟨v.found c p e t, t, v.rivalAfter e t⟩, false) := by
  rw [Vessel.draw, spared, if_neg (not_le.mpr h), decide_eq_false (not_le.mpr h)]

/-- Draws at one instant take the whole tokens there are. -/
theorem drawn_replicate (hp : 0 < p) (he : 0 < e) {k : ℕ} (hk : v.found c p e t / p ≤ k) :
    drawn c p e v (List.replicate (k + 1) t) = v.found c p e t / p ∧
      ∃ r, left c p e v (List.replicate (k + 1) t) = ⟨v.found c p e t % p, t, r⟩ := by
  induction k generalizing v with
  | zero =>
    have hlt : v.found c p e t < p := (Nat.div_eq_zero_iff_lt hp).mp (Nat.le_zero.mp hk)
    simp [drawn, left, draw_of_lt hlt, Nat.div_eq_of_lt hlt, Nat.mod_eq_of_lt hlt]
  | succ k ih =>
    rw [List.replicate_succ, drawn, left, List.foldl_cons]
    rcases le_or_gt p (v.found c p e t) with hle | hlt
    · have hfound := @found_now c p e (v.found c p e t - p) (v.rivalAfter e t) t t he
        ((Nat.sub_le _ _).trans found_le) le_rfl
      have hdiv := Nat.div_eq_sub_div hp hle
      have hmod := Nat.mod_eq_sub_mod hle
      obtain ⟨hdrawn, r, hleft⟩ :=
        @ih ⟨v.found c p e t - p, t, v.rivalAfter e t⟩ (by rw [hfound]; omega)
      rw [hfound] at hdrawn hleft
      rw [draw_of_le hle, hdrawn]
      refine ⟨by rw [hdiv, Bool.toNat_true, add_comm], r, ?_⟩
      rw [hmod]
      exact hleft
    · have hfound := @found_now c p e (v.found c p e t) (v.rivalAfter e t) t t he found_le le_rfl
      have hdiv := Nat.div_eq_of_lt hlt
      obtain ⟨hdrawn, hleft⟩ := @ih ⟨v.found c p e t, t, v.rivalAfter e t⟩
        (by rw [hfound, hdiv]; exact Nat.zero_le _)
      rw [hfound] at hdrawn hleft
      rw [draw_of_lt hlt, hdrawn]
      exact ⟨zero_add _, hleft⟩

/-- A walk takes the whole tokens of what is found first and of what flows in: it never meets
the capacity, since it leaves less than a token at every tick, and never lets the vessel be
thrown away. -/
theorem drawn_walk (hc : 0 < c) (hp : 0 < p) (he : 1 < e) (i : ℕ) :
    drawn c p e v (walk c t i) = (v.found c p e t + i * c) / p ∧
      ∃ r, left c p e v (walk c t i) = ⟨(v.found c p e t + i * c) % p, t + i, r⟩ := by
  induction i with
  | zero =>
    have hcap : v.found c p e t / p ≤ c :=
      Nat.div_le_of_le_mul (found_le.trans_eq (mul_comm c p))
    simpa [walk] using drawn_replicate hp (zero_lt_one.trans he) hcap
  | succ i ih =>
    have hwalk : walk c t (i + 1) = walk c t i ++ List.replicate (c + 1) (t + (i + 1)) := by
      rw [walk, List.range_succ, List.flatMap_append, List.flatMap_singleton]
      rfl
    have hrest : (v.found c p e t + i * c) % p < p := Nat.mod_lt _ hp
    have hroom : p + c ≤ c * p + 1 := by nlinarith
    have hfits : (v.found c p e t + i * c) % p + c ≤ c * p := by omega
    obtain ⟨hdrawn, r, hleft⟩ := ih
    have hfound : (Vessel.mk ((v.found c p e t + i * c) % p) (t + i) r).found c p e
        (t + (i + 1)) = (v.found c p e t + i * c) % p + c := by
      have htick : t + (i + 1) - (t + i) = 1 := by omega
      rw [found_of_lt (htick.trans_lt he), Vessel.level, htick, one_mul]
      exact min_eq_left hfits
    have hcap : ((v.found c p e t + i * c) % p + c) / p ≤ c :=
      Nat.div_le_of_le_mul (hfits.trans_eq (mul_comm c p))
    have htotal : v.found c p e t + (i + 1) * c =
        (v.found c p e t + i * c) % p + c + p * ((v.found c p e t + i * c) / p) := by
      have hsplit := Nat.mod_add_div (v.found c p e t + i * c) p
      rw [add_mul, one_mul]
      omega
    obtain ⟨hdrawn', hleft'⟩ := drawn_replicate hp (zero_lt_one.trans he) (hfound ▸ hcap)
    rw [hfound] at hdrawn' hleft'
    rw [hwalk, drawn_append, left_append, hleft, hdrawn, hdrawn', htotal,
      Nat.add_mul_div_left _ _ hp, Nat.add_mul_mod_self_left, add_comm]
    exact ⟨rfl, hleft'⟩

end Levels

/-! ### What draws can tell -/

section Telling
variable {c p e m n a b : ℕ} {v w : Vessel} {r : Option ℕ} {t t₁ t₂ : ℕ}

theorem exists_dvd_add_mul (hp : 0 < p) (hg : Nat.gcd c p ∣ n) : ∃ i, p ∣ n + i * c := by
  obtain ⟨k, rfl⟩ := hg
  have hpos : (p : ℤ) ≠ 0 := by omega
  have hbezout := Nat.gcd_eq_gcd_ab c p
  refine ⟨((-(k * Nat.gcdA c p) : ℤ) % p).toNat, ?_⟩
  zify
  rw [Int.toNat_of_nonneg (Int.emod_nonneg _ hpos), Int.emod_def, hbezout]
  exact ⟨k * Nat.gcdB c p - -(k * Nat.gcdA c p) / p * c, by ring⟩

/-- Two amounts that are worth the same number of tokens whatever flows in are equal. -/
theorem eq_of_div_eq (hp : 0 < p) (hg : Nat.gcd c p ∣ n) (hle : m ≤ n)
    (h : ∀ i, (m + i * c) / p = (n + i * c) / p) : m = n := by
  obtain ⟨i, hi⟩ := exists_dvd_add_mul hp hg
  by_contra hne
  have hlt : m + i * c < p * ((n + i * c) / p) := by
    rw [Nat.mul_div_cancel' hi]
    omega
  exact absurd (h i) (Nat.div_lt_of_lt_mul hlt).ne

theorem dvd_level (h : Nat.gcd c p ∣ v.grains) : Nat.gcd c p ∣ v.level c p t := by
  have hflow : Nat.gcd c p ∣ v.grains + (t - v.last) * c :=
    Nat.dvd_add h ((Nat.gcd_dvd_left c p).mul_left _)
  have hcap : Nat.gcd c p ∣ c * p := (Nat.gcd_dvd_left c p).mul_right _
  rcases min_choice (v.grains + (t - v.last) * c) (c * p) with hmin | hmin
  · rwa [Vessel.level, hmin]
  · rwa [Vessel.level, hmin]

theorem dvd_found (h : Nat.gcd c p ∣ v.grains) : Nat.gcd c p ∣ v.found c p e t := by
  unfold Vessel.found
  split_ifs
  · exact (Nat.gcd_dvd_left c p).mul_right _
  · exact dvd_level h

theorem dvd_spared (h : Nat.gcd c p ∣ n) : Nat.gcd c p ∣ spared p n := by
  unfold spared
  split_ifs
  · exact Nat.dvd_sub h (Nat.gcd_dvd_right c p)
  · exact h

theorem spared_le : spared p n ≤ n := by
  unfold spared
  split_ifs
  · exact Nat.sub_le n p
  · exact le_rfl

/-- Vessels that serve every walk from an instant alike hold as much for who comes then. -/
theorem found_eq_of_drawn (hc : 0 < c) (hp : 0 < p) (he : 1 < e) (hv : Nat.gcd c p ∣ v.grains)
    (hw : Nat.gcd c p ∣ w.grains)
    (h : ∀ i, drawn c p e v (walk c t i) = drawn c p e w (walk c t i)) :
    v.found c p e t = w.found c p e t := by
  have hsame : ∀ i, (v.found c p e t + i * c) / p = (w.found c p e t + i * c) / p := by
    intro i
    rw [← (drawn_walk hc hp he i).1, ← (drawn_walk hc hp he i).1]
    exact h i
  rcases le_total (v.found c p e t) (w.found c p e t) with hle | hle
  · exact eq_of_div_eq hp (dvd_found hw) hle hsame
  · exact (eq_of_div_eq hp (dvd_found hv) hle fun i => (hsame i).symm).symm

theorem walk_later {i : ℕ} (h : a ≤ t) : ∀ t' ∈ walk c t i, a ≤ t' := by
  intro t' ht'
  obtain ⟨j, -, hj⟩ := List.mem_flatMap.mp ht'
  rw [List.eq_of_mem_replicate hj]
  exact h.trans (Nat.le_add_right t j)

/-- Two vessels with some tokens drawn from them before serve every sequence of later draws
alike exactly if as many were drawn and at every later instant as much is found. -/
theorem drawn_later_iff (hc : 0 < c) (hp : 0 < p) (he : 1 < e) (hv : Nat.gcd c p ∣ v.grains)
    (hw : Nat.gcd c p ∣ w.grains) (hrival : v.rival = w.rival) :
    (∀ ts, (∀ t' ∈ ts, t ≤ t') → m + drawn c p e v ts = n + drawn c p e w ts) ↔
      m = n ∧ ∀ t', t ≤ t' → v.found c p e t' = w.found c p e t' := by
  constructor
  · intro h
    obtain rfl : m = n := h [] nofun
    refine ⟨rfl, fun t' ht' => found_eq_of_drawn hc hp he hv hw fun i => ?_⟩
    exact Nat.add_left_cancel (h _ (walk_later ht'))
  · rintro ⟨rfl, hfound⟩ ts hts
    congr 1
    exact drawn_congr hrival fun t' ht' => hfound t' (hts t' (List.mem_of_mem_head? ht'))

/-- Of two vessels that are not full, the one whose clock is behind is thrown away first. The
other must be full by then. -/
theorem found_later_iff (he : 0 < e) (h : t₁ < t₂) (ha : a < c * p) :
    (∀ t, t₂ ≤ t → (Vessel.mk a t₂ r).found c p e t = (Vessel.mk b t₁ r).found c p e t) ↔
      a = min (b + (t₂ - t₁) * c) (c * p) ∧
        (r.isSome → t₂ - t₁ < e ∧ c * p + (t₂ - t₁) * c ≤ a + e * c) := by
  have hnow : (Vessel.mk a t₂ r).found c p e t₂ = a := found_now he ha.le le_rfl
  have hthen : (Vessel.mk b t₁ r).found c p e t₂ = if r.isSome ∧ e ≤ t₂ - t₁ then c * p
      else min (b + (t₂ - t₁) * c) (c * p) := rfl
  have hsplit : (t₁ + e - t₂) * c + (t₂ - t₁) * c = (t₁ + e - t₂ + (t₂ - t₁)) * c :=
    (add_mul _ _ _).symm
  constructor
  · intro hfound
    have hsecond := hfound t₂ le_rfl
    rw [hnow, hthen] at hsecond
    split_ifs at hsecond with hthrown
    · exact absurd hsecond ha.ne
    refine ⟨hsecond, fun hr => ?_⟩
    have hclose : t₂ - t₁ < e := not_le.mp fun hlong => hthrown ⟨hr, hlong⟩
    have hexpired := hfound (t₁ + e) (by omega)
    rw [found_of_lt (by dsimp only; omega), Vessel.level, Vessel.found,
      if_pos ⟨hr, by dsimp only; omega⟩] at hexpired
    have hfull := min_eq_right_iff.mp hexpired
    dsimp only at hfull
    have htotal : t₁ + e - t₂ + (t₂ - t₁) = e := by omega
    rw [htotal] at hsplit
    exact ⟨hclose, by omega⟩
  · rintro ⟨hsecond, hlater⟩ t ht
    have hlevel : (Vessel.mk a t₂ r).level c p t = (Vessel.mk b t₁ r).level c p t := by
      rw [@level_later c p ⟨b, t₁, r⟩ t₂ t h.le ht]
      exact congrArg (fun n => min (n + (t - t₂) * c) (c * p)) hsecond
    by_cases hthrown : r.isSome ∧ e ≤ t - t₁
    · obtain ⟨hclose, hfull⟩ := hlater hthrown.1
      have hmore : (t₁ + e - t₂ + (t₂ - t₁)) * c ≤ (t - t₂ + (t₂ - t₁)) * c :=
        Nat.mul_le_mul_right c (by omega)
      have htotal : t₁ + e - t₂ + (t₂ - t₁) = e := by omega
      rw [htotal, add_mul] at hmore
      have hagain : (Vessel.mk a t₂ r).level c p t = c * p := min_eq_right (by dsimp only; omega)
      have hfound : (Vessel.mk b t₁ r).found c p e t = c * p := if_pos hthrown
      rw [hfound, Vessel.found, hagain, ite_self]
    · have hkept : ¬(r.isSome ∧ e ≤ t - t₂) := fun hold =>
        hthrown ⟨hold.1, hold.2.trans (Nat.sub_le_sub_left h.le t)⟩
      have hfirst : (Vessel.mk a t₂ r).found c p e t = (Vessel.mk a t₂ r).level c p t :=
        if_neg hkept
      have hother : (Vessel.mk b t₁ r).found c p e t = (Vessel.mk b t₁ r).level c p t :=
        if_neg hthrown
      rw [hfirst, hother, hlevel]

end Telling

/-! ### The order of two draws -/

section Orders
variable {c p e n : ℕ} {v : Vessel} {t₁ t₂ : ℕ}

theorem toNat_decide (q : Prop) [Decidable q] : (decide q).toNat = if q then 1 else 0 := by
  split_ifs with h
  · rw [decide_eq_true h, Bool.toNat_true]
  · rw [decide_eq_false h, Bool.toNat_false]

/-- Two draws in the order of their instants, with `x` grains at the first, `d` that flow in
between and room for `k`, against the same two the other way round, where the later one finds
`z`: as many tokens, and as much left at the second instant. -/
theorem spared_swap_iff {x d k z : ℕ} (hp : 0 < p) (hd : 0 < d) (hx : x ≤ k)
    (hz : z = k ∨ z = min (x + d) k) (hone : c = 1 → k = p) (hmore : c ≠ 1 → 2 * p ≤ k) :
    ((decide (p ≤ x)).toNat + (decide (p ≤ min (spared p x + d) k)).toNat =
        (decide (p ≤ z)).toNat + (decide (p ≤ spared p z)).toNat ∧
      spared p (min (spared p x + d) k) = min (spared p (spared p z) + d) k) ↔
      x = k ∧ d ≤ p ∧ (c = 1 → d < p) := by
  have hpk : p ≤ k := by by_cases hc : c = 1 <;> omega
  have hfound : z = k ∨ z = x + d ∧ x + d ≤ k := by omega
  simp only [toNat_decide]
  rcases le_or_gt p x with hpx | hpx
  · have hspared : spared p x = x - p := if_pos hpx
    rw [hspared, if_pos hpx]
    rcases hfound with rfl | ⟨rfl, hroom⟩
    -- What overflows in the one order is not yet there in the other.
    · have hthen : spared p z = z - p := if_pos hpk
      rw [hthen, if_pos hpk]
      unfold spared
      by_cases hc : c = 1
      · have hk := hone hc
        split_ifs <;> omega
      · have hk := hmore hc
        split_ifs <;> omega
    -- Nothing overflows: the orders leave the same, and the later clock hides what flows in.
    · have hthen : spared p (x + d) = x + d - p := if_pos (hpx.trans (Nat.le_add_right x d))
      have hrest : spared p (x + d - p) < k := spared_le.trans_lt (by omega)
      have hfits : min (x - p + d) k = x + d - p := by omega
      rw [hthen, hfits, if_pos (hpx.trans (Nat.le_add_right x d))]
      omega
  -- The first draw is refused in the one order and may be served in the other.
  · have hspared : spared p x = x := if_neg (not_le.mpr hpx)
    rw [hspared, if_neg (not_le.mpr hpx)]
    rcases hfound with rfl | ⟨rfl, hroom⟩
    · have hthen : spared p z = z - p := if_pos hpk
      rw [hthen, if_pos hpk]
      unfold spared
      split_ifs <;> omega
    · rw [min_eq_left hroom]
      unfold spared
      split_ifs <;> omega

/-- The same where the vessel is thrown away between the two draws. -/
theorem spared_swap_thrown_iff {x d k : ℕ} (hp : 0 < p) (hd : 0 < d) (hone : c = 1 → k = p)
    (hmore : c ≠ 1 → 2 * p ≤ k) :
    ((decide (p ≤ x)).toNat + (decide (p ≤ k)).toNat =
        (decide (p ≤ k)).toNat + (decide (p ≤ spared p k)).toNat ∧
      spared p k = min (spared p (spared p k) + d) k) ↔ c ≠ 1 ∧ p ≤ x ∧ d = p := by
  have hpk : p ≤ k := by by_cases hc : c = 1 <;> omega
  have hspared : spared p k = k - p := if_pos hpk
  simp only [toNat_decide]
  rw [if_pos hpk, hspared]
  unfold spared
  by_cases hc : c = 1
  · have hk := hone hc
    split_ifs <;> omega
  · have hk := hmore hc
    split_ifs <;> omega

/-- What the two draws took flows in again in time exactly if two tokens do, or the one there
is room for. -/
theorem spared_again_iff {d k : ℕ} (hc : 0 < c) (hd : d ≤ p) (hlt : c = 1 → d < p)
    (hone : c = 1 → k = p) (hmore : c ≠ 1 → 2 * p ≤ k) :
    k + d ≤ spared p (min (spared p k + d) k) + n ↔ min c 2 * p ≤ n := by
  have hpk : p ≤ k := by by_cases hc : c = 1 <;> omega
  have hspared : spared p k = k - p := if_pos hpk
  have hfits : min (k - p + d) k = k - p + d := by omega
  rw [hspared, hfits]
  by_cases h : c = 1
  · have hk := hone h
    have hd' := hlt h
    have hrest : spared p (k - p + d) = k - p + d := if_neg (by omega)
    have hmin : min c 2 = 1 := by omega
    rw [hrest, hmin]
    omega
  · have hk := hmore h
    have hrest : spared p (k - p + d) = k - p + d - p := if_pos (by omega)
    have hmin : min c 2 = 2 := by omega
    rw [hrest, hmin]
    omega

theorem rivalAfter_rivalAfter {a t : ℕ} :
    (Vessel.mk n a (v.rivalAfter e t)).rivalAfter e t₂ = v.rivalAfter e (max t t₂) := by
  unfold Vessel.rivalAfter
  rw [Option.filter_filter]
  congr 1
  funext l
  rw [← Bool.decide_and]
  exact decide_eq_decide.mpr (by omega)

theorem crowded_of_after (h : (v.rivalAfter e t₁).isSome) : v.rival.isSome :=
  Option.isSome_of_isSome_filter _ _ h

theorem crowded_before (h : t₁ ≤ t₂) (hr : (v.rivalAfter e t₂).isSome) :
    (v.rivalAfter e t₁).isSome := by
  rw [← max_eq_right h, ← @rivalAfter_rivalAfter e 0 v t₂ 0 t₁] at hr
  exact crowded_of_after hr

theorem drawn_twice {ts : List ℕ} : drawn c p e v (t₁ :: t₂ :: ts) =
    (decide (p ≤ v.found c p e t₁)).toNat +
        (decide (p ≤ (v.draw c p e t₁).1.found c p e t₂)).toNat +
      drawn c p e ⟨spared p ((v.draw c p e t₁).1.found c p e t₂), t₂,
        v.rivalAfter e (max t₁ t₂)⟩ ts := by
  have hrival := @rivalAfter_rivalAfter e (spared p (v.found c p e t₁)) v t₂ t₁ t₁
  rw [drawn, drawn, ← add_assoc, ← hrival]
  rfl

/-- What two draws get and leave in either order decides whether later draws can tell. -/
theorem drawn_orders_iff (hc : 0 < c) (hp : 0 < p) (he : 1 < e) (hv : Nat.gcd c p ∣ v.grains)
    (h : t₁ < t₂) :
    (∀ ts, (∀ t ∈ ts, t₂ ≤ t) →
        drawn c p e v (t₁ :: t₂ :: ts) = drawn c p e v (t₂ :: t₁ :: ts)) ↔
      ((decide (p ≤ v.found c p e t₁)).toNat +
            (decide (p ≤ (v.draw c p e t₁).1.found c p e t₂)).toNat =
          (decide (p ≤ v.found c p e t₂)).toNat +
            (decide (p ≤ spared p (v.found c p e t₂))).toNat ∧
        spared p ((v.draw c p e t₁).1.found c p e t₂) =
          min (spared p (spared p (v.found c p e t₂)) + (t₂ - t₁) * c) (c * p)) ∧
      ((v.rivalAfter e t₂).isSome → t₂ - t₁ < e ∧
        c * p + (t₂ - t₁) * c ≤ spared p ((v.draw c p e t₁).1.found c p e t₂) + e * c) := by
  have hepos : 0 < e := zero_lt_one.trans he
  have hpk : p ≤ c * p := Nat.le_mul_of_pos_left p hc
  obtain ⟨y, hy⟩ : ∃ y, (v.draw c p e t₁).1.found c p e t₂ = y := ⟨_, rfl⟩
  have hback : (v.draw c p e t₂).1.found c p e t₁ = spared p (v.found c p e t₂) :=
    found_now hepos (spared_le.trans found_le) h.le
  have hylt : spared p y < c * p := by
    have hyle : y ≤ c * p := hy ▸ found_le
    unfold spared
    split_ifs <;> omega
  have hygcd : Nat.gcd c p ∣ spared p y := hy ▸ dvd_spared (dvd_found (dvd_spared (dvd_found hv)))
  have hzgcd : Nat.gcd c p ∣ spared p (spared p (v.found c p e t₂)) :=
    dvd_spared (dvd_spared (dvd_found hv))
  have hlater := @drawn_later_iff c p e
    ((decide (p ≤ v.found c p e t₁)).toNat + (decide (p ≤ y)).toNat)
    ((decide (p ≤ v.found c p e t₂)).toNat + (decide (p ≤ spared p (v.found c p e t₂))).toNat)
    ⟨spared p y, t₂, v.rivalAfter e t₂⟩
    ⟨spared p (spared p (v.found c p e t₂)), t₁, v.rivalAfter e t₂⟩ t₂ hc hp he hygcd hzgcd rfl
  simp only [drawn_twice, hy, hback, max_eq_right h.le, max_eq_left h.le]
  rw [hlater, found_later_iff hepos h hylt, ← and_assoc]

/-- Nobody who draws later can tell the order of two draws exactly if the instants are the
same, or the vessel is full at the first and at most one token flows in between, less than
one if there is room for one only; and where the place stays crowded, what the two draws take
flows in again before the vessel is thrown away. If it is thrown away between the draws,
exactly one token must flow in. -/
theorem drawn_swap_iff (hc : 0 < c) (hp : 0 < p) (he : 1 < e) (hv : Nat.gcd c p ∣ v.grains)
    (h₁ : v.last ≤ t₁) (h₂ : t₁ ≤ t₂) :
    (∀ ts, (∀ t ∈ ts, t₂ ≤ t) →
        drawn c p e v (t₁ :: t₂ :: ts) = drawn c p e v (t₂ :: t₁ :: ts)) ↔
      t₁ = t₂ ∨
        if (v.rivalAfter e t₁).isSome ∧ e ≤ t₂ - t₁ then
          ¬(v.rivalAfter e t₂).isSome ∧ c ≠ 1 ∧ p ≤ v.found c p e t₁ ∧ (t₂ - t₁) * c = p
        else
          v.found c p e t₁ = c * p ∧ (t₂ - t₁) * c ≤ p ∧ (c = 1 → (t₂ - t₁) * c < p) ∧
            ((v.rivalAfter e t₂).isSome → min c 2 * p ≤ e * c) := by
  rcases h₂.eq_or_lt with rfl | hlt
  · exact iff_of_true (fun _ _ => rfl) (.inl rfl)
  rw [or_iff_right hlt.ne]
  have hd : 0 < (t₂ - t₁) * c := Nat.mul_pos (Nat.sub_pos_of_lt hlt) hc
  have hone : c = 1 → c * p = p := fun h => by rw [h, one_mul]
  have hmore : c ≠ 1 → 2 * p ≤ c * p := fun h => Nat.mul_le_mul_right p (by omega)
  have hfirst : (v.draw c p e t₁).1.found c p e t₁ = spared p (v.found c p e t₁) :=
    found_now (zero_lt_one.trans he) (spared_le.trans found_le) le_rfl
  have hnext : (v.draw c p e t₁).1.found c p e t₂ =
      if (v.rivalAfter e t₁).isSome ∧ e ≤ t₂ - t₁ then c * p
      else min (spared p (v.found c p e t₁) + (t₂ - t₁) * c) (c * p) := by
    rw [← hfirst]
    exact found_later le_rfl h₂
  have hfound : v.found c p e t₂ = c * p ∨
      v.found c p e t₂ = min (v.found c p e t₁ + (t₂ - t₁) * c) (c * p) := by
    rw [found_later h₁ h₂]
    split_ifs
    · exact .inl rfl
    · exact .inr rfl
  rw [drawn_orders_iff hc hp he hv hlt]
  split_ifs at hnext ⊢ with hthrown
  · have hmissed : v.found c p e t₂ = c * p := by
      have hrival : v.rival.isSome := crowded_of_after hthrown.1
      rw [found_later h₁ h₂, if_pos ⟨hrival, hthrown.2.trans (Nat.sub_le_sub_left h₁ t₂)⟩]
    have hstays : ((v.rivalAfter e t₂).isSome → t₂ - t₁ < e ∧
        c * p + (t₂ - t₁) * c ≤ spared p (c * p) + e * c) ↔ ¬(v.rivalAfter e t₂).isSome :=
      ⟨fun h hr => absurd (h hr).1 (not_lt.mpr hthrown.2), fun h hr => absurd hr h⟩
    rw [hnext, hmissed, spared_swap_thrown_iff hp hd hone hmore, hstays, and_comm]
  · rw [hnext, spared_swap_iff hp hd found_le hfound hone hmore, and_assoc, and_assoc]
    refine and_congr_right fun hfull => and_congr_right fun hfew => and_congr_right fun hless => ?_
    rw [hfull, spared_again_iff hc hfew hless hone hmore]
    refine imp_congr_right fun hr => and_iff_right ?_
    by_contra hlong
    exact hthrown ⟨crowded_before h₂ hr, not_lt.mp hlong⟩

end Orders

end AgentPay.GrainBuckets
