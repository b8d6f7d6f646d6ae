import AgentPay.GrainBuckets
import AgentPay.RateLimits
import Mathlib.Tactic.FieldSimp

/-!
# Calls that overtake each other

`check` reads the clock before it takes the lock, so two calls of one address can reach its
bucket in the other order than their instants. The call that comes late sets the bucket's
clock back, and what flowed in between the two instants flows in once more. The order cannot
be told afterwards exactly where the bucket is full at the first instant and at most one
token flows in between, as long as nothing is evicted; what evictions change is worked out
too.

The quota is any. One of no tokens has none to hand out twice; there the only calls allowed
are those that find the caller's own bucket evicted, and it is counted when that happens.
The calls find the lock in order; a poisoned lock refuses them all and changes nothing.
-/
namespace AgentPay.LockOrders
open IpAddresses (IpAddr)
open KeyedTable RateLimits
open GrainBuckets (Vessel spared drawn drawn_swap_iff dvd_spared dvd_level)

/-! ### Calls of one address -/

/-- Calls of one address at given times. `check` reads the clock before it takes the lock, so
the times need not be in the order in which the calls are counted. -/
def callsOf (key : IpAddr) (ts : List Nanos) : List Check := ts.map fun t => ⟨key, t, false⟩

def allowed (rl : RateLimiter) (cs : List Check) : ℕ :=
  ((answers rl cs).filter fun a => a.2 = .allow).length

/-- Whatever the address calls later, as many of its calls are allowed in either order. -/
def OrderBlind (rl : RateLimiter) (key : IpAddr) (t₁ t₂ : Nanos) : Prop :=
  ∀ later : List Nanos, (∀ t ∈ later, t₂ ≤ t) →
    allowed rl (callsOf key (t₁ :: t₂ :: later)) = allowed rl (callsOf key (t₂ :: t₁ :: later))

def others (rl : RateLimiter) (b : Bucket) : List Bucket :=
  rl.buckets.rows.filter fun a => !sameKey a b

def Idle (now : Nanos) (b : Bucket) : Prop := idleEviction ≤ now - b.last

instance (now : Nanos) (b : Bucket) : Decidable (Idle now b) :=
  inferInstanceAs (Decidable (idleEviction ≤ now - b.last))

section Conditions
variable (q : Quota) (os : List Bucket) (b : Bucket) (now t₁ t₂ : Nanos)

/-- With the address's own bucket the map is full, and since no other is idle it stays so. -/
def Crowded : Prop := maxBuckets ≤ os.length + 1 ∧ ∀ a ∈ os, ¬Idle now a

instance : Decidable (Crowded os now) :=
  inferInstanceAs (Decidable (maxBuckets ≤ os.length + 1 ∧ ∀ a ∈ os, ¬Idle now a))

/-- The bucket is evicted before the call looks for it. -/
def Evicted : Prop := maxBuckets ≤ os.length + 1 ∧ Idle now b

instance : Decidable (Evicted os b now) :=
  inferInstanceAs (Decidable (maxBuckets ≤ os.length + 1 ∧ Idle now b))

/-- A new bucket always has a token for the call that made it. -/
def Allows : Prop := Evicted os b now ∨ 1 ≤ q.refilled now b

instance : Decidable (Allows q os b now) :=
  inferInstanceAs (Decidable (Evicted os b now ∨ 1 ≤ q.refilled now b))

/-- The later call finds evicted what the earlier one left. -/
def EvictedBetween : Prop := Crowded os t₁ ∧ idleEviction ≤ t₂ - t₁

instance : Decidable (EvictedBetween os t₁ t₂) :=
  inferInstanceAs (Decidable (Crowded os t₁ ∧ idleEviction ≤ t₂ - t₁))

def inflow (d : Nanos) : ℚ := asSecs d * q.refillPerSec

/-- The bucket is full at the first instant, and at most one token flows in up to the second,
less than one if it holds no more than one. In a crowded map the tokens of two calls, or the
one there is, flow in before a bucket is idle. -/
def Brimming : Prop :=
  (Evicted os b t₁ ∨ q.refilled t₁ b = q.capacityTokens) ∧ inflow q (t₂ - t₁) ≤ 1 ∧
    (q.capacity = 1 → inflow q (t₂ - t₁) < 1) ∧
    (Crowded os t₂ → min q.capacityTokens 2 ≤ inflow q idleEviction)

/-- A call is allowed at the first instant, and by the second one token has flowed in for it.
The map is no longer crowded. -/
def Regained : Prop :=
  ¬Crowded os t₂ ∧ q.capacity ≠ 1 ∧ Allows q os b t₁ ∧ inflow q (t₂ - t₁) = 1

/-- The bucket is evicted as often in either order, and the map is no longer crowded. -/
def EvictedAlike : Prop :=
  ¬Crowded os t₂ ∧ (Evicted os b t₂ → (Evicted os b t₁ ↔ ¬EvictedBetween os t₁ t₂))

/-- The two calls that may overtake each other. -/
def Harmless : Prop :=
  t₁ = t₂ ∨
    if q.capacity = 0 then EvictedAlike os b t₁ t₂
    else q.period = 0 ∨
      if EvictedBetween os t₁ t₂ then Regained q os b t₁ t₂ else Brimming q os b t₁ t₂

end Conditions

/-! ### The limiter as an address sees it -/

/-- The bucket of an address, and the other buckets. -/
structure Seen (rl : RateLimiter) (os : List Bucket) (b : Bucket) : Prop where
  own : (rl.buckets.rows.find? fun a => a.key = b.key) = some b
  others : others rl b = os
  room : os.length < maxBuckets

def othersAfter (os : List Bucket) (now : Nanos) : List Bucket :=
  if maxBuckets ≤ os.length + 1 then os.filter fun a => !decide (Idle now a) else os

/-- What a call that finds some tokens leaves of them. -/
def sparedTokens (tokens : ℚ) : ℚ := if 1 ≤ tokens then tokens - 1 else tokens

/-- The tokens in the address's bucket after a call. -/
def tokensAfter (q : Quota) (os : List Bucket) (b : Bucket) (now : Nanos) : ℚ :=
  if Evicted os b now then q.capacityTokens - 1 else sparedTokens (q.refilled now b)

def ownAfter (q : Quota) (os : List Bucket) (b : Bucket) (now : Nanos) : Bucket :=
  ⟨b.key, tokensAfter q os b now, now⟩

/-- How many calls are allowed, as the address sees it. -/
def allowedFrom (q : Quota) : List Bucket → Bucket → List Nanos → ℕ
  | _, _, [] => 0
  | os, b, t::ts => (if Allows q os b t then 1 else 0) +
      allowedFrom q (othersAfter os t) (ownAfter q os b t) ts

section View
variable {rl : RateLimiter} {os : List Bucket} {b r : Bucket} {now : Nanos} {key : IpAddr}
variable {buckets : Table sameKey} {ts : List Nanos}

theorem Seen.length (h : Seen rl os b) : rl.buckets.rows.length = os.length + 1 := by
  have hown : rl.buckets.rows.filter (fun a => sameKey a b) = [b] :=
    Table.filter_key sameKey_eq h.own
  have hothers : rl.buckets.rows.filter (fun a => !sameKey a b) = os := h.others
  rw [List.length_eq_length_filter_add fun a => sameKey a b, hown, hothers, add_comm]
  rfl

theorem idle_eq (now : Nanos) (a : Bucket) :
    (!decide (now - a.last < idleEviction)) = decide (Idle now a) := by
  rw [← decide_not]
  exact decide_eq_decide.mpr not_lt

theorem evict_others (h : Seen rl os b) :
    (evict now rl.buckets).rows.filter (fun a => !sameKey a b) = othersAfter os now := by
  unfold evict othersAfter
  rw [h.length]
  split_ifs
  · simp only [Table.delete, idle_eq, ← h.others, others, List.filter_filter, Bool.and_comm]
  · exact h.others

theorem evict_own (h : Seen rl os b) : ((evict now rl.buckets).rows.find? fun a => a.key = b.key) =
    if Evicted os b now then none else some b := by
  unfold evict
  rw [h.length]
  by_cases hfull : maxBuckets ≤ os.length + 1
  · rw [if_pos hfull, Table.find?_delete sameKey_eq, h.own, Option.filter_some, idle_eq]
    by_cases hidle : Idle now b
    · rw [decide_eq_true hidle, if_neg (by decide), if_pos ⟨hfull, hidle⟩]
    · rw [decide_eq_false hidle, if_pos (by decide), if_neg fun he => hidle he.2]
  · rw [if_neg hfull, if_neg fun he => hfull he.1, h.own]

/-- A caller whose bucket was evicted finds the map with room. -/
theorem evict_room (h : Seen rl os b) (he : Evicted os b now) :
    (evict now rl.buckets).rows.length < maxBuckets := by
  have hlength := h.length
  have hroom := h.room
  have hgone : (rl.buckets.rows.filter fun a => !!decide (now - a.last < idleEviction)).length <
      rl.buckets.rows.length := by
    refine List.length_filter_lt_length_iff_exists.mpr ⟨b, List.mem_of_find?_eq_some h.own, ?_⟩
    rw [idle_eq, decide_eq_true he.2]
    decide
  unfold evict
  rw [if_pos (by rw [hlength]; exact he.1)]
  exact hgone.trans_le (by omega)

theorem othersAfter_length : (othersAfter os now).length ≤ os.length := by
  unfold othersAfter
  split_ifs
  · exact List.length_filter_le _ _
  · exact le_rfl

theorem seen_upsert {q : Quota} (hos : buckets.rows.filter (fun a => !sameKey a b) = os)
    (hr : r.key = b.key) (hroom : os.length < maxBuckets) : Seen ⟨buckets.upsert r, q⟩ os r where
  own := by rw [Table.find?_upsert sameKey_eq, if_pos rfl]
  others := by
    have hsame : (fun a => !sameKey a r) = fun a => !sameKey a b := by
      funext a
      rw [sameKey, sameKey, hr]
    have hself : sameKey r b = true := decide_eq_true hr
    have hrows : (buckets.upsert r).rows = os ++ [r] := by
      rw [← hos, ← hsame]
      rfl
    rw [others, hrows, hsame, List.filter_append, List.filter_singleton, hself, ← hos,
      List.filter_filter]
    simp
  room := hroom

/-- What a call does to the limiter is what it does to the bucket of its address and to the
others. -/
theorem checkAt_seen (h : Seen rl os b) :
    Seen (checkAt rl ⟨b.key, now, false⟩).1 (othersAfter os now) (ownAfter rl.quota os b now) ∧
      (checkAt rl ⟨b.key, now, false⟩).1.quota = rl.quota ∧
      ((checkAt rl ⟨b.key, now, false⟩).2 = .allow ↔ Allows rl.quota os b now) := by
  have hroom : (othersAfter os now).length < maxBuckets := othersAfter_length.trans_lt h.room
  have hos := @evict_others rl os b now h
  have hown := @evict_own rl os b now h
  by_cases he : Evicted os b now
  · rw [if_pos he] at hown
    rw [checkAt_new rfl hown, if_neg (not_le.mpr (evict_room h he))]
    refine ⟨?_, rfl, iff_of_true rfl (.inl he)⟩
    rw [ownAfter, tokensAfter, if_pos he]
    exact seen_upsert hos rfl hroom
  · rw [if_neg he] at hown
    rw [checkAt_held rfl hown, ownAfter, tokensAfter, if_neg he, sparedTokens]
    split_ifs with hone
    · exact ⟨seen_upsert hos rfl hroom, rfl, iff_of_true rfl (.inr hone)⟩
    · refine ⟨seen_upsert hos rfl hroom, rfl, iff_of_false nofun ?_⟩
      rintro (hev | hone')
      · exact he hev
      · exact hone hone'

theorem allowed_cons (c : Check) (cs : List Check) : allowed rl (c :: cs) =
    (if (checkAt rl c).2 = .allow then 1 else 0) + allowed (checkAt rl c).1 cs := by
  rw [allowed, answers, List.filter_cons]
  split_ifs with h h'
  · rw [List.length_cons, add_comm]
    rfl
  · exact absurd (of_decide_eq_true h) h'
  · exact absurd (decide_eq_true ‹_›) h
  · exact (zero_add _).symm

/-- The limiter allows what the address's view of it allows. -/
theorem allowed_eq (h : Seen rl os b) :
    allowed rl (callsOf b.key ts) = allowedFrom rl.quota os b ts := by
  induction ts generalizing rl os b with
  | nil => rfl
  | cons t ts ih =>
    obtain ⟨hseen, hquota, hallow⟩ := @checkAt_seen rl os b t h
    have hrest := ih hseen
    rw [hquota] at hrest
    rw [callsOf, List.map_cons, allowed_cons, allowedFrom, ← hrest, if_congr hallow rfl rfl]
    rfl

end View

/-! ### The others -/

section Others
variable {os : List Bucket} {b : Bucket} {r : Option ℕ} {t t₁ t₂ : Nanos}

theorem Idle.later (h : Idle t₁ b) (h₂ : t₁ ≤ t₂) : Idle t₂ b :=
  le_trans h (Nat.sub_le_sub_right h₂ b.last)

theorem Crowded.before (h : Crowded os t₂) (h₂ : t₁ ≤ t₂) : Crowded os t₁ :=
  ⟨h.1, fun a ha hidle => h.2 a ha (hidle.later h₂)⟩

theorem othersAfter_of_crowded (h : Crowded os t) : othersAfter os t = os := by
  have hall : os.filter (fun a => !decide (Idle t a)) = os :=
    List.filter_eq_self.mpr fun a ha => by
      rw [decide_eq_false (h.2 a ha)]
      rfl
  rw [othersAfter, hall, ite_self]

/-- A map that is not crowded has room after the call. -/
theorem othersAfter_room (h : ¬Crowded os t) (hroom : os.length < maxBuckets) :
    (othersAfter os t).length + 1 < maxBuckets := by
  unfold othersAfter
  split_ifs with hfull
  · have hidle : ∃ a ∈ os, Idle t a := by
      by_contra hnone
      exact h ⟨hfull, fun a ha hidle => hnone ⟨a, ha, hidle⟩⟩
    obtain ⟨a, ha, hidle⟩ := hidle
    have hgone : (os.filter fun a => !decide (Idle t a)).length < os.length :=
      List.length_filter_lt_length_iff_exists.mpr ⟨a, ha, by rw [decide_eq_true hidle]; decide⟩
    omega
  · omega

/-- The others are like one rival, the one that has been left alone for longest. -/
def Rival (os : List Bucket) : Option ℕ → Prop
  | none => os.length + 1 < maxBuckets
  | some l => maxBuckets ≤ os.length + 1 ∧ ∀ t, (∀ a ∈ os, ¬Idle t a) ↔ t - l < idleEviction

theorem exists_rival (os : List Bucket) : ∃ r, Rival os r := by
  rcases lt_or_ge (os.length + 1) maxBuckets with hroom | hfull
  · exact ⟨none, hroom⟩
  have hsome : os.toFinset.Nonempty := by
    rw [List.toFinset_nonempty_iff]
    rintro rfl
    exact absurd hfull (by decide)
  obtain ⟨a, ha, hleast⟩ := os.toFinset.exists_min_image Bucket.last hsome
  rw [List.mem_toFinset] at ha
  refine ⟨some a.last, hfull, fun t => ⟨fun h => not_le.mp (h a ha), fun h a' ha' hidle => ?_⟩⟩
  have holder := hleast a' (List.mem_toFinset.mpr ha')
  exact absurd (le_trans hidle (Nat.sub_le_sub_left holder t)) (not_le.mpr h)

theorem rival_crowded (h : Rival os r) :
    Crowded os t ↔ (r.filter fun l => t - l < idleEviction).isSome := by
  rcases r with _ | l
  · exact iff_of_false (fun hcrowded => absurd hcrowded.1 (not_le.mpr h)) nofun
  · rw [Crowded, and_iff_right h.1, h.2 t, Option.isSome_filter]
    exact decide_eq_true_iff.symm

theorem rival_evicted (h : Rival os r) :
    Evicted os b t ↔ r.isSome ∧ idleEviction ≤ t - b.last := by
  rcases r with _ | l
  · exact iff_of_false (fun he => absurd he.1 (not_le.mpr h)) fun he => nomatch he.1
  · exact and_congr_left fun _ => iff_of_true h.1 rfl

theorem rival_after (h : Rival os r) (hroom : os.length < maxBuckets) :
    Rival (othersAfter os t) (r.filter fun l => t - l < idleEviction) := by
  by_cases hcrowded : Crowded os t
  · obtain ⟨l, hl⟩ := Option.isSome_iff_exists.mp ((rival_crowded h).mp hcrowded)
    rw [othersAfter_of_crowded hcrowded, hl, ← Option.eq_some_of_filter_eq_some hl]
    exact h
  · have hnone := mt (rival_crowded h).mpr hcrowded
    rw [Option.not_isSome_iff_eq_none.mp hnone]
    exact othersAfter_room hcrowded hroom

end Others

/-! ### Quotas of some tokens -/

/-- A bucket counted in grains, where a token is as many as the period has nanoseconds. The
other buckets are its rival. -/
structure Counted (q : Quota) (os : List Bucket) (b : Bucket) (v : Vessel) : Prop where
  tokens : b.tokens * q.period = v.grains
  last : b.last = v.last
  rival : Rival os v.rival
  room : os.length < maxBuckets

section Grains
variable {q : Quota} {os : List Bucket} {b : Bucket} {v : Vessel} {now : Nanos} {tokens : ℚ} {n : ℕ}
variable {ts : List Nanos}

theorem inflow_grains (hp : 0 < q.period) (d : Nanos) :
    inflow q d * q.period = (d * q.capacity.toNat : ℕ) := by
  have hperiod : (q.period : ℚ) ≠ 0 := Nat.cast_ne_zero.mpr hp.ne'
  rw [inflow, asSecs, Quota.refillPerSec, Quota.capacityTokens, asSecs]
  push_cast
  field_simp

theorem refilled_grains (hp : 0 < q.period) (h : b.tokens * q.period = v.grains)
    (hlast : b.last = v.last) :
    q.refilled now b * q.period = v.level q.capacity.toNat q.period now := by
  have hinflow := inflow_grains hp (now - b.last)
  rw [inflow] at hinflow
  rw [Quota.refilled, if_neg hp.ne', min_mul_of_nonneg _ _ (Nat.cast_nonneg _), add_mul, h,
    hinflow, hlast, Quota.capacityTokens, Vessel.level]
  push_cast
  rfl

theorem one_le_iff (hp : 0 < q.period) (h : tokens * q.period = n) : 1 ≤ tokens ↔ q.period ≤ n := by
  have hperiod : (0 : ℚ) < q.period := Nat.cast_pos.mpr hp
  rw [← mul_le_mul_iff_of_pos_right hperiod, one_mul, h, Nat.cast_le]

theorem spared_grains (hp : 0 < q.period) (h : tokens * q.period = n) :
    sparedTokens tokens * q.period = spared q.period n := by
  unfold sparedTokens spared
  simp only [one_le_iff hp h]
  split_ifs with hle
  · rw [sub_mul, one_mul, h, Nat.cast_sub hle]
  · exact h

theorem Counted.found (h : Counted q os b v) :
    v.found q.capacity.toNat q.period idleEviction now =
      if Evicted os b now then q.capacity.toNat * q.period
      else v.level q.capacity.toNat q.period now := by
  rw [Vessel.found, ← h.last]
  exact if_congr (rival_evicted h.rival).symm rfl rfl

theorem ownAfter_counted (hc : 1 ≤ q.capacity.toNat) (hp : 0 < q.period)
    (h : Counted q os b v) :
    Counted q (othersAfter os now) (ownAfter q os b now)
        (v.draw q.capacity.toNat q.period idleEviction now).1 ∧
      (Allows q os b now ↔
        q.period ≤ v.found q.capacity.toNat q.period idleEviction now) := by
  have hone : q.period ≤ q.capacity.toNat * q.period := Nat.le_mul_of_pos_left _ hc
  have hrival := @rival_after os v.rival now h.rival h.room
  have hroom : (othersAfter os now).length < maxBuckets := othersAfter_length.trans_lt h.room
  by_cases he : Evicted os b now
  · have hfound := (@Counted.found q os b v now h).trans (if_pos he)
    refine ⟨⟨?_, rfl, hrival, hroom⟩, iff_of_true (.inl he) (hfound ▸ hone)⟩
    rw [ownAfter, tokensAfter, if_pos he, Vessel.draw, spared, hfound, if_pos hone]
    rw [sub_mul, one_mul, Quota.capacityTokens, Nat.cast_sub hone, Nat.cast_mul]
  · have hfound := (@Counted.found q os b v now h).trans (if_neg he)
    have hgrains := @refilled_grains q b v now hp h.tokens h.last
    refine ⟨⟨?_, rfl, hrival, hroom⟩, ?_⟩
    · rw [ownAfter, tokensAfter, if_neg he, Vessel.draw, hfound]
      exact spared_grains hp hgrains
    · rw [hfound, Allows, or_iff_right he]
      exact one_le_iff hp hgrains

/-- A bucket allows as many calls as its vessel serves draws. -/
theorem allowedFrom_eq (hc : 1 ≤ q.capacity.toNat) (hp : 0 < q.period) (h : Counted q os b v) :
    allowedFrom q os b ts = drawn q.capacity.toNat q.period idleEviction v ts := by
  induction ts generalizing os b v with
  | nil => rfl
  | cons t ts ih =>
    obtain ⟨hcounted, hallow⟩ := @ownAfter_counted q os b v t hc hp h
    rw [allowedFrom, drawn, ih hcounted, if_congr hallow rfl rfl, Vessel.draw,
      GrainBuckets.toNat_decide]

end Grains

/-! ### A quota of none -/

section Nothing
variable {q : Quota} {os : List Bucket} {b : Bucket} {t t₁ t₂ : Nanos} {ts : List Nanos}

theorem refilled_le (q : Quota) (now : Nanos) (b : Bucket) :
    q.refilled now b ≤ q.capacityTokens := by
  unfold Quota.refilled
  split_ifs
  · exact le_rfl
  · exact min_le_right _ _

/-- Without tokens only a bucket made anew allows a call. -/
theorem allows_iff_evicted (hq : q.capacity = 0) : Allows q os b t ↔ Evicted os b t := by
  have hnone : q.refilled t b ≤ 0 := by
    refine (refilled_le q t b).trans_eq ?_
    rw [Quota.capacityTokens, hq]
    rfl
  exact or_iff_left (by linarith)

theorem allowedFrom_cons (hq : q.capacity = 0) : allowedFrom q os b (t :: ts) =
    (if Evicted os b t then 1 else 0) +
      allowedFrom q (othersAfter os t) (ownAfter q os b t) ts := by
  rw [allowedFrom, if_congr (allows_iff_evicted hq) rfl rfl]

theorem allowedFrom_of_room (hq : q.capacity = 0) (h : os.length + 1 < maxBuckets) :
    allowedFrom q os b ts = 0 := by
  induction ts generalizing b with
  | nil => rfl
  | cons t ts ih =>
    have hsame : othersAfter os t = os := if_neg (not_le.mpr h)
    rw [allowedFrom_cons hq, if_neg fun he => absurd he.1 (not_le.mpr h), hsame, ih]

/-- Once the map is no longer crowded, only the calls up to then can be allowed. -/
theorem allowedFrom_second (hq : q.capacity = 0) (hroom : os.length < maxBuckets)
    (h : ¬Crowded os t₂) :
    allowedFrom q (othersAfter os t₁) (ownAfter q os b t₁) (t₂ :: ts) =
      if EvictedBetween os t₁ t₂ then 1 else 0 := by
  by_cases hcrowded : Crowded os t₁
  · have hagain : Evicted os (ownAfter q os b t₁) t₂ ↔ EvictedBetween os t₁ t₂ :=
      and_congr_left fun _ => iff_of_true hcrowded.1 hcrowded
    rw [othersAfter_of_crowded hcrowded, allowedFrom_cons hq,
      allowedFrom_of_room hq (othersAfter_room h hroom), add_zero, if_congr hagain rfl rfl]
  · rw [allowedFrom_of_room hq (othersAfter_room hcrowded hroom),
      if_neg fun hbetween => hcrowded hbetween.1]

/-- What is counted once at most, and once if it is counted at all. -/
theorem counted_once_iff {p r s : Prop} [Decidable p] [Decidable r] [Decidable s] (hp : p → s)
    (hr : r → s) :
    (if p then 1 else 0) + (if r then 1 else 0) = (if s then 1 else 0) ↔ (s → (p ↔ ¬r)) := by
  by_cases hs : s
  · by_cases h : p
    · by_cases h' : r
      · simp [hs, h, h']
      · simp [hs, h, h']
    · by_cases h' : r
      · simp [hs, h, h']
      · simp [hs, h, h']
  · rw [if_neg hs, if_neg (mt hp hs), if_neg (mt hr hs)]
    exact iff_of_true rfl fun h => absurd h hs

/-- In a map that is no longer crowded, the bucket is evicted once in the one order, and in the
other at the first instant or, if the map was crowded by then, for its own age. -/
theorem evicted_swap_roomy (hq : q.capacity = 0) (hroom : os.length < maxBuckets)
    (h : ¬Crowded os t₂) (h₁ : b.last ≤ t₁) (h₂ : t₁ ≤ t₂) :
    (∀ later, (∀ t ∈ later, t₂ ≤ t) →
        allowedFrom q os b (t₁ :: t₂ :: later) = allowedFrom q os b (t₂ :: t₁ :: later)) ↔
      (Evicted os b t₂ → (Evicted os b t₁ ↔ ¬EvictedBetween os t₁ t₂)) := by
  have hinorder : ∀ later, allowedFrom q os b (t₁ :: t₂ :: later) =
      (if Evicted os b t₁ then 1 else 0) + if EvictedBetween os t₁ t₂ then 1 else 0 := by
    intro later
    rw [allowedFrom_cons hq, allowedFrom_second hq hroom h]
  have hswapped : ∀ later, allowedFrom q os b (t₂ :: t₁ :: later) =
      if Evicted os b t₂ then 1 else 0 := by
    intro later
    rw [allowedFrom_cons hq, allowedFrom_of_room hq (othersAfter_room h hroom), add_zero]
  have hfirst : Evicted os b t₁ → Evicted os b t₂ := fun he => ⟨he.1, he.2.later h₂⟩
  have hsecond : EvictedBetween os t₁ t₂ → Evicted os b t₂ := fun he =>
    ⟨he.1.1, he.2.trans (Nat.sub_le_sub_left h₁ t₂)⟩
  simp only [hinorder, hswapped, counted_once_iff hfirst hsecond]
  exact ⟨fun hlater => hlater [] nofun, fun hcount _ _ => hcount⟩

/-- In a map that is still crowded, the clock of the call that came last decides when the
bucket is evicted next. -/
theorem evicted_swap_crowded (hq : q.capacity = 0) (h : Crowded os t₂) (h₂ : t₁ < t₂) :
    ¬∀ later, (∀ t ∈ later, t₂ ≤ t) →
      allowedFrom q os b (t₁ :: t₂ :: later) = allowedFrom q os b (t₂ :: t₁ :: later) := by
  have hevicted : ∀ a t, Evicted os a t ↔ Idle t a := fun a t => and_iff_right h.1
  have htwo : ∀ s t, Crowded os s → Crowded os t → ∀ later,
      allowedFrom q os b (s :: t :: later) = allowedFrom q os b [s, t] +
        allowedFrom q os (ownAfter q os (ownAfter q os b s) t) later := by
    intro s t hs ht later
    simp only [allowedFrom, othersAfter_of_crowded hs, othersAfter_of_crowded ht]
    omega
  intro hlater
  have hnone := hlater [] nofun
  have hone := hlater [max t₂ (t₁ + idleEviction)] (by simp)
  rw [htwo t₁ t₂ (h.before h₂.le) h, htwo t₂ t₁ h (h.before h₂.le), hnone,
    Nat.add_left_cancel_iff, allowedFrom_cons hq, allowedFrom_cons hq, allowedFrom, allowedFrom,
    if_congr (hevicted _ _) rfl rfl, if_congr (hevicted _ _) rfl rfl] at hone
  have hlate : ∀ a : Bucket, a.last = t₁ → Idle (max t₂ (t₁ + idleEviction)) a := fun a ha =>
    ha ▸ Nat.le_sub_of_add_le' (le_max_right _ _)
  have hearly : ∀ a : Bucket, a.last = t₂ → ¬Idle (max t₂ (t₁ + idleEviction)) a := by
    rintro a rfl hidle
    rcases max_cases a.last (t₁ + idleEviction) with ⟨hmax, -⟩ | ⟨hmax, hgt⟩
    · rw [Idle, hmax, Nat.sub_self] at hidle
      exact absurd hidle (by decide)
    · rw [Idle, hmax] at hidle
      have hback := Nat.add_le_of_le_sub hgt.le hidle
      have hlt := Nat.add_lt_add_left h₂ idleEviction
      rw [add_comm t₁] at hback
      exact absurd hback (not_le.mpr hlt)
  rw [if_neg (hearly _ rfl), if_pos (hlate _ rfl)] at hone
  cases hone

theorem evicted_swap_iff (hq : q.capacity = 0) (hroom : os.length < maxBuckets)
    (h₁ : b.last ≤ t₁) (h₂ : t₁ ≤ t₂) :
    (∀ later, (∀ t ∈ later, t₂ ≤ t) →
        allowedFrom q os b (t₁ :: t₂ :: later) = allowedFrom q os b (t₂ :: t₁ :: later)) ↔
      t₁ = t₂ ∨ EvictedAlike os b t₁ t₂ := by
  rcases h₂.eq_or_lt with rfl | hlt
  · exact iff_of_true (fun _ _ => rfl) (.inl rfl)
  rw [or_iff_right hlt.ne, EvictedAlike]
  by_cases h : Crowded os t₂
  · exact iff_of_false (evicted_swap_crowded hq h hlt) fun halike => halike.1 h
  · rw [and_iff_right h]
    exact evicted_swap_roomy hq hroom h h₁ h₂

end Nothing

/-! ### The limiters there can be -/

/-- What stands in a limiter, in whichever order its calls came: not more buckets than there
may be, each with whole grains, in the multiples that tokens and ticks have in common. -/
structure Whole (q : Quota) (rl : RateLimiter) : Prop where
  quota : rl.quota = q
  bounded : rl.buckets.rows.length ≤ maxBuckets
  grains : 1 ≤ q.capacity.toNat → 0 < q.period → ∀ b ∈ rl.buckets.rows,
    ∃ n : ℕ, b.tokens * q.period = n ∧ Nat.gcd q.capacity.toNat q.period ∣ n

section Reached
variable {q : Quota} {rl : RateLimiter} {c : Check} {b : Bucket}

/-- A call leaves the map, evicts from it, or writes the caller's bucket: what it spares of
the one it finds, or a new one where there is room. -/
theorem checkAt_writes (rl : RateLimiter) (c : Check) :
    (checkAt rl c).1 = rl ∨ (checkAt rl c).1 = { rl with buckets := evict c.now rl.buckets } ∨
      ∃ tokens, (checkAt rl c).1 = written rl c tokens ∧
        ((∃ a ∈ (evict c.now rl.buckets).rows, a.key = c.key ∧
            tokens = sparedTokens (rl.quota.refilled c.now a)) ∨
          tokens = rl.quota.capacityTokens - 1 ∧
            (evict c.now rl.buckets).rows.length < maxBuckets) := by
  rcases Bool.eq_false_or_eq_true c.poisoned with hpoisoned | hpoisoned
  · exact .inl (congrArg Prod.fst (checkAt_poisoned hpoisoned))
  rcases hf : (evict c.now rl.buckets).rows.find? (fun b => b.key = c.key) with _ | a
  · rw [checkAt_new hpoisoned hf]
    split_ifs with hfull
    · exact .inr (.inl rfl)
    · exact .inr (.inr ⟨_, rfl, .inr ⟨rfl, not_le.mp hfull⟩⟩)
  · have ha := List.mem_of_find?_eq_some hf
    have hkey : a.key = c.key := by simpa using List.find?_some hf
    rw [checkAt_held hpoisoned hf]
    split_ifs with hone
    · exact .inr (.inr ⟨_, rfl, .inl ⟨a, ha, hkey, (if_pos hone).symm⟩⟩)
    · exact .inr (.inr ⟨_, rfl, .inl ⟨a, ha, hkey, (if_neg hone).symm⟩⟩)

theorem whole_checkAt (h : Whole q rl) : Whole q (checkAt rl c).1 := by
  obtain ⟨rfl, hbounded, hgrains⟩ := h
  have hevict : (evict c.now rl.buckets).rows.length ≤ maxBuckets :=
    evict_length_le.trans hbounded
  rcases checkAt_writes rl c with h | h | ⟨tokens, h, htokens⟩
  · rw [h]
    exact ⟨rfl, hbounded, hgrains⟩
  · rw [h]
    exact ⟨rfl, hevict, fun hc hp b hb => hgrains hc hp b (evict_subset hb)⟩
  · rw [h]
    refine ⟨rfl, ?_, fun hc hp b hb => ?_⟩
    · rcases htokens with ⟨a, ha, hkey, -⟩ | ⟨-, hroom⟩
      · have hsame : sameKey a ⟨c.key, tokens, c.now⟩ = true := decide_eq_true hkey
        exact (Table.length_upsert_of_clash ha hsame).trans hevict
      · exact Table.length_upsert_le.trans hroom
    · rcases Table.mem_upsert.mp hb with ⟨hb, -⟩ | rfl
      · exact hgrains hc hp b (evict_subset hb)
      · rcases htokens with ⟨a, ha, -, htokens⟩ | ⟨htokens, -⟩
        · obtain ⟨n, hn, hdvd⟩ := hgrains hc hp a (evict_subset ha)
          have hrefilled := @refilled_grains rl.quota a ⟨n, a.last, none⟩ c.now hp hn rfl
          refine ⟨_, ?_, dvd_spared (@dvd_level _ _ ⟨n, a.last, none⟩ c.now hdvd)⟩
          rw [htokens]
          exact spared_grains hp hrefilled
        · refine ⟨(rl.quota.capacity.toNat - 1) * rl.quota.period, ?_,
            (Nat.gcd_dvd_right _ _).mul_left _⟩
          rw [htokens, Quota.capacityTokens, Nat.cast_mul, Nat.cast_sub hc, Nat.cast_one]

theorem whole_after (h : Whole q rl) (cs : List Check) : Whole q (after rl cs) := by
  induction cs generalizing rl with
  | nil => exact h
  | cons c cs ih => exact ih (whole_checkAt h)

theorem whole_new (q : Quota) : Whole q (.new q) :=
  ⟨rfl, Nat.zero_le _, fun _ _ _ hb => absurd hb List.not_mem_nil⟩

end Reached

/-! ### Which calls may overtake each other -/

section Overtaking
variable {q : Quota} {rl : RateLimiter} {os : List Bucket} {b : Bucket} {v : Vessel}
variable {t t₁ t₂ : Nanos}

theorem seen_of_mem (hb : b ∈ rl.buckets.rows) (hbounded : rl.buckets.rows.length ≤ maxBuckets) :
    Seen rl (others rl b) b where
  own := Table.find?_eq_some_of_mem (fun a a' => by simp only [sameKey, eq_comm]) hb
    (decide_eq_true rfl) fun a ha => ha
  others := rfl
  room := by
    have hown : rl.buckets.rows.filter (fun a => sameKey a b) ≠ [] := by
      intro hnone
      have hsame : sameKey b b = true := decide_eq_true rfl
      exact List.filter_eq_nil_iff.mp hnone b hb hsame
    have hpos := List.length_pos_iff.mpr hown
    rw [List.length_eq_length_filter_add fun a => sameKey a b] at hbounded
    unfold others
    omega

theorem capacity_eq_one : q.capacity = 1 ↔ q.capacity.toNat = 1 := UInt32.toNat_inj.symm

theorem regained_iff (hc : 1 ≤ q.capacity.toNat) (hp : 0 < q.period) (h : Counted q os b v) :
    Regained q os b t₁ t₂ ↔
      ¬(v.rivalAfter idleEviction t₂).isSome ∧ q.capacity.toNat ≠ 1 ∧
        q.period ≤ v.found q.capacity.toNat q.period idleEviction t₁ ∧
        (t₂ - t₁) * q.capacity.toNat = q.period := by
  have hperiod : (0 : ℚ) < q.period := Nat.cast_pos.mpr hp
  have hcrowded : Crowded os t₂ ↔ (v.rivalAfter idleEviction t₂).isSome := rival_crowded h.rival
  have hinflow : inflow q (t₂ - t₁) = 1 ↔ (t₂ - t₁) * q.capacity.toNat = q.period := by
    rw [← mul_left_inj' hperiod.ne', inflow_grains hp, one_mul, Nat.cast_inj]
  rw [Regained, hcrowded, (ownAfter_counted hc hp h).2, hinflow, Ne, capacity_eq_one]

theorem brimming_iff (hp : 0 < q.period) (h : Counted q os b v) :
    Brimming q os b t₁ t₂ ↔
      v.found q.capacity.toNat q.period idleEviction t₁ = q.capacity.toNat * q.period ∧
        (t₂ - t₁) * q.capacity.toNat ≤ q.period ∧
        (q.capacity.toNat = 1 → (t₂ - t₁) * q.capacity.toNat < q.period) ∧
        ((v.rivalAfter idleEviction t₂).isSome →
          min q.capacity.toNat 2 * q.period ≤ idleEviction * q.capacity.toNat) := by
  have hperiod : (0 : ℚ) < q.period := Nat.cast_pos.mpr hp
  have hcrowded : Crowded os t₂ ↔ (v.rivalAfter idleEviction t₂).isSome := rival_crowded h.rival
  have hfull : q.refilled t₁ b = q.capacityTokens ↔
      v.level q.capacity.toNat q.period t₁ = q.capacity.toNat * q.period := by
    rw [← mul_left_inj' hperiod.ne', refilled_grains hp h.tokens h.last, Quota.capacityTokens,
      ← Nat.cast_mul, Nat.cast_inj]
  have hfound : (Evicted os b t₁ ∨ q.refilled t₁ b = q.capacityTokens) ↔
      v.found q.capacity.toNat q.period idleEviction t₁ = q.capacity.toNat * q.period := by
    rw [h.found, hfull]
    split_ifs with he
    · exact iff_of_true (.inl he) rfl
    · exact or_iff_right he
  have hle : inflow q (t₂ - t₁) ≤ 1 ↔ (t₂ - t₁) * q.capacity.toNat ≤ q.period := by
    rw [← mul_le_mul_iff_of_pos_right hperiod, inflow_grains hp, one_mul, Nat.cast_le]
  have hlt : inflow q (t₂ - t₁) < 1 ↔ (t₂ - t₁) * q.capacity.toNat < q.period := by
    rw [← mul_lt_mul_iff_of_pos_right hperiod, inflow_grains hp, one_mul, Nat.cast_lt]
  have hagain : min q.capacityTokens 2 ≤ inflow q idleEviction ↔
      min q.capacity.toNat 2 * q.period ≤ idleEviction * q.capacity.toNat := by
    rw [← mul_le_mul_iff_of_pos_right hperiod, inflow_grains hp, Quota.capacityTokens,
      ← Nat.cast_le (α := ℚ)]
    push_cast
    rfl
  rw [Brimming, hfound, hle, hlt, hcrowded, hagain, capacity_eq_one]

theorem drawn_order_iff (hc : 1 ≤ q.capacity.toNat) (hp : 0 < q.period) (h : Counted q os b v)
    (hdvd : Nat.gcd q.capacity.toNat q.period ∣ v.grains) (h₁ : b.last ≤ t₁) (h₂ : t₁ ≤ t₂) :
    (∀ later, (∀ t ∈ later, t₂ ≤ t) →
        allowedFrom q os b (t₁ :: t₂ :: later) = allowedFrom q os b (t₂ :: t₁ :: later)) ↔
      t₁ = t₂ ∨
        if EvictedBetween os t₁ t₂ then Regained q os b t₁ t₂ else Brimming q os b t₁ t₂ := by
  have hbetween : EvictedBetween os t₁ t₂ ↔
      (v.rivalAfter idleEviction t₁).isSome ∧ idleEviction ≤ t₂ - t₁ :=
    and_congr_left fun _ => rival_crowded h.rival
  simp only [allowedFrom_eq hc hp h]
  rw [if_congr hbetween (propext (regained_iff hc hp h)) (propext (brimming_iff hp h))]
  exact drawn_swap_iff hc hp (by decide) hdvd (h.last ▸ h₁) h₂

theorem allowedFrom_instant (hc : 1 ≤ q.capacity.toNat) (hp : q.period = 0) {ts : List Nanos} :
    allowedFrom q os b ts = ts.length := by
  induction ts generalizing os b with
  | nil => rfl
  | cons t ts ih =>
    have hfull : q.refilled t b = q.capacityTokens := if_pos hp
    have hone : 1 ≤ q.refilled t b := by
      rw [hfull, Quota.capacityTokens]
      exact_mod_cast hc
    rw [allowedFrom, if_pos (.inr hone), ih, List.length_cons, add_comm]

/-- In every limiter there can be, two calls may reach a bucket in either order, unnoticed by
whoever calls later, exactly if they are harmless. -/
theorem lock_order_iff (q : Quota) (cs : List Check)
    (hb : b ∈ (after (.new q) cs).buckets.rows) (h₁ : b.last ≤ t₁) (h₂ : t₁ ≤ t₂) :
    OrderBlind (after (.new q) cs) b.key t₁ t₂ ↔
      Harmless q (others (after (.new q) cs) b) b t₁ t₂ := by
  obtain ⟨hquota, hbounded, hgrains⟩ := whole_after (whole_new q) cs
  have hseen := seen_of_mem hb hbounded
  unfold OrderBlind Harmless
  simp only [allowed_eq hseen, hquota]
  by_cases hzero : q.capacity = 0
  · rw [if_pos hzero]
    exact evicted_swap_iff hzero hseen.room h₁ h₂
  rw [if_neg hzero]
  have hc : 1 ≤ q.capacity.toNat :=
    Nat.one_le_iff_ne_zero.mpr fun h => hzero (UInt32.toNat_inj.mp h)
  rcases Nat.eq_zero_or_pos q.period with hinstant | hp
  · refine iff_of_true (fun later _ => ?_) (.inr (.inl hinstant))
    rw [allowedFrom_instant hc hinstant, allowedFrom_instant hc hinstant]
    rfl
  · obtain ⟨n, hn, hdvd⟩ := hgrains hc hp b hb
    obtain ⟨r, hr⟩ := exists_rival (others (after (.new q) cs) b)
    rw [or_iff_right hp.ne']
    exact @drawn_order_iff q _ b ⟨n, b.last, r⟩ t₁ t₂ hc hp ⟨hn, rfl, hr, hseen.room⟩ hdvd h₁ h₂

end Overtaking

/-! ### One call before -/

def caller : IpAddr := .v4 203 0 113 7

/-- A limiter that was called once, at the very start. -/
def calledOnce (capacity : UInt32) : RateLimiter :=
  after (.new (.perMinute capacity)) [⟨caller, 0, false⟩]

/-- With two a minute the bucket is full at half a minute, and half a token flows in up to
three quarters. -/
theorem lock_order_iff_full : OrderBlind (calledOnce 2) caller (30 * 10 ^ 9) (45 * 10 ^ 9) := by
  have hrows : (calledOnce 2).buckets.rows = [⟨caller, 1, 0⟩] := by decide +kernel
  have hb : ⟨caller, 1, 0⟩ ∈ (calledOnce 2).buckets.rows := by
    rw [hrows]
    exact List.mem_singleton_self _
  have hothers : others (after (.new (.perMinute 2)) [⟨caller, 0, false⟩]) ⟨caller, 1, 0⟩ = [] := by
    decide +kernel
  have hcapacity : (Quota.perMinute 2).capacity ≠ 0 := by decide
  have hbetween : ¬EvictedBetween [] (30 * 10 ^ 9) (45 * 10 ^ 9) := by decide
  have hbrimming : Brimming (.perMinute 2) [] ⟨caller, 1, 0⟩ (30 * 10 ^ 9) (45 * 10 ^ 9) :=
    ⟨.inr (by decide +kernel), by decide +kernel, fun h => absurd h (by decide),
      fun h => absurd h.1 (by decide)⟩
  refine (lock_order_iff (.perMinute 2) [⟨caller, 0, false⟩] hb (Nat.zero_le _) (by decide)).mpr
    (.inr ?_)
  rw [if_neg hcapacity, hothers, if_neg hbetween]
  exact .inr hbrimming

/-- With one a minute the call of the full minute overtakes that of the half, and at a minute
and a half one more is allowed. -/
theorem overtaken_call_mints :
    (∃ b ∈ (calledOnce 1).buckets.rows, b.key = caller ∧ b.last ≤ 30 * 10 ^ 9) ∧
      allowed (calledOnce 1) (callsOf caller [30 * 10 ^ 9, 60 * 10 ^ 9, 90 * 10 ^ 9]) = 1 ∧
      allowed (calledOnce 1) (callsOf caller [60 * 10 ^ 9, 30 * 10 ^ 9, 90 * 10 ^ 9]) = 2 ∧
      ¬OrderBlind (calledOnce 1) caller (30 * 10 ^ 9) (60 * 10 ^ 9) := by
  have hrows : (calledOnce 1).buckets.rows = [⟨caller, 0, 0⟩] := by decide +kernel
  have hone : allowed (calledOnce 1)
      (callsOf caller [30 * 10 ^ 9, 60 * 10 ^ 9, 90 * 10 ^ 9]) = 1 := by decide +kernel
  have htwo : allowed (calledOnce 1)
      (callsOf caller [60 * 10 ^ 9, 30 * 10 ^ 9, 90 * 10 ^ 9]) = 2 := by decide +kernel
  refine ⟨⟨⟨caller, 0, 0⟩, by rw [hrows]; exact List.mem_singleton_self _, rfl, Nat.zero_le _⟩,
    hone, htwo, fun h => ?_⟩
  have hsame := h [90 * 10 ^ 9] (by simp)
  rw [hone, htwo] at hsame
  cases hsame

end AgentPay.LockOrders
