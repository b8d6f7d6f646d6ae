import AgentPay.IpAddresses
import AgentPay.KeyedTable
import AgentPay.TokenBuckets

/-!
# The rate limiter

`RateLimiter` of `ratelimit.rs`: a token bucket for each address, in a map with a cap.
Idle buckets are evicted when the map is full, and a client that finds it full is refused.
Forgetting a bucket gives nothing away as long as a bucket fills up again in the time after
which it counts as idle, so the limiter is a meter whose level is that of the address's
bucket, or the full capacity where there is none.

Tokens and seconds are exact fractions. An instant is a number of nanoseconds. Whether the
lock is poisoned comes with the call.
-/
namespace AgentPay.RateLimits
open IpAddresses (IpAddr)
open KeyedTable
open TokenBuckets

/-! ### The limiter -/

/-- Nanoseconds, of an `Instant` or of a `Duration`. -/
abbrev Nanos := ℕ

/-- `as_secs_f64`, exactly. -/
def asSecs (d : Nanos) : ℚ := d / 10 ^ 9

def maxBuckets : ℕ := 50000

def idleEviction : Nanos := 300 * 10 ^ 9

/-- A quota per period. Tokens are exact fractions here; what the rounding of doubles could add
or take is the subject of `LockOrders` and `GrainBuckets`. -/
structure Quota where
  capacity : UInt32
  period : Nanos
deriving DecidableEq

def Quota.perMinute (capacity : UInt32) : Quota := ⟨capacity, 60 * 10 ^ 9⟩

def Quota.capacityTokens (q : Quota) : ℚ := q.capacity.toNat

/-- The rate of refilling, as an exact fraction. The source computes in doubles. -/
def Quota.refillPerSec (q : Quota) : ℚ := q.capacityTokens / asSecs q.period

/-- A bucket with the address it is held for. -/
structure Bucket where
  key : IpAddr
  tokens : ℚ
  last : Nanos
deriving DecidableEq

def sameKey (a b : Bucket) : Bool := a.key = b.key

inductive Decision where
  | allow
  | refuse (retryAfterSecs : UInt64)
deriving DecidableEq

structure RateLimiter where
  buckets : Table sameKey
  quota : Quota

def RateLimiter.new (quota : Quota) : RateLimiter := ⟨.empty, quota⟩

/-- `needed.ceil().max(1.0) as u64`. A quota of no tokens needs infinitely long. -/
def Quota.retryAfterSecs (q : Quota) (tokens : ℚ) : UInt64 :=
  if q.capacity = 0 ∧ 0 < q.period then UInt64.ofNat (2 ^ 64 - 1)
  else UInt64.ofNat (min (max ((1 - tokens) / q.refillPerSec).ceil.toNat 1) (2 ^ 64 - 1))

/-- When the map is full, buckets untouched for long are forgotten. -/
def evict (now : Nanos) (buckets : Table sameKey) : Table sameKey :=
  if maxBuckets ≤ buckets.rows.length then
    buckets.delete fun b => !decide (now - b.last < idleEviction)
  else buckets

/-- The tokens of a bucket after the time since it was last touched. With a period of zero
the rate is infinite, and `min` takes the capacity even where the product is not a number. -/
def Quota.refilled (q : Quota) (now : Nanos) (b : Bucket) : ℚ :=
  if q.period = 0 then q.capacityTokens
  else min (b.tokens + asSecs (now - b.last) * q.refillPerSec) q.capacityTokens

/-- A call of `check_at`. -/
structure Check where
  key : IpAddr
  now : Nanos
  poisoned : Bool
deriving DecidableEq

/-- `check_at`, in exact fractions where the source has doubles. Whether the lock is poisoned
comes with the call: then nothing is counted and the caller is refused. -/
def checkAt (rl : RateLimiter) (c : Check) : RateLimiter × Decision :=
  if c.poisoned then (rl, .refuse 1)
  else
    let buckets := evict c.now rl.buckets
    match buckets.rows.find? fun b => b.key = c.key with
    | some bucket =>
      let tokens := rl.quota.refilled c.now bucket
      if 1 ≤ tokens then
        ({ rl with buckets := buckets.upsert ⟨c.key, tokens - 1, c.now⟩ }, .allow)
      else
        ({ rl with buckets := buckets.upsert ⟨c.key, tokens, c.now⟩ },
          .refuse (rl.quota.retryAfterSecs tokens))
    | none =>
      if maxBuckets ≤ buckets.rows.length then ({ rl with buckets := buckets }, .refuse 1)
      else
        ({ rl with buckets := buckets.upsert ⟨c.key, rl.quota.capacityTokens - 1, c.now⟩ }, .allow)

/-- The calls of a run with their answers. -/
def answers (rl : RateLimiter) : List Check → List (Check × Decision)
  | [] => []
  | c :: cs => (c, (checkAt rl c).2) :: answers (checkAt rl c).1 cs

def after (rl : RateLimiter) (cs : List Check) : RateLimiter :=
  cs.foldl (fun rl c => (checkAt rl c).1) rl

/-! ### Levels -/

/-- The quotas meant: at least one token, and full again before a bucket counts as idle. -/
structure Quota.Sound (q : Quota) : Prop where
  capacity : 1 ≤ q.capacity.toNat
  period : q.period ≤ idleEviction

/-- What a bucket holds once refilled, at a time in seconds. -/
def Quota.levelOf (q : Quota) (t : ℚ) (b : Bucket) : ℚ :=
  if q.period = 0 then q.capacityTokens
  else min (b.tokens + (t - asSecs b.last) * q.refillPerSec) q.capacityTokens

/-- What an address may spend; an address that is not held has a full bucket. -/
def levelIn (q : Quota) (key : IpAddr) (buckets : Table sameKey) (t : ℚ) : ℚ :=
  match buckets.rows.find? fun b => b.key = key with
  | some b => q.levelOf t b
  | none => q.capacityTokens

/-- A bucket as a limiter holds it at a time: between nothing and the capacity, and touched
before. -/
structure Quota.Holds (q : Quota) (t : ℚ) (b : Bucket) : Prop where
  nonneg : 0 ≤ b.tokens
  le : b.tokens ≤ q.capacityTokens
  touched : asSecs b.last ≤ t

structure Valid (q : Quota) (rl : RateLimiter) (t : ℚ) : Prop where
  quota : rl.quota = q
  bounded : rl.buckets.rows.length ≤ maxBuckets
  holds : ∀ b ∈ rl.buckets.rows, q.Holds t b

section Time
variable {a b : Nanos}

theorem asSecs_le : asSecs a ≤ asSecs b ↔ a ≤ b := by
  unfold asSecs
  rw [div_le_div_iff_of_pos_right (by norm_num), Nat.cast_le]

theorem asSecs_sub (h : a ≤ b) : asSecs (b - a) = asSecs b - asSecs a := by
  unfold asSecs
  rw [Nat.cast_sub h, sub_div]

theorem asSecs_pos (h : 0 < a) : 0 < asSecs a := div_pos (Nat.cast_pos.mpr h) (by norm_num)

end Time

section Levels
variable {q : Quota} {rl : RateLimiter} {t t' : ℚ} {key : IpAddr} {c : Check} {b : Bucket}
variable {now : Nanos} {buckets : Table sameKey}

theorem capacityTokens_nonneg (q : Quota) : 0 ≤ q.capacityTokens := Nat.cast_nonneg _

theorem one_le_capacityTokens (hq : q.Sound) : 1 ≤ q.capacityTokens :=
  Nat.one_le_cast.mpr hq.capacity

theorem refillPerSec_nonneg (q : Quota) : 0 ≤ q.refillPerSec :=
  div_nonneg (capacityTokens_nonneg q) (div_nonneg (Nat.cast_nonneg _) (by norm_num))

/-- A bucket that was touched before is refilled to its level. -/
theorem refilled_eq (h : asSecs b.last ≤ asSecs now) :
    q.refilled now b = q.levelOf (asSecs now) b := by
  rw [Quota.refilled, asSecs_sub (asSecs_le.mp h), Quota.levelOf]

theorem levelOf_le (q : Quota) (t : ℚ) (b : Bucket) : q.levelOf t b ≤ q.capacityTokens := by
  unfold Quota.levelOf
  split_ifs
  · exact le_rfl
  · exact min_le_right _ _

theorem levelOf_nonneg (h : q.Holds t b) : 0 ≤ q.levelOf t b := by
  have hflow := mul_nonneg (sub_nonneg.mpr h.touched) (refillPerSec_nonneg q)
  unfold Quota.levelOf
  split_ifs
  · exact capacityTokens_nonneg q
  · exact le_min (add_nonneg h.nonneg hflow) (capacityTokens_nonneg q)

theorem levelOf_later (h : t ≤ t') :
    q.levelOf t' b ≤ q.levelOf t b + (t' - t) * q.refillPerSec := by
  have hflow : 0 ≤ (t' - t) * q.refillPerSec :=
    mul_nonneg (sub_nonneg.mpr h) (refillPerSec_nonneg q)
  have hsplit : b.tokens + (t' - asSecs b.last) * q.refillPerSec =
      b.tokens + (t - asSecs b.last) * q.refillPerSec + (t' - t) * q.refillPerSec := by ring
  unfold Quota.levelOf
  split_ifs
  · exact le_add_of_nonneg_right hflow
  · rw [hsplit, ← min_add_add_right]
    exact min_le_min le_rfl (le_add_of_nonneg_right hflow)

theorem levelOf_idle (hq : q.Sound) (htokens : 0 ≤ b.tokens)
    (hidle : asSecs idleEviction ≤ t - asSecs b.last) : q.levelOf t b = q.capacityTokens := by
  unfold Quota.levelOf
  split_ifs with hzero
  · rfl
  · have hperiod := asSecs_pos (Nat.pos_of_ne_zero hzero)
    have hlong : asSecs q.period ≤ t - asSecs b.last := (asSecs_le.mpr hq.period).trans hidle
    have hfull : q.capacityTokens ≤ (t - asSecs b.last) * q.refillPerSec := by
      rw [Quota.refillPerSec, mul_div_assoc', le_div_iff₀ hperiod, mul_comm]
      exact mul_le_mul_of_nonneg_right hlong (capacityTokens_nonneg q)
    exact min_eq_right (hfull.trans (le_add_of_nonneg_left htokens))

/-- A bucket just touched holds no more than its tokens. -/
theorem levelOf_touched (hpos : 0 < q.period) (h : asSecs b.last = t) :
    q.levelOf t b ≤ b.tokens := by
  rw [Quota.levelOf, if_neg hpos.ne', h, sub_self, zero_mul, add_zero]
  exact min_le_left _ _

theorem sameKey_eq (a b : Bucket) : sameKey a b = decide (a.key = b.key) := rfl

theorem evict_subset (h : b ∈ (evict now buckets).rows) : b ∈ buckets.rows := by
  unfold evict at h
  split_ifs at h
  · exact (Table.mem_delete.mp h).1
  · exact h

theorem evict_length_le : (evict now buckets).rows.length ≤ buckets.rows.length := by
  unfold evict
  split_ifs
  · exact Table.length_delete_le
  · exact le_rfl

theorem levelIn_evict (hq : q.Sound) (hholds : ∀ b ∈ buckets.rows, q.Holds (asSecs now) b) :
    levelIn q key (evict now buckets) (asSecs now) = levelIn q key buckets (asSecs now) := by
  unfold evict
  split_ifs
  · rw [levelIn, levelIn, Table.find?_delete sameKey_eq]
    rcases hf : buckets.rows.find? (fun b => b.key = key) with _ | b
    · rw [hf, Option.filter_none]
    · have hb := hholds b (List.mem_of_find?_eq_some hf)
      rw [hf, Option.filter_some, Bool.not_not]
      by_cases hfresh : now - b.last < idleEviction
      · rw [if_pos (decide_eq_true hfresh)]
      · have hidle : asSecs idleEviction ≤ asSecs now - asSecs b.last := by
          rw [← asSecs_sub (asSecs_le.mp hb.touched)]
          exact asSecs_le.mpr (not_lt.mp hfresh)
        rw [if_neg (by simpa using hfresh)]
        exact (levelOf_idle hq hb.nonneg hidle).symm
  · rfl

/-- Writing a bucket changes the level of its own address only. -/
theorem levelIn_upsert (b : Bucket) : levelIn q key (buckets.upsert b) t =
    if b.key = key then q.levelOf t b else levelIn q key buckets t := by
  rw [levelIn, Table.find?_upsert sameKey_eq]
  split_ifs
  · rfl
  · rfl

theorem levelIn_le (q : Quota) (buckets : Table sameKey) (t : ℚ) :
    levelIn q key buckets t ≤ q.capacityTokens := by
  unfold levelIn
  split
  · exact levelOf_le q t _
  · exact le_rfl

theorem levelIn_nonneg (h : ∀ b ∈ buckets.rows, q.Holds t b) : 0 ≤ levelIn q key buckets t := by
  unfold levelIn
  split
  · next hf => exact levelOf_nonneg (h _ (List.mem_of_find?_eq_some hf))
  · exact capacityTokens_nonneg q

theorem levelIn_later (h : t ≤ t') :
    levelIn q key buckets t' ≤ levelIn q key buckets t + (t' - t) * q.refillPerSec := by
  unfold levelIn
  split
  · exact levelOf_later h
  · exact le_add_of_nonneg_right (mul_nonneg (sub_nonneg.mpr h) (refillPerSec_nonneg q))

end Levels

/-! ### One call -/

/-- The limiter once the caller's bucket holds so many tokens. -/
def written (rl : RateLimiter) (c : Check) (tokens : ℚ) : RateLimiter :=
  { rl with buckets := (evict c.now rl.buckets).upsert ⟨c.key, tokens, c.now⟩ }

/-- What the caller may spend at the time of the call. -/
def available (rl : RateLimiter) (c : Check) : ℚ :=
  levelIn rl.quota c.key rl.buckets (asSecs c.now)

section Calls
variable {q : Quota} {rl : RateLimiter} {t t' : ℚ} {key : IpAddr} {c : Check} {b : Bucket}
variable {tokens : ℚ}

theorem checkAt_poisoned (h : c.poisoned = true) : checkAt rl c = (rl, .refuse 1) := if_pos h

theorem checkAt_held (h : c.poisoned = false)
    (hf : ((evict c.now rl.buckets).rows.find? fun b => b.key = c.key) = some b) :
    checkAt rl c = if 1 ≤ rl.quota.refilled c.now b then
        (written rl c (rl.quota.refilled c.now b - 1), .allow)
      else (written rl c (rl.quota.refilled c.now b),
        .refuse (rl.quota.retryAfterSecs (rl.quota.refilled c.now b))) := by
  rw [checkAt, h, if_neg Bool.false_ne_true]
  dsimp only
  rw [hf]
  rfl

/-- A new caller gets a bucket where there is room. -/
theorem checkAt_new (h : c.poisoned = false)
    (hf : ((evict c.now rl.buckets).rows.find? fun b => b.key = c.key) = none) :
    checkAt rl c = if maxBuckets ≤ (evict c.now rl.buckets).rows.length then
        ({ rl with buckets := evict c.now rl.buckets }, .refuse 1)
      else (written rl c (rl.quota.capacityTokens - 1), .allow) := by
  rw [checkAt, h, if_neg Bool.false_ne_true]
  dsimp only
  rw [hf]
  rfl

/-- A call is refused and leaves the caller's bucket alone, or is refused and refills it, or
takes a token of what is available. -/
theorem checkAt_cases (hq : q.Sound) (hv : Valid q rl (asSecs c.now)) :
    (∃ n buckets, checkAt rl c = ({ rl with buckets := buckets }, .refuse n) ∧
      (buckets = rl.buckets ∨ buckets = evict c.now rl.buckets)) ∨
    (∃ n, checkAt rl c = (written rl c (available rl c), .refuse n) ∧
      (written rl c (available rl c)).buckets.rows.length ≤ maxBuckets) ∨
    (checkAt rl c = (written rl c (available rl c - 1), .allow) ∧ 1 ≤ available rl c ∧
      (written rl c (available rl c - 1)).buckets.rows.length ≤ maxBuckets) := by
  obtain rfl := hv.quota
  have havailable : available rl c =
      levelIn rl.quota c.key (evict c.now rl.buckets) (asSecs c.now) :=
    (levelIn_evict hq hv.holds).symm
  have hlength : (evict c.now rl.buckets).rows.length ≤ maxBuckets :=
    evict_length_le.trans hv.bounded
  rcases Bool.eq_false_or_eq_true c.poisoned with hpoisoned | hpoisoned
  · rw [checkAt_poisoned hpoisoned]
    exact .inl ⟨1, rl.buckets, rfl, .inl rfl⟩
  rcases hf : (evict c.now rl.buckets).rows.find? (fun b => b.key = c.key) with _ | b
  · have hfresh : available rl c = rl.quota.capacityTokens := by rw [havailable, levelIn, hf]
    rw [checkAt_new hpoisoned hf]
    split_ifs with hfull
    · exact .inl ⟨1, _, rfl, .inr rfl⟩
    · rw [← hfresh]
      refine .inr (.inr ⟨rfl, ?_, ?_⟩)
      · rw [hfresh]
        exact one_le_capacityTokens hq
      · exact Table.length_upsert_le.trans (not_le.mp hfull)
  · have hb := List.mem_of_find?_eq_some hf
    have hkey : b.key = c.key := by simpa using List.find?_some hf
    have hrefilled : available rl c = rl.quota.refilled c.now b := by
      rw [havailable, levelIn, hf, refilled_eq (hv.holds b (evict_subset hb)).touched]
    have hplace : ∀ tokens, (written rl c tokens).buckets.rows.length ≤ maxBuckets := fun tokens =>
      (Table.length_upsert_of_clash hb (by simpa [sameKey] using hkey)).trans hlength
    rw [checkAt_held hpoisoned hf, ← hrefilled]
    split_ifs with hone
    · exact .inr (.inr ⟨rfl, hone, hplace _⟩)
    · exact .inr (.inl ⟨_, rfl, hplace _⟩)

theorem written_holds (hv : Valid q rl (asSecs c.now)) (h₀ : 0 ≤ tokens)
    (hcap : tokens ≤ q.capacityTokens) :
    ∀ b ∈ (written rl c tokens).buckets.rows, q.Holds (asSecs c.now) b := by
  intro b hb
  rcases Table.mem_upsert.mp hb with ⟨hb, -⟩ | rfl
  · exact hv.holds b (evict_subset hb)
  · exact ⟨h₀, hcap, le_rfl⟩

theorem available_le (hv : Valid q rl (asSecs c.now)) : available rl c ≤ q.capacityTokens :=
  hv.quota ▸ levelIn_le rl.quota rl.buckets (asSecs c.now)

theorem available_nonneg (hv : Valid q rl (asSecs c.now)) : 0 ≤ available rl c := by
  obtain rfl := hv.quota
  exact levelIn_nonneg hv.holds

/-- A call keeps the map within its cap and every bucket within its own. -/
theorem valid_checkAt (hq : q.Sound) (hv : Valid q rl (asSecs c.now)) :
    Valid q (checkAt rl c).1 (asSecs c.now) := by
  rcases checkAt_cases hq hv with ⟨n, buckets, h, hb⟩ | ⟨n, h, hlength⟩ | ⟨h, hone, hlength⟩
  · rw [h]
    rcases hb with rfl | rfl
    · exact hv
    · exact ⟨hv.quota, evict_length_le.trans hv.bounded, fun b hb => hv.holds b (evict_subset hb)⟩
  · rw [h]
    exact ⟨hv.quota, hlength, written_holds hv (available_nonneg hv) (available_le hv)⟩
  · rw [h]
    exact ⟨hv.quota, hlength,
      written_holds hv (by linarith) ((sub_le_self _ zero_le_one).trans (available_le hv))⟩

theorem valid_later (hv : Valid q rl t) (h : t ≤ t') : Valid q rl t' :=
  ⟨hv.quota, hv.bounded, fun b hb =>
    ⟨(hv.holds b hb).nonneg, (hv.holds b hb).le, (hv.holds b hb).touched.trans h⟩⟩

/-- What is left to an address when a call has written the caller's bucket. -/
theorem levelIn_written (hq : q.Sound) (hpos : 0 < q.period) (hv : Valid q rl (asSecs c.now)) :
    levelIn q key (written rl c tokens).buckets (asSecs c.now) ≤
      if c.key = key then tokens else levelIn q key rl.buckets (asSecs c.now) := by
  rw [written, levelIn_upsert]
  split_ifs
  · exact levelOf_touched hpos rfl
  · exact (levelIn_evict hq hv.holds).le

def takenBy (key : IpAddr) (rl : RateLimiter) (c : Check) : ℚ :=
  if c.key = key ∧ (checkAt rl c).2 = .allow then 1 else 0

theorem takenBy_nonneg : 0 ≤ takenBy key rl c := by
  unfold takenBy
  split_ifs
  · exact zero_le_one
  · exact le_rfl

theorem takenBy_refused {n : UInt64} (h : (checkAt rl c).2 = .refuse n) : takenBy key rl c = 0 :=
  if_neg fun htaken => by rw [h] at htaken; cases htaken.2

/-- A call takes a token only from what its own address has. -/
theorem level_checkAt (hq : q.Sound) (hpos : 0 < q.period) (hv : Valid q rl (asSecs c.now)) :
    levelIn q key (checkAt rl c).1.buckets (asSecs c.now) + takenBy key rl c ≤
      levelIn q key rl.buckets (asSecs c.now) := by
  have havailable : c.key = key → available rl c = levelIn q key rl.buckets (asSecs c.now) := by
    rintro rfl
    rw [available, hv.quota]
  rcases checkAt_cases hq hv with ⟨n, buckets, h, hb⟩ | ⟨n, h, -⟩ | ⟨h, -, -⟩
  · rw [takenBy_refused (congrArg Prod.snd h), h, add_zero]
    rcases hb with rfl | rfl
    · exact le_rfl
    · exact (levelIn_evict hq hv.holds).le
  · rw [takenBy_refused (congrArg Prod.snd h), h, add_zero]
    refine (levelIn_written hq hpos hv).trans ?_
    split_ifs with hkey
    · exact (havailable hkey).le
    · exact le_rfl
  · have hwritten := @levelIn_written q rl key c (available rl c - 1) hq hpos hv
    rw [takenBy, h]
    dsimp only
    by_cases hkey : c.key = key
    · rw [if_pos hkey, havailable hkey] at hwritten
      rw [if_pos ⟨hkey, rfl⟩, havailable hkey]
      linarith
    · rw [if_neg hkey] at hwritten
      rw [if_neg fun hboth => hkey hboth.1, add_zero]
      exact hwritten

end Calls

/-! ### Runs -/

/-- An address's account with the limiter. -/
def account (q : Quota) (key : IpAddr) (hq : q.Sound) (hpos : 0 < q.period) :
    Meter RateLimiter Check where
  step rl c := (checkAt rl c).1
  time c := asSecs c.now
  charged rl c := takenBy key rl c
  level rl t := levelIn q key rl.buckets t
  Valid rl t := Valid q rl t
  capacity := q.capacityTokens
  rate := q.refillPerSec
  rate_nonneg := refillPerSec_nonneg q
  charged_nonneg := takenBy_nonneg
  level_nonneg hv := levelIn_nonneg hv.holds
  level_le _ := levelIn_le q _ _
  valid_later := valid_later
  level_later _ h := levelIn_later h
  valid_step := valid_checkAt hq
  level_step := level_checkAt hq hpos

/-- The calls of an address that were allowed in a window. -/
def allowedIn (key : IpAddr) (start length : ℚ) (answered : List (Check × Decision)) :
    List (Check × Decision) :=
  answered.filter fun a => a.1.key = key ∧ a.2 = .allow ∧
    start ≤ asSecs a.1.now ∧ asSecs a.1.now ≤ start + length

/-- No call comes before an earlier one. -/
def Ordered (cs : List Check) : Prop := cs.Pairwise fun c c' => c.now ≤ c'.now

section Runs
variable {q : Quota} {rl : RateLimiter} {key : IpAddr} {cs : List Check}
variable {start length : ℚ}

theorem valid_new (q : Quota) : Valid q (.new q) 0 :=
  ⟨rfl, Nat.zero_le _, fun _ hb => absurd hb List.not_mem_nil⟩

theorem valid_after {t : ℚ} (hq : q.Sound) (hv : Valid q rl t)
    (hfrom : ∀ c ∈ cs, t ≤ asSecs c.now) (hcs : Ordered cs) : ∃ t', Valid q (after rl cs) t' := by
  induction cs generalizing rl t with
  | nil => exact ⟨t, hv⟩
  | cons c cs ih =>
    obtain ⟨hlater, hcs⟩ := List.pairwise_cons.mp hcs
    exact ih (valid_checkAt hq (valid_later hv (hfrom c List.mem_cons_self)))
      (fun c' hc' => asSecs_le.mpr (hlater c' hc')) hcs

/-- The account is charged for the calls that were allowed. -/
theorem chargedIn_account (hq : q.Sound) (hpos : 0 < q.period) :
    (account q key hq hpos).chargedIn start (start + length) rl cs =
      (allowedIn key start length (answers rl cs)).length := by
  induction cs generalizing rl with
  | nil => rfl
  | cons c cs ih =>
    have hcharge : (if (account q key hq hpos).Within start (start + length) c then
        takenBy key rl c else 0) =
        if c.key = key ∧ (checkAt rl c).2 = .allow ∧
          start ≤ asSecs c.now ∧ asSecs c.now ≤ start + length then 1 else 0 := by
      rw [takenBy, ← ite_and]
      refine if_congr ?_ rfl rfl
      rw [and_comm, and_assoc]
      rfl
    rw [Meter.chargedIn, answers, allowedIn, List.filter_cons]
    refine (congrArg₂ (· + ·) hcharge ih).trans ?_
    by_cases hin : c.key = key ∧ (checkAt rl c).2 = .allow ∧
        start ≤ asSecs c.now ∧ asSecs c.now ≤ start + length
    · rw [if_pos hin, if_pos (decide_eq_true hin), List.length_cons, Nat.cast_succ, add_comm]
      rfl
    · rw [if_neg hin, if_neg (by simpa using hin), zero_add]
      rfl

theorem ordered_account (hq : q.Sound) (hpos : 0 < q.period) (hcs : Ordered cs) :
    (account q key hq hpos).Ordered 0 cs :=
  ⟨fun _ _ => div_nonneg (Nat.cast_nonneg _) (by norm_num), hcs.imp asSecs_le.mpr⟩

/-- Whoever calls, and in whichever order, every address gets at most the capacity and what
refills in a window; a period of zero would refill infinitely much, so the bound is stated
times the period. The map never grows past its cap, and no bucket leaves its range. -/
theorem rate_enforced (hcapacity : 1 ≤ q.capacity.toNat) (hperiod : q.period ≤ idleEviction)
    (hcs : Ordered cs) :
    (∀ (key : IpAddr) (start length : ℚ), 0 ≤ length →
      (allowedIn key start length (answers (.new q) cs)).length * asSecs q.period ≤
        q.capacityTokens * asSecs q.period + length * q.capacityTokens) ∧
    (after (.new q) cs).buckets.rows.length ≤ maxBuckets ∧
    ∀ b ∈ (after (.new q) cs).buckets.rows, 0 ≤ b.tokens ∧ b.tokens ≤ q.capacityTokens := by
  have hq : q.Sound := ⟨hcapacity, hperiod⟩
  obtain ⟨t, hv⟩ := valid_after hq (valid_new q)
    (fun _ _ => div_nonneg (Nat.cast_nonneg _) (by norm_num)) hcs
  refine ⟨fun key start length hlength => ?_, hv.bounded,
    fun b hb => ⟨(hv.holds b hb).nonneg, (hv.holds b hb).le⟩⟩
  rcases Nat.eq_zero_or_pos q.period with hzero | hpos
  · have hinstant : asSecs q.period = 0 := by rw [hzero, asSecs, Nat.cast_zero, zero_div]
    rw [hinstant, mul_zero, mul_zero, zero_add]
    exact mul_nonneg hlength (capacityTokens_nonneg q)
  · have hcharged := @Meter.chargedIn_le _ _ (account q key hq hpos) _ _ start (start + length) _
      (valid_new q) (ordered_account hq hpos hcs) (le_add_of_nonneg_right hlength)
    rw [chargedIn_account, add_sub_cancel_left] at hcharged
    calc ((allowedIn key start length (answers (.new q) cs)).length : ℚ) * asSecs q.period
        ≤ (q.capacityTokens + length * q.refillPerSec) * asSecs q.period :=
          mul_le_mul_of_nonneg_right hcharged (asSecs_pos hpos).le
      _ = q.capacityTokens * asSecs q.period + length * q.capacityTokens := by
          rw [add_mul, mul_assoc, Quota.refillPerSec, div_mul_cancel₀ _ (asSecs_pos hpos).ne']

/-- Four calls at once, and one when a token is back. -/
def burst : List Check :=
  [⟨.v4 203 0 113 7, 0, false⟩, ⟨.v4 203 0 113 7, 0, false⟩, ⟨.v4 203 0 113 7, 0, false⟩,
    ⟨.v4 203 0 113 7, 0, false⟩, ⟨.v4 203 0 113 7, 20 * 10 ^ 9, false⟩]

theorem rate_enforced_burst :
    (answers (.new (.perMinute 3)) burst).map Prod.snd =
      [.allow, .allow, .allow, .refuse 20, .allow] ∧
    (allowedIn (.v4 203 0 113 7) 0 20 (answers (.new (.perMinute 3)) burst)).length *
      asSecs (60 * 10 ^ 9) ≤ 3 * asSecs (60 * 10 ^ 9) + 20 * 3 ∧
    (after (.new (.perMinute 3)) burst).buckets.rows.length ≤ maxBuckets := by
  have hordered : Ordered burst := by unfold Ordered burst; decide
  have h := @rate_enforced (.perMinute 3) burst (by decide) (by decide) hordered
  exact ⟨by decide +kernel, h.1 (.v4 203 0 113 7) 0 20 (by norm_num), h.2.1⟩

end Runs

end AgentPay.RateLimits
