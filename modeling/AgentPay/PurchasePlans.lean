import AgentPay.CatalogueListings
import AgentPay.ControlRequests
import AgentPay.SaturatingIntegers
import Mathlib.Data.List.MinMax

/-!
# What a plan promises

`plan_options` counts how many purchases an agent's policy would admit by asking the
policy again and again, charging each purchase to a running spend. The count has a closed
form: what the call limit leaves and what the budget divided by the price leaves, at most
what was asked for. The saturating operations on the way never saturate.

The session plan and the operator's plan share the function; both only report.
-/
namespace AgentPay.PurchasePlans
open PolicyRules hiding normaliseResource
open ControlPlane (AgentRecord)
open ControlRequests (parseAmount saturatingSub toNat_saturatingSub)
open CatalogueListings
open DecimalStrings (natToString parseU64 parseU64_natToString)

/-! ### Longest runs -/

/-- From the start, `P` holds `k` times in a row and then fails, unless the cap is reached. -/
structure LongestRun (P : ℕ → Prop) (cap k : ℕ) : Prop where
  capped : k ≤ cap
  holds : ∀ j < k, P j
  stops : k < cap → ¬P k

section Runs
variable {P Q : ℕ → Prop} {cap k k' : ℕ}

theorem LongestRun.le_iff (h : LongestRun P cap k) {i : ℕ} :
    i ≤ k ↔ i ≤ cap ∧ ∀ j < i, P j := by
  constructor
  · intro hi
    exact ⟨hi.trans h.capped, fun j hj => h.holds j (by omega)⟩
  · rintro ⟨hcap, hall⟩
    by_contra hlt
    exact h.stops (by omega) (hall k (by omega))

theorem LongestRun.unique (h : LongestRun P cap k) (h' : LongestRun P cap k') : k = k' :=
  le_antisymm (h'.le_iff.mpr (h.le_iff.mp le_rfl)) (h.le_iff.mpr (h'.le_iff.mp le_rfl))

theorem LongestRun.congr (h : LongestRun P cap k) (hPQ : ∀ j, P j ↔ Q j) : LongestRun Q cap k :=
  ⟨h.capped, fun j hj => (hPQ j).mp (h.holds j hj), fun hk hq => h.stops hk ((hPQ k).mpr hq)⟩

/-- A run continues behind its first member. -/
theorem LongestRun.succ (h₀ : P 0) (h : LongestRun (fun j => P (j + 1)) cap k) :
    LongestRun P (cap + 1) (k + 1) := by
  refine ⟨Nat.succ_le_succ h.capped, fun j hj => ?_, fun hk => h.stops (by omega)⟩
  rcases j with _ | j
  · exact h₀
  · exact h.holds j (by omega)

end Runs

/-! ### The walk -/

theorem toNat_succ {n calls : UInt32} (h : n.toNat < calls.toNat) :
    (n + 1).toNat = n.toNat + 1 := by
  have hc := calls.toNat_lt
  rw [UInt32.toNat_add, UInt32.toNat_one, Nat.mod_eq_of_lt (by omega)]

def charge (unit : UInt64) (running : Spend) : Spend :=
  ⟨running.spent.saturatingAdd unit, running.calls.saturatingAdd 1⟩

section Walk
variable (agent : AgentRecord) (policy : AgentPolicy) (resource : Text) (unit : UInt64)

def refuses (running : Spend) : Bool :=
  match evaluate agent.status agent.mode policy resource unit running with
  | .refuse _ => true
  | _ => false

/-- `while n < calls`, one purchase a turn until the policy refuses. -/
def walk (calls n : UInt32) (running : Spend) : UInt32 :=
  if n < calls then
    if refuses agent policy resource unit running then n
    else walk calls (n + 1) (charge unit running)
  else n
termination_by calls.toNat - n.toNat
decreasing_by
  have hlt : n.toNat < calls.toNat := UInt32.lt_iff_toNat_lt.mp ‹_›
  have hnext := toNat_succ hlt
  omega

/-- The policy lets the purchase with number `j` pass, after those before it. -/
def Admits (spend : Spend) (j : ℕ) : Prop :=
  (evaluate agent.status agent.mode policy resource unit ((charge unit)^[j] spend)).Permits

end Walk

section Walks
variable {agent : AgentRecord} {policy : AgentPolicy} {resource : Text} {unit : UInt64}
variable {calls n : UInt32} {spend : Spend} {j : ℕ}

theorem refuses_eq_false : refuses agent policy resource unit spend = false ↔
    (evaluate agent.status agent.mode policy resource unit spend).Permits := by
  unfold refuses PolicyDecision.Permits
  rcases evaluate agent.status agent.mode policy resource unit spend with _ | _ | r
  · simp
  · simp
  · simp

/-- The walk counts the longest run of purchases the policy admits. -/
theorem walk_longest (hn : n.toNat ≤ calls.toNat) :
    ∃ k, (walk agent policy resource unit calls n spend).toNat = n.toNat + k ∧
      LongestRun (Admits agent policy resource unit spend) (calls.toNat - n.toNat) k := by
  induction hleft : calls.toNat - n.toNat generalizing n spend with
  | zero =>
    have hnot : ¬n < calls := by
      rw [UInt32.lt_iff_toNat_lt]
      omega
    refine ⟨0, ?_, le_rfl, by simp, by simp⟩
    rw [walk, if_neg hnot, add_zero]
  | succ left ih =>
    have hlt : n.toNat < calls.toNat := by omega
    have hnext := toNat_succ hlt
    rw [walk, if_pos (UInt32.lt_iff_toNat_lt.mpr hlt)]
    rcases hrefuses : refuses agent policy resource unit spend with _ | _
    · obtain ⟨k, hk, hrun⟩ := @ih (n + 1) (charge unit spend) (by omega) (by omega)
      refine ⟨k + 1, ?_, hrun.succ (refuses_eq_false.mp hrefuses)⟩
      rw [if_neg Bool.false_ne_true, hk, hnext]
      omega
    · refine ⟨0, by rw [if_pos rfl, add_zero], Nat.zero_le _, by simp, fun _ hadmits => ?_⟩
      have hfalse : refuses agent policy resource unit spend = false := refuses_eq_false.mpr hadmits
      rw [hrefuses] at hfalse
      cases hfalse

theorem charge_iterate (unit : UInt64) (spend : Spend) (j : ℕ) :
    ((charge unit)^[j] spend).spent.toNat =
        min (spend.spent.toNat + j * unit.toNat) (2 ^ 64 - 1) ∧
      ((charge unit)^[j] spend).calls.toNat = min (spend.calls.toNat + j) (2 ^ 32 - 1) := by
  induction j with
  | zero =>
    have hs := spend.spent.toNat_lt
    have hc := spend.calls.toNat_lt
    constructor
    · rw [Function.iterate_zero_apply]
      omega
    · rw [Function.iterate_zero_apply]
      omega
  | succ j ih =>
    rw [Function.iterate_succ_apply', charge, UInt64.toNat_saturatingAdd,
      UInt32.toNat_saturatingAdd, ih.1, ih.2, UInt32.toNat_one]
    constructor
    · rw [Nat.succ_mul]
      omega
    · omega

/-- In the middle of a walk only the call limit and the budget can have changed. -/
theorem admits_iff : Admits agent policy resource unit spend j ↔
    agent.status = .active ∧ resourcePermitted policy resource = true ∧
      unit.toNat ≤ policy.maxPerCall.toNat ∧
      (∀ limit, policy.maxCalls = some limit → spend.calls.toNat + j < limit.toNat) ∧
      spend.spent.toNat + (j + 1) * unit.toNat ≤ policy.maxTotal.toNat := by
  obtain ⟨hspent, hcalls⟩ := charge_iterate unit spend j
  have hmax := policy.maxTotal.toNat_lt
  have hnow := spend.spent.toNat_lt
  rw [Admits, evaluate_permits_iff]
  have hbudget : min (spend.spent.toNat + j * unit.toNat) (2 ^ 64 - 1) + unit.toNat ≤
      policy.maxTotal.toNat ↔
        spend.spent.toNat + (j + 1) * unit.toNat ≤ policy.maxTotal.toNat := by
    rw [Nat.succ_mul]
    rcases Nat.eq_zero_or_pos unit.toNat with hz | hpos
    · rw [hz]
      omega
    · omega
  have hlimit : ∀ limit : UInt32, min (spend.calls.toNat + j) (2 ^ 32 - 1) < limit.toNat ↔
      spend.calls.toNat + j < limit.toNat := fun limit => by
    have hl := limit.toNat_lt
    omega
  constructor
  · intro h
    have hc := h.calls
    have ht := h.total
    rw [hcalls] at hc
    rw [hspent, hbudget] at ht
    exact ⟨h.active, h.resource, h.perCall, fun l hl => (hlimit l).mp (hc l hl), ht⟩
  · rintro ⟨ha, hr, hp, hc, ht⟩
    refine ⟨ha, hr, hp, fun l hl => ?_, ?_⟩
    · rw [hcalls, hlimit]
      exact hc l hl
    · rw [hspent, hbudget]
      exact ht

end Walks

/-! ### The plan -/

/-- `PolicyRefusal::as_str`. -/
def asStr : PolicyRefusal → Text
  | .suspended => "ERR_AGENT_SUSPENDED".toList
  | .resourceNotAllowed => "ERR_POLICY_RESOURCE_NOT_ALLOWED".toList
  | .priceCap => "ERR_POLICY_PRICE_CAP".toList
  | .budget => "ERR_POLICY_BUDGET".toList
  | .callLimit => "ERR_POLICY_CALL_LIMIT".toList

/-- One entry of a plan, as it is answered with. -/
structure PlanOption where
  providerId : Text
  providerLabel : Text
  resource : Text
  unitPrice : Text
  affordableCalls : UInt32
  totalCost : Text
  sufficient : Bool
  refusedBy : Option Text
  needsApproval : Bool
deriving DecidableEq

structure Plan where
  options : List PlanOption
  recommended : Option Text
  unavailable : List ProviderError

section Options
variable (agent : AgentRecord) (spend : Spend) (calls : UInt32)

/-- How many calls are affordable, what refuses the first, and whether each needs approval.
Without a policy the request is reported as it is. -/
def afford (resource : Text) (unit : UInt64) : UInt32 × Option Text × Bool :=
  match agent.policy with
  | none => (calls, none, false)
  | some policy =>
    match evaluate agent.status agent.mode policy resource unit spend with
    | .refuse r => (0, some (asStr r), false)
    | .needsApproval => (walk agent policy resource unit calls 0 spend, none, true)
    | .allow => (walk agent policy resource unit calls 0 spend, none, false)

def optionOf (offer : CatalogueEntry) (unit : UInt64) : PlanOption :=
  let (affordable, refusedBy, needsApproval) := afford agent spend calls offer.resource unit
  { providerId := offer.providerId
    providerLabel := offer.providerLabel
    resource := offer.resource
    unitPrice := natToString unit.toNat
    affordableCalls := affordable
    totalCost := natToString (affordable.toUInt64.saturatingMul unit).toNat
    sufficient := calls ≤ affordable
    refusedBy := refusedBy
    needsApproval := needsApproval }

/-- An offer whose price is no number is skipped. -/
def optionsOf (offers : List CatalogueEntry) : List PlanOption :=
  offers.filterMap fun offer => (parseAmount offer.price).map (optionOf agent spend calls offer)

/-- `unit_price.parse::<u64>().unwrap_or(u64::MAX)`. -/
def unitOf (o : PlanOption) : UInt64 := (parseU64 o.unitPrice).getD (UInt64.ofNat (2 ^ 64 - 1))

/-- The first of the cheapest options that afford a call. -/
def recommend (options : List PlanOption) : Option Text :=
  let usable := options.filter fun o : PlanOption => 0 < o.affordableCalls
  (usable.argmin fun o => (unitOf o).toNat).map PlanOption.providerId

def planOptions (providers : Answers) (wanted : Text) : Plan :=
  let listing := aggregate providers
  let options := optionsOf agent spend calls (listing.entries.filter fun e => e.resource = wanted)
  ⟨options, recommend options, listing.unavailable⟩

end Options

/-! ### The closed form -/

/-- What the call limit and the budget leave of `cap` purchases. -/
def affordableCount (policy : AgentPolicy) (unit : UInt64) (spend : Spend) (cap : ℕ) : ℕ :=
  let limited := match policy.maxCalls with
    | none => cap
    | some limit => min cap (limit.toNat - spend.calls.toNat)
  if 0 < unit then min limited ((policy.maxTotal.toNat - spend.spent.toNat) / unit.toNat)
  else limited

section ClosedForm
variable {agent : AgentRecord} {policy : AgentPolicy} {resource : Text} {unit : UInt64}
variable {calls : UInt32} {spend : Spend} {cap k i : ℕ} {offer : CatalogueEntry}

theorem le_affordableCount (hspend : spend.spent.toNat ≤ policy.maxTotal.toNat)
    (hcalls : ∀ limit, policy.maxCalls = some limit → spend.calls.toNat ≤ limit.toNat) :
    i ≤ affordableCount policy unit spend cap ↔
      i ≤ cap ∧ (∀ limit, policy.maxCalls = some limit → spend.calls.toNat + i ≤ limit.toNat) ∧
        spend.spent.toNat + i * unit.toNat ≤ policy.maxTotal.toNat := by
  have hlimited : i ≤ (match policy.maxCalls with
      | none => cap
      | some limit => min cap (limit.toNat - spend.calls.toNat)) ↔
      i ≤ cap ∧ ∀ limit, policy.maxCalls = some limit → spend.calls.toNat + i ≤ limit.toNat := by
    rcases hm : policy.maxCalls with _ | limit
    · simp
    · have hle := hcalls limit hm
      simp only [le_min_iff, Option.some.injEq, forall_eq']
      omega
  rw [affordableCount]
  split_ifs with hunit
  · rw [le_min_iff, hlimited, Nat.le_div_iff_mul_le (UInt64.lt_iff_toNat_lt.mp hunit), and_assoc]
    have hbudget : i * unit.toNat ≤ policy.maxTotal.toNat - spend.spent.toNat ↔
        spend.spent.toNat + i * unit.toNat ≤ policy.maxTotal.toNat := by omega
    rw [hbudget]
  · have hzero : unit.toNat = 0 := by
      rw [UInt64.lt_iff_toNat_lt] at hunit
      exact Nat.eq_zero_of_not_pos hunit
    rw [hlimited, hzero, mul_zero, add_zero, ← and_assoc, and_iff_left hspend]

/-- A longest run that begins has the length of the closed form. -/
theorem longest_closed (h₀ : Admits agent policy resource unit spend 0)
    (h : LongestRun (Admits agent policy resource unit spend) cap k) :
    k = affordableCount policy unit spend cap := by
  obtain ⟨ha, hr, hp, hc, ht⟩ := admits_iff.mp h₀
  refine eq_of_forall_le_iff fun i => ?_
  rw [h.le_iff, le_affordableCount (by omega) fun l hl => (by have := hc l hl; omega)]
  refine and_congr_right fun _ => ⟨fun hall => ?_, fun hrest j hj => ?_⟩
  · rcases i with _ | i
    · exact ⟨fun l hl => (hc l hl).le, by omega⟩
    · obtain ⟨-, -, -, hci, hti⟩ := admits_iff.mp (hall i (Nat.lt_succ_self i))
      exact ⟨fun l hl => by have := hci l hl; omega, hti⟩
  · have hmono : (j + 1) * unit.toNat ≤ i * unit.toNat := Nat.mul_le_mul_right _ hj
    exact admits_iff.mpr ⟨ha, hr, hp, fun l hl => by have := hrest.1 l hl; omega, by omega⟩

/-- The count of an option is the length of the longest run, also where the first is refused. -/
theorem afford_longest (hp : agent.policy = some policy) :
    LongestRun (Admits agent policy resource unit spend) calls.toNat
      (afford agent spend calls resource unit).1.toNat := by
  have hcount : (afford agent spend calls resource unit).1 =
      if refuses agent policy resource unit spend then 0
      else walk agent policy resource unit calls 0 spend := by
    rcases hfirst : evaluate agent.status agent.mode policy resource unit spend with _ | _ | r
    · simp [afford, hp, refuses, hfirst]
    · simp [afford, hp, refuses, hfirst]
    · simp [afford, hp, refuses, hfirst]
  rw [hcount]
  split_ifs with hrefuses
  · refine ⟨Nat.zero_le _, by simp, fun _ hadmits => ?_⟩
    have hfalse : refuses agent policy resource unit spend = false := refuses_eq_false.mpr hadmits
    rw [hrefuses] at hfalse
    cases hfalse
  · have hn : (0 : UInt32).toNat ≤ calls.toNat := Nat.zero_le _
    obtain ⟨k, hk, hrun⟩ := @walk_longest agent policy resource unit calls 0 spend hn
    rw [UInt32.toNat_zero, zero_add] at hk
    rw [hk]
    exact hrun

/-- What the purchases of a run cost stays within the budget. -/
theorem longest_within (h : LongestRun (Admits agent policy resource unit spend) cap k) :
    k * unit.toNat ≤ policy.maxTotal.toNat - spend.spent.toNat := by
  rcases k with _ | k
  · omega
  · obtain ⟨-, -, -, -, ht⟩ := admits_iff.mp (h.holds k (Nat.lt_succ_self k))
    omega

theorem charge_exact (h : Admits agent policy resource unit spend i) :
    ((charge unit)^[i] spend).spent.toNat + unit.toNat < 2 ^ 64 := by
  obtain ⟨-, -, -, -, ht⟩ := admits_iff.mp h
  have hmax := policy.maxTotal.toNat_lt
  rw [Nat.succ_mul] at ht
  rw [(charge_iterate unit spend i).1]
  omega

/-- The count of an option in closed form; its cost fits what remains of the budget, and
neither the running spend nor the product saturates on the way. -/
structure Closed (agent : AgentRecord) (policy : AgentPolicy) (spend : Spend) (calls : UInt32)
    (unit : UInt64) (o : PlanOption) : Prop where
  price : parseU64 o.unitPrice = some unit
  count : o.affordableCalls.toNat =
    if (evaluate agent.status agent.mode policy o.resource unit spend).Permits then
      affordableCount policy unit spend calls.toNat else 0
  within : o.affordableCalls.toNat * unit.toNat ≤ (saturatingSub policy.maxTotal spend.spent).toNat
  running : ∀ j < o.affordableCalls.toNat,
    ((charge unit)^[j] spend).spent.toNat + unit.toNat < 2 ^ 64
  product : o.affordableCalls.toNat * unit.toNat < 2 ^ 64
  total : o.totalCost = natToString (o.affordableCalls.toNat * unit.toNat)

theorem optionOf_closed (hp : agent.policy = some policy) :
    Closed agent policy spend calls unit (optionOf agent spend calls offer unit) := by
  have hrun := @afford_longest agent policy offer.resource unit calls spend hp
  have hwithin := longest_within hrun
  have hmax := policy.maxTotal.toNat_lt
  have hproduct : (afford agent spend calls offer.resource unit).1.toNat * unit.toNat < 2 ^ 64 := by
    omega
  refine ⟨parseU64_natToString unit, ?_, ?_, fun j hj => charge_exact (hrun.holds j hj),
    hproduct, ?_⟩
  · split_ifs with hfirst
    · exact longest_closed hfirst hrun
    · by_contra hne
      exact hfirst (hrun.holds 0 (Nat.pos_of_ne_zero hne))
  · rw [toNat_saturatingSub]
    exact hwithin
  · have hexact : ((afford agent spend calls offer.resource unit).1.toUInt64.saturatingMul
        unit).toNat = (afford agent spend calls offer.resource unit).1.toNat * unit.toNat := by
      rw [UInt64.toNat_saturatingMul, UInt32.toNat_toUInt64]
      omega
    exact congrArg natToString hexact

end ClosedForm

/-! ### The recommendation -/

section Recommendation
variable {options : List PlanOption} {id : Text}

/-- The recommended provider sells at a minimal price among the options that afford a call, and
there is one exactly if there is such an option. -/
structure Recommends (options : List PlanOption) (recommended : Option Text) : Prop where
  cheapest : ∀ id, recommended = some id → ∃ o ∈ options, o.providerId = id ∧
    0 < o.affordableCalls ∧
    ∀ o' ∈ options, 0 < o'.affordableCalls → (unitOf o).toNat ≤ (unitOf o').toNat
  usable : recommended = none ↔ ∀ o ∈ options, o.affordableCalls = 0

theorem recommend_recommends (options : List PlanOption) :
    Recommends options (recommend options) := by
  constructor
  · intro id hid
    obtain ⟨o, ho, rfl⟩ := Option.map_eq_some_iff.mp hid
    obtain ⟨hmem, husable⟩ := List.mem_filter.mp (List.argmin_mem ho)
    refine ⟨o, hmem, rfl, of_decide_eq_true husable, fun o' hmem' husable' => ?_⟩
    have hmem'' : o' ∈ options.filter fun o => 0 < o.affordableCalls :=
      List.mem_filter.mpr ⟨hmem', decide_eq_true husable'⟩
    have hle := @List.le_of_mem_argmin _ _ _ (fun o => (unitOf o).toNat) _ _ _ hmem'' ho
    exact hle
  · rw [recommend, Option.map_eq_none_iff, List.argmin_eq_none, List.filter_eq_nil_iff]
    refine forall₂_congr fun o _ => ?_
    rw [decide_eq_true_eq, UInt32.lt_iff_toNat_lt, ← UInt32.toNat_inj, UInt32.toNat_zero]
    omega

end Recommendation

section Plans
variable {providers : Answers} {agent : AgentRecord} {spend : Spend} {wanted : Text}
variable {calls : UInt32} {o : PlanOption}

/-- Every option comes from an offer with a price. -/
theorem mem_options : o ∈ (planOptions agent spend calls providers wanted).options ↔
    ∃ offer ∈ (aggregate providers).entries, offer.resource = wanted ∧
      ∃ unit, parseAmount offer.price = some unit ∧ o = optionOf agent spend calls offer unit := by
  simp only [planOptions, optionsOf, List.mem_filterMap, List.mem_filter, Option.map_eq_some_iff,
    decide_eq_true_eq, and_assoc]
  refine exists_congr fun offer => and_congr_right fun _ => and_congr_right fun _ => ?_
  exact exists_congr fun unit => and_congr_right fun _ => eq_comm

/-- The walk of a plan counts what the closed form says, however large the amounts, and the
recommended provider is a cheapest one that is of use. Without one that is of use, none is
recommended. -/
theorem plan_closed_form (providers : Answers) (agent : AgentRecord) (spend : Spend) (wanted : Text)
    (calls : UInt32) :
    (∀ policy, agent.policy = some policy →
      ∀ o ∈ (planOptions agent spend calls providers wanted).options,
        ∃ unit, Closed agent policy spend calls unit o) ∧
    Recommends (planOptions agent spend calls providers wanted).options
      (planOptions agent spend calls providers wanted).recommended := by
  refine ⟨fun policy hp o ho => ?_, recommend_recommends _⟩
  obtain ⟨offer, -, -, unit, -, rfl⟩ := mem_options.mp ho
  exact ⟨unit, optionOf_closed hp⟩

end Plans

/-! ### A plan -/

def threeCalls : AgentPolicy := ⟨100, 50, none, none, some 3⟩

def planner : AgentRecord := ⟨['g'], default, .autonomous, .active, some threeCalls, none⟩

def weather : Catalogue where
  provider := ['P']
  resources := [(['/', 'w'], ⟨['3', '0'], []⟩)]
  distinct := by simp

/-- Asked for five calls of thirty, with one call and ten spent. -/
theorem plan_closed_form_weather :
    (planOptions planner ⟨10, 1⟩ 5 [(seller, .ok weather)] ['/', 'w']).options.length = 1 ∧
      affordableCount threeCalls 30 ⟨10, 1⟩ 5 = 2 ∧
      (∀ o ∈ (planOptions planner ⟨10, 1⟩ 5 [(seller, .ok weather)] ['/', 'w']).options,
        ∃ unit, Closed planner threeCalls ⟨10, 1⟩ 5 unit o) ∧
      Recommends (planOptions planner ⟨10, 1⟩ 5 [(seller, .ok weather)] ['/', 'w']).options
        (planOptions planner ⟨10, 1⟩ 5 [(seller, .ok weather)] ['/', 'w']).recommended :=
  have h := plan_closed_form [(seller, .ok weather)] planner ⟨10, 1⟩ ['/', 'w'] 5
  ⟨rfl, by decide, h.1 threeCalls rfl, h.2⟩

end AgentPay.PurchasePlans
