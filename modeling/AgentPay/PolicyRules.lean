import Mathlib.Data.UInt
import AgentPay.CheckedIntegers

/-!
# The permission envelope of an agent

`policy.rs`: the order of the checks in `evaluate` is the specification. Resource
names are lists of characters; `trim` follows Unicode's `White_Space`, as the
source's does. The amounts are `u64`, the call counts `u32`.
-/
namespace AgentPay.PolicyRules

abbrev Text := List Char

inductive AgentMode where
  | human
  | autonomous
deriving DecidableEq, Repr

inductive AgentStatus where
  | active
  | suspended
deriving DecidableEq, Repr

structure AgentPolicy where
  maxTotal : UInt64
  maxPerCall : UInt64
  approvalThreshold : Option UInt64
  allowedResources : Option (List Text)
  maxCalls : Option UInt32
deriving DecidableEq

structure Spend where
  spent : UInt64
  calls : UInt32
deriving DecidableEq

inductive PolicyRefusal where
  | suspended
  | resourceNotAllowed
  | priceCap
  | budget
  | callLimit
deriving DecidableEq, Repr

inductive PolicyDecision where
  | allow
  | needsApproval
  | refuse (r : PolicyRefusal)
deriving DecidableEq, Repr

def isWhitespace (c : Char) : Bool :=
  let n := c.toNat
  (9 ≤ n && n ≤ 13) || n == 32 || n == 133 || n == 160 || n == 5760 ||
    (8192 ≤ n && n ≤ 8202) || n == 8232 || n == 8233 || n == 8239 || n == 8287 || n == 12288

def trimStart (p : Char → Bool) (s : Text) : Text := s.dropWhile p

def trimEnd (p : Char → Bool) (s : Text) : Text := (s.reverse.dropWhile p).reverse

/-- Leading slashes, a query string and trailing slashes do not matter. -/
def normaliseResource (raw : Text) : Text :=
  let trimmed := trimStart (· == '/') (trimEnd isWhitespace (trimStart isWhitespace raw))
  let withoutQuery := trimmed.takeWhile (· != '?')
  '/' :: trimEnd (· == '/') withoutQuery

/-- An absent or empty allowlist permits every resource. -/
def resourcePermitted (policy : AgentPolicy) (resource : Text) : Bool :=
  match policy.allowedResources with
  | none => true
  | some allowed => allowed.isEmpty ||
      allowed.any fun a => normaliseResource a == normaliseResource resource

def callsRemain (policy : AgentPolicy) (calls : UInt32) : Bool :=
  match policy.maxCalls with
  | none => true
  | some limit => calls < limit

def withinBudget (policy : AgentPolicy) (spent price : UInt64) : Bool :=
  match spent.checkedAdd price with
  | some projected => projected ≤ policy.maxTotal
  | none => false

def asksHuman (mode : AgentMode) (policy : AgentPolicy) (price : UInt64) : Bool :=
  match mode with
  | .human => true
  | .autonomous =>
    match policy.approvalThreshold with
    | some t => t ≤ price
    | none => false

def evaluate (status : AgentStatus) (mode : AgentMode) (policy : AgentPolicy) (resource : Text)
    (price : UInt64) (soFar : Spend) : PolicyDecision :=
  if status ≠ .active then .refuse .suspended
  else if resourcePermitted policy resource = false then .refuse .resourceNotAllowed
  else if policy.maxPerCall < price then .refuse .priceCap
  else if callsRemain policy soFar.calls = false then .refuse .callLimit
  else if withinBudget policy soFar.spent price = false then .refuse .budget
  else if asksHuman mode policy price then .needsApproval
  else .allow

/-- The decision lets the purchase go on, at once or once a human agreed. -/
def PolicyDecision.Permits (d : PolicyDecision) : Prop := ∀ r, d ≠ .refuse r

instance : DecidablePred PolicyDecision.Permits
  | .allow => isTrue fun _ => nofun
  | .needsApproval => isTrue fun _ => nofun
  | .refuse r => isFalse fun h => h r rfl

section Permits
variable {status : AgentStatus} {mode : AgentMode} {policy : AgentPolicy} {resource : Text}
variable {price : UInt64} {soFar : Spend}

/-- What a decision that is no refusal established. -/
structure Permitted (status : AgentStatus) (policy : AgentPolicy) (resource : Text)
    (price : UInt64) (soFar : Spend) : Prop where
  active : status = .active
  resource : resourcePermitted policy resource = true
  perCall : price.toNat ≤ policy.maxPerCall.toNat
  calls : ∀ limit, policy.maxCalls = some limit → soFar.calls.toNat < limit.toNat
  total : soFar.spent.toNat + price.toNat ≤ policy.maxTotal.toNat

theorem callsRemain_iff {calls : UInt32} : callsRemain policy calls = true ↔
    ∀ limit, policy.maxCalls = some limit → calls.toNat < limit.toNat := by
  unfold callsRemain
  rcases policy.maxCalls with _ | limit
  · simp
  · simp [UInt32.lt_iff_toNat_lt]

theorem withinBudget_iff {spent : UInt64} : withinBudget policy spent price = true ↔
    spent.toNat + price.toNat ≤ policy.maxTotal.toNat := by
  unfold withinBudget
  have hm := policy.maxTotal.toNat_lt
  rcases h : spent.checkedAdd price with _ | projected
  · rw [UInt64.checkedAdd_eq_none] at h
    simp only [Bool.false_eq_true, false_iff]
    omega
  · rw [UInt64.checkedAdd_eq_some] at h
    simp only [decide_eq_true_eq, UInt64.le_iff_toNat_le, h]

theorem evaluate_permits_iff :
    (evaluate status mode policy resource price soFar).Permits ↔
      Permitted status policy resource price soFar := by
  unfold evaluate PolicyDecision.Permits
  split_ifs with h₁ h₂ h₃ h₄ h₅ h₆
  · exact iff_of_false (fun h => h _ rfl) (fun h => h₁ h.active)
  · refine iff_of_false (fun h => h _ rfl) (fun h => ?_)
    rw [h.resource] at h₂
    cases h₂
  · refine iff_of_false (fun h => h _ rfl) (fun h => ?_)
    rw [UInt64.lt_iff_toNat_lt] at h₃
    have hp := h.perCall
    omega
  · refine iff_of_false (fun h => h _ rfl) (fun h => ?_)
    rw [callsRemain_iff.mpr h.calls] at h₄
    cases h₄
  · refine iff_of_false (fun h => h _ rfl) (fun h => ?_)
    rw [withinBudget_iff.mpr h.total] at h₅
    cases h₅
  all_goals
    refine iff_of_true (fun r => by simp) ?_
    rw [not_not] at h₁
    rw [Bool.not_eq_false] at h₂ h₄ h₅
    rw [UInt64.lt_iff_toNat_lt] at h₃
    exact ⟨h₁, h₂, by omega, callsRemain_iff.mp h₄, withinBudget_iff.mp h₅⟩

end Permits

end AgentPay.PolicyRules
