import AgentPay.PurchasePlans

/-!
# The planner and the gate

`enforce_agent_policy` asks the same `evaluate` as the planner, but also looks at the
agent's status and at `require_agent_policy` when there is no policy. There the planner
reports the request as it is. The two agree, purchase by purchase, on every agent with a
policy, and without one exactly on those the gate lets pass.

A database is configured; metering is left out. A purchase that waits for a human is not
refused.
-/
namespace AgentPay.PlannerAgreement
open SolanaRuntime GatewayClaims SessionStore ControlPlane PaidRequests LoneRequests
open PolicyRules hiding normaliseResource
open CatalogueListings (Answers seller)
open DecimalStrings (parseU64 parseU64_natToString)
open PurchasePlans Fallible
open AffordablePurchases (answered attempt_answered)

/-- On whose account a purchase is metered. -/
structure AgentIdentity where
  agentId : Option Text
  workspaceId : Option Text
deriving DecidableEq

section Gate
variable (required : Bool) (control : Tables) (agent : Pubkey) (spend : Except DbError Spend)
variable (resource : Text) (price : UInt64) (approvalId : Text)

/-- Spends a granted approval, or sees to it that one is asked for. -/
def askHuman (record : AgentRecord) : Tables × Except ReasonCode AgentIdentity :=
  match consumeApproval control record.agentId resource price with
  | .error _ => (control, .error .controlPlaneUnavailable)
  | .ok (control, true) => (control, .ok ⟨some record.agentId, record.workspaceId⟩)
  | .ok (control, false) =>
    match hasPendingApproval control record.agentId resource price with
    | .ok false =>
      match createApproval control record.agentId resource price approvalId with
      | .ok control => (control, .error .approvalRequired)
      | .error _ => (control, .error .approvalRequired)
    | _ => (control, .error .approvalRequired)

/-- `enforce_agent_policy`, with what it reads of the spend. -/
def enforceAgentPolicy : Tables × Except ReasonCode AgentIdentity :=
  match getAgentByPubkey control agent with
  | .error _ => (control, .error .controlPlaneUnavailable)
  | .ok none =>
    if required then (control, .error .agentPolicyRequired) else (control, .ok ⟨none, none⟩)
  | .ok (some record) =>
    if record.status ≠ .active then (control, .error .agentSuspended) else
      match record.policy with
      | none =>
        if required then (control, .error .agentPolicyRequired)
        else (control, .ok ⟨some record.agentId, record.workspaceId⟩)
      | some policy =>
        match spend with
        | .error _ => (control, .error .controlPlaneUnavailable)
        | .ok spend =>
          match evaluate record.status record.mode policy resource price spend with
          | .allow => (control, .ok ⟨some record.agentId, record.workspaceId⟩)
          | .refuse r => (control, .error (policyDenial r))
          | .needsApproval => askHuman control resource price approvalId record

end Gate

/-- The purchase passes, at once or once a human agreed. -/
def Cleared (answer : Except ReasonCode AgentIdentity) : Prop :=
  (∃ identity, answer = .ok identity) ∨ answer = .error .approvalRequired

/-! ### The moves of a purchase -/

section Moves
variable {cfg : Config} {s s' : Shared} {r : Request} {record : SessionRecord} {k n : ℕ}
variable {agent : AgentRecord} {policy : AgentPolicy} {spend : Spend} {resource : Text}
variable {price : UInt64} {stage : Stage} {c : Tables} {code : ReasonCode}
variable {identity : AgentIdentity} {clearance : Clearance}

/-- The moves of a purchase come to what the gate answers and leave the tables it leaves. -/
def Reaches (cfg : Config) (s s' : Shared) (r : Request) (record : SessionRecord) (k : ℕ)
    (gate : Tables × Except ReasonCode AgentIdentity) : Prop :=
  ∃ n ≤ k, (∃ code, gate.2 = .error code ∧
      handle cfg answered s r n = ({ s' with control := gate.1 }, .denied code)) ∨
    ∃ identity clearance, gate.2 = .ok identity ∧
      handle cfg answered s r n = ({ s' with control := gate.1 }, .cleared record clearance)

theorem reaches_denied (hn : n ≤ k)
    (h : handle cfg answered s r n = ({ s' with control := c }, .denied code)) :
    Reaches cfg s s' r record k (c, .error code) := ⟨n, hn, .inl ⟨code, rfl, h⟩⟩

theorem reaches_cleared (hn : n ≤ k)
    (h : handle cfg answered s r n = ({ s' with control := c }, .cleared record clearance)) :
    Reaches cfg s s' r record k (c, .ok identity) :=
  ⟨n, hn, .inr ⟨identity, clearance, rfl, h⟩⟩

theorem handle_succ (h : handle cfg answered s r n = (s', stage)) :
    handle cfg answered s r (n + 1) = advance cfg s' { r with stage := stage } := by
  rw [handle, h, attempt_answered]

theorem askHuman_moves (hk : r.kind = .buy resource price)
    (h : handle cfg answered s r n = (s', .approving record agent policy spend)) :
    Reaches cfg s s' r record (n + 3)
      (askHuman s'.control resource price r.approvalId agent) := by
  have h₁ := handle_succ h
  simp only [advance, hk, spendApproval] at h₁
  unfold askHuman
  rcases hconsume : consumeApproval s'.control agent.agentId resource price with e | ⟨c, _ | _⟩
  · rw [hconsume] at h₁
    exact reaches_denied (by omega) h₁
  · rw [hconsume] at h₁
    have h₂ := handle_succ h₁
    simp only [advance, hk, lookForProposal] at h₂
    rcases hpending : hasPendingApproval c agent.agentId resource price with e | _ | _
    · simp only [hpending] at h₂ ⊢
      exact reaches_denied (by omega) h₂
    · simp only [hpending] at h₂ ⊢
      have h₃ := handle_succ h₂
      simp only [advance, hk, raiseProposal] at h₃
      rcases hcreate : createApproval c agent.agentId resource price r.approvalId with e | c'
      · simp only [hcreate] at h₃ ⊢
        exact reaches_denied (by omega) h₃
      · simp only [hcreate] at h₃ ⊢
        exact reaches_denied (by omega) h₃
    · simp only [hpending] at h₂ ⊢
      exact reaches_denied (by omega) h₂
  · rw [hconsume] at h₁
    exact reaches_cleared (by omega) h₁

/-- The gate says what the moves of an authenticated purchase do. -/
theorem enforce_moves (hk : r.kind = .buy resource price)
    (hr : r.stage = .authenticated record) :
    Reaches cfg s s r record 5 (enforceAgentPolicy cfg.requireAgentPolicy s.control record.agent
      (agentSpend s.db record.agent) resource price r.approvalId) := by
  have h₀ : handle cfg answered s r 0 = (s, .authenticated record) := by rw [handle, hr]
  have h₁ := handle_succ h₀
  simp only [advance, readAgent] at h₁
  unfold enforceAgentPolicy
  rcases hget : getAgentByPubkey s.control record.agent with e | _ | agent
  · simp only [hget] at h₁ ⊢
    exact reaches_denied (by omega) h₁
  · simp only [hget] at h₁ ⊢
    split_ifs at h₁ ⊢ with hrequired
    · exact reaches_denied (by omega) h₁
    · exact reaches_cleared (by omega) h₁
  · simp only [hget] at h₁ ⊢
    by_cases hactive : agent.status = .active
    · simp only [hactive, ne_eq, not_true_eq_false, if_false] at h₁ ⊢
      rcases hpolicy : agent.policy with _ | policy
      · simp only [hpolicy] at h₁ ⊢
        split_ifs at h₁ ⊢ with hrequired
        · exact reaches_denied (by omega) h₁
        · exact reaches_cleared (by omega) h₁
      · simp only [hpolicy] at h₁ ⊢
        have h₂ := handle_succ h₁
        simp only [advance, hk, evaluatePolicy, hactive] at h₂
        rcases hspend : agentSpend s.db record.agent with e | spend
        · simp only [hspend] at h₂ ⊢
          exact reaches_denied (by omega) h₂
        · simp only [hspend] at h₂ ⊢
          rcases hdecision : evaluate .active agent.mode policy resource price spend with _ | _ | e
          · simp only [hdecision] at h₂ ⊢
            exact reaches_cleared (by omega) h₂
          · simp only [hdecision] at h₂ ⊢
            exact askHuman_moves hk h₂
          · simp only [hdecision] at h₂ ⊢
            exact reaches_denied (by omega) h₂
    · simp only [ne_eq, hactive, not_false_eq_true, if_true] at h₁ ⊢
      exact reaches_denied (by omega) h₁

end Moves

/-! ### What is cleared -/

section Clearing
variable {required : Bool} {control : Tables} {key : Pubkey} {record : AgentRecord}
variable {policy : AgentPolicy} {spend : Except DbError Spend} {resource approvalId : Text}
variable {price unit : UInt64} {answer : Except ReasonCode AgentIdentity} {code : ReasonCode}

theorem cleared_ok {identity : AgentIdentity} : Cleared (.ok identity) := .inl ⟨identity, rfl⟩

theorem not_cleared (h : code ≠ .approvalRequired) : ¬Cleared (.error code) := by
  rintro (⟨identity, hok⟩ | herr)
  · cases hok
  · exact h (Except.error.inj herr)

theorem policyDenial_ne (r : PolicyRefusal) : policyDenial r ≠ .approvalRequired := by
  cases r <;> decide

/-- The columns of a policy are signed, so its amounts are below `2^63`. -/
theorem stored_bounds (hget : getAgentByPubkey control key = .ok (some record))
    (hp : record.policy = some policy) :
    policy.maxPerCall.toNat < 2 ^ 63 ∧ policy.maxTotal.toNat < 2 ^ 63 := by
  obtain ⟨row, -, hrow⟩ := getAgentByPubkey_eq_some hget
  unfold agentFromRow at hrow
  split at hrow
  · simp only [pure_eq_ok] at hrow
    rw [← hrow] at hp
    cases hp
  · rename_i p _
    simp only [bind_eq_ok, pure_eq_ok] at hrow
    obtain ⟨stored, hstored, rfl⟩ := hrow
    obtain rfl : stored = policy := Option.some.inj hp
    simp only [policyFromRow, bind_eq_ok, pure_eq_ok, toU64_eq_ok] at hstored
    obtain ⟨total, htotal, perCall, hperCall, threshold, -, rfl⟩ := hstored
    have h₁ := p.maxPerCall.toInt_lt
    have h₂ := p.maxTotal.toInt_lt
    constructor
    · change perCall.toNat < 2 ^ 63
      omega
    · change total.toNat < 2 ^ 63
      omega

/-- Asking a human refuses nothing, for a price that can be stored. -/
theorem askHuman_cleared (hprice : price.toNat < 2 ^ 63) :
    Cleared (askHuman control resource price approvalId record).2 := by
  have hstored : toI64 price "approval price" = .ok price.toInt64 := by rw [toI64, if_pos hprice]
  unfold askHuman
  rcases hconsume : consumeApproval control record.agentId resource price with e | ⟨c, _ | _⟩
  · simp [consumeApproval, hstored] at hconsume
  · simp only
    rcases hasPendingApproval c record.agentId resource price with e | _ | _
    · exact .inr rfl
    · simp only
      rcases createApproval c record.agentId resource price approvalId with e | c'
      · exact .inr rfl
      · exact .inr rfl
    · exact .inr rfl
  · exact cleared_ok

/-- With a policy, the gate clears what the policy permits to an active agent. -/
theorem cleared_policy_iff (hget : getAgentByPubkey control key = .ok (some record))
    (hp : record.policy = some policy) :
    Cleared (enforceAgentPolicy required control key spend resource price approvalId).2 ↔
      ∃ s, spend = .ok s ∧
        (evaluate record.status record.mode policy resource price s).Permits := by
  simp only [enforceAgentPolicy, hget, hp]
  by_cases hactive : record.status = .active
  · simp only [hactive, ne_eq, not_true_eq_false, if_false]
    rcases spend with e | s
    · simp only [reduceCtorEq, false_and, exists_false, iff_false]
      exact not_cleared (by decide)
    · simp only [Except.ok.injEq, exists_eq_left']
      rcases hdecision : evaluate .active record.mode policy resource price s with _ | _ | r
      · exact iff_of_true cleared_ok (by decide)
      · refine iff_of_true (askHuman_cleared ?_) (by decide)
        have hpermits : (evaluate .active record.mode policy resource price s).Permits := by
          rw [hdecision]
          decide
        have hcap := (evaluate_permits_iff.mp hpermits).perCall
        have hbound := (stored_bounds hget hp).1
        omega
      · exact iff_of_false (not_cleared (policyDenial_ne r)) fun h => h r rfl
  · simp only [ne_eq, hactive, not_false_eq_true, if_true]
    refine iff_of_false (not_cleared (by decide)) ?_
    rintro ⟨s, -, hpermits⟩
    exact hactive (evaluate_permits_iff.mp hpermits).active

/-- Without one, it clears an active agent unless policies are required. -/
theorem cleared_free_iff (hget : getAgentByPubkey control key = .ok (some record))
    (hp : record.policy = none) :
    Cleared (enforceAgentPolicy required control key spend resource price approvalId).2 ↔
      record.status = .active ∧ required = false := by
  simp only [enforceAgentPolicy, hget, hp]
  by_cases hactive : record.status = .active
  · simp only [hactive, ne_eq, not_true_eq_false, if_false, true_and]
    rcases required with _ | _
    · exact iff_of_true cleared_ok rfl
    · exact iff_of_false (not_cleared (by decide)) nofun
  · simp only [ne_eq, hactive, not_false_eq_true, if_true, false_and, iff_false]
    exact not_cleared (by decide)

end Clearing

/-! ### Purchase after purchase -/

/-- What `agent_spend` derives once `k` more purchases at the price are accepted. -/
def spendAfter (spend : Spend) (unit : UInt64) (k : ℕ) : Except DbError Spend :=
  if spend.spent.toNat + k * unit.toNat < 2 ^ 63 then
    .ok ⟨UInt64.ofNat (spend.spent.toNat + k * unit.toNat),
      UInt32.ofNat (min (spend.calls.toNat + k) (2 ^ 32 - 1))⟩
  else .error .constraint

section Purchases
variable {db db' : Database} {key : Pubkey} {spend : Spend} {unit : UInt64} {k : ℕ}

/-- Each accepted purchase adds its price to the marks and one entry to the log. -/
theorem agentSpend_after (h : agentSpend db key = .ok spend)
    (hspent : spentTotal db' key = spentTotal db key + k * unit.toNat)
    (hcalls : allowedCount db' key = allowedCount db key + k) :
      agentSpend db' key = spendAfter spend unit k := by
  obtain ⟨htotal, hcount⟩ := agentSpend_eq_ok h
  unfold agentSpend spendAfter
  by_cases hfits : spend.spent.toNat + k * unit.toNat < 2 ^ 63
  · have hrange : -2 ^ 63 ≤ spentTotal db' key ∧ spentTotal db' key < 2 ^ 63 := by
      push_cast [hspent, ← htotal]
      omega
    have hread : toU64 (Int64.ofInt (spentTotal db' key)) "agent_spend" =
        .ok (UInt64.ofNat (spend.spent.toNat + k * unit.toNat)) := by
      rw [toU64_eq_ok, Int64.toInt_ofInt_of_le hrange.1 hrange.2, hspent, ← htotal,
        UInt64.toNat_ofNat_of_lt' (hfits.trans (by decide))]
      push_cast
      rfl
    rw [if_pos hfits, require_bind_of hrange, hread, ok_bind, hcalls]
    have hcap : min (allowedCount db key + k) (2 ^ 32 - 1) =
        min (spend.calls.toNat + k) (2 ^ 32 - 1) := by omega
    rw [hcap]
    rfl
  · have hout : ¬(-2 ^ 63 ≤ spentTotal db' key ∧ spentTotal db' key < 2 ^ 63) := by
      push_cast [hspent, ← htotal]
      omega
    rw [if_neg hfits]
    simp only [require, if_neg hout]
    rfl

theorem spendAfter_eq_ok {s : Spend} :
    spendAfter spend unit k = .ok s ↔
      spend.spent.toNat + k * unit.toNat < 2 ^ 63 ∧ s = (charge unit)^[k] spend := by
  unfold spendAfter
  split_ifs with hfits
  · obtain ⟨hspent, hcalls⟩ := charge_iterate unit spend k
    have hsame : (⟨UInt64.ofNat (spend.spent.toNat + k * unit.toNat),
        UInt32.ofNat (min (spend.calls.toNat + k) (2 ^ 32 - 1))⟩ : Spend) =
          (charge unit)^[k] spend := by
      rcases hiter : (charge unit)^[k] spend with ⟨spent, calls⟩
      rw [hiter] at hspent hcalls
      rw [Spend.mk.injEq, ← UInt64.toNat_inj, ← UInt32.toNat_inj, hspent, hcalls,
        UInt64.toNat_ofNat_of_lt' (hfits.trans (by decide)),
        UInt32.toNat_ofNat_of_lt' ((min_le_right _ _).trans_lt (by decide))]
      omega
    rw [Except.ok.injEq, hsame, and_iff_right hfits]
    exact eq_comm
  · exact iff_of_false nofun fun h => hfits h.1

end Purchases

/-! ### Agreement -/

/-- What the plan says of an option against the gate: whether one purchase is cleared, and how
many are, one after the other. The tables of each purchase hold the same agent. -/
structure Agrees (required : Bool) (key : Pubkey) (record : AgentRecord) (spend : Spend)
    (calls : UInt32) (unit : UInt64) (o : PlanOption) : Prop where
  first : ∀ control approvalId, getAgentByPubkey control key = .ok (some record) →
    (1 ≤ o.affordableCalls.toNat ↔
      Cleared (enforceAgentPolicy required control key (.ok spend) o.resource unit approvalId).2)
  run : ∀ (control : ℕ → Tables) (approvalId : ℕ → Text),
    (∀ k, getAgentByPubkey (control k) key = .ok (some record)) →
    LongestRun (fun k => Cleared (enforceAgentPolicy required (control k) key
      (spendAfter spend unit k) o.resource unit (approvalId k)).2) calls.toNat
      o.affordableCalls.toNat

section Agreement
variable {required : Bool} {key : Pubkey} {record : AgentRecord} {spend : Spend} {calls : UInt32}
variable {unit : UInt64} {control : Tables} {approvalId : Text} {policy : AgentPolicy}
variable {resource : Text} {k : ℕ} {offer : CatalogueListings.CatalogueEntry}

/-- With a policy, the gate clears what the walk counts. -/
theorem cleared_iff_admits (hget : getAgentByPubkey control key = .ok (some record))
    (hp : record.policy = some policy) :
    Cleared (enforceAgentPolicy required control key (spendAfter spend unit k) resource unit
      approvalId).2 ↔ Admits record policy resource unit spend k := by
  have hbound := (stored_bounds hget hp).2
  rw [cleared_policy_iff hget hp]
  constructor
  · rintro ⟨s, hs, hpermits⟩
    obtain ⟨-, rfl⟩ := spendAfter_eq_ok.mp hs
    exact hpermits
  · intro hadmits
    obtain ⟨-, -, -, -, ht⟩ := admits_iff.mp hadmits
    rw [Nat.succ_mul] at ht
    exact ⟨_, spendAfter_eq_ok.mpr ⟨by omega, rfl⟩, hadmits⟩

theorem optionOf_agrees (hp : record.policy = some policy) (hcalls : 1 ≤ calls.toNat) :
    Agrees required key record spend calls unit (optionOf record spend calls offer unit) := by
  have hrun := @afford_longest record policy offer.resource unit calls spend hp
  refine ⟨fun control approvalId hget => ?_, fun control approvalId hget => ?_⟩
  · rw [cleared_policy_iff hget hp]
    constructor
    · intro hcount
      exact ⟨spend, rfl, (hrun.le_iff.mp hcount).2 0 one_pos⟩
    · rintro ⟨s, hs, hpermits⟩
      obtain rfl : spend = s := Except.ok.inj hs
      refine hrun.le_iff.mpr ⟨hcalls, fun j hj => ?_⟩
      obtain rfl : j = 0 := by omega
      exact hpermits
  · exact hrun.congr fun k => (cleared_iff_admits (hget k) hp).symm

/-- Without a policy the request is reported as it is. -/
theorem optionOf_free_iff (hget : getAgentByPubkey control key = .ok (some record))
    (hp : record.policy = none) (hcalls : 1 ≤ calls.toNat) :
    Agrees required key record spend calls unit (optionOf record spend calls offer unit) ↔
      record.status = .active ∧ required = false := by
  have hcount : (optionOf record spend calls offer unit).affordableCalls = calls := by
    simp [optionOf, afford, hp]
  constructor
  · intro h
    rw [← hcount] at hcalls
    exact (cleared_free_iff hget hp).mp ((h.first control [] hget).mp hcalls)
  · intro h
    refine ⟨fun control approvalId hget => ?_, fun control approvalId hget => ?_⟩
    · rw [cleared_free_iff hget hp, hcount]
      exact iff_of_true hcalls h
    · rw [hcount]
      exact ⟨le_rfl, fun k _ => (cleared_free_iff (hget k) hp).mpr h, fun hlt => by omega⟩

/-- The planner agrees with the gate exactly on agents with a policy and on those the gate lets
pass without one. The spend starts as the plan read it and grows by these purchases only. -/
theorem planner_agrees_iff (hget : getAgentByPubkey control key = .ok (some record))
    (hcalls : 1 ≤ calls.toNat) (required : Bool) (spend : Spend) (providers : Answers)
    (wanted : Text) {o : PlanOption}
    (ho : o ∈ (planOptions record spend calls providers wanted).options)
    (hprice : parseU64 o.unitPrice = some unit) :
    Agrees required key record spend calls unit o ↔
      record.policy ≠ none ∨ record.status = .active ∧ required = false := by
  obtain ⟨offer, -, -, unit', -, rfl⟩ := mem_options.mp ho
  obtain rfl : unit' = unit := Option.some.inj ((parseU64_natToString unit').symm.trans hprice)
  rcases hp : record.policy with _ | policy
  · rw [optionOf_free_iff hget hp hcalls]
    simp
  · exact iff_of_true (optionOf_agrees hp hcalls) (.inl nofun)

end Agreement

/-! ### An agent that is suspended without a policy -/

def revoked : AgentRow := ⟨['g'], default, .autonomous, .suspended, none, none⟩

def revokedRecord : AgentRecord := ⟨['g'], default, .autonomous, .suspended, none, none⟩

theorem revoked_found : getAgentByPubkey ⟨[revoked], []⟩ default = .ok (some revokedRecord) := rfl

theorem planner_agrees_iff_revoked :
    Agrees false default revokedRecord ⟨0, 0⟩ 1 30
        (optionOf revokedRecord ⟨0, 0⟩ 1 ⟨['p'], ['P'], ['/', 'w'], ['3', '0'], []⟩ 30) ↔
      revokedRecord.policy ≠ none ∨ revokedRecord.status = .active ∧ false = false :=
  planner_agrees_iff revoked_found (by decide) false ⟨0, 0⟩ [(seller, .ok weather)] ['/', 'w']
    (List.mem_singleton_self _) (by decide)

/-- The plan reports a call the gate refuses. -/
theorem revoked_planned :
    ∃ o ∈ (planOptions revokedRecord ⟨0, 0⟩ 1 [(seller, .ok weather)] ['/', 'w']).options,
      parseU64 o.unitPrice = some 30 ∧ o.affordableCalls = 1 ∧
        (enforceAgentPolicy false ⟨[revoked], []⟩ default (.ok ⟨0, 0⟩) o.resource 30 []).2 =
          .error .agentSuspended ∧
        ¬Agrees false default revokedRecord ⟨0, 0⟩ 1 30 o := by
  refine ⟨_, List.mem_singleton_self _, by decide, rfl, rfl, fun h => ?_⟩
  exact not_cleared (by decide) ((h.first _ [] revoked_found).mp (by decide))

end AgentPay.PlannerAgreement
