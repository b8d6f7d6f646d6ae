import AgentPay.ControlPlane
import AgentPay.RequestPool

/-!
# The requests that can advance a session's mark

`buy` and `verify_claim` of `routes.rs` as programs over the shared tables. A
request runs until its next database call, so every move below is one read or
one transaction, and all interleavings of moves are runs. A stage carries the
local variables the handler still holds. The catalogue price and the clock are
read before the first database call and arrive with the request, and so does the
random id of a proposal; decoding of the claim and metering are left out, the
latter because nothing reads it back.

A move may also be lost to a database error, a failed forward, the deadline of the
router or a crash. The outside world may change the control plane at will, open
sessions, and set the settled and verified flags.
-/
namespace AgentPay.PaidRequests
open SolanaRuntime EscrowState GatewayClaims SessionStore PolicyRules ControlPlane Fallible Runs

/-- What the handlers are given: whether a policy is required, SHA-256, and the check of
signatures, which is another package's. One scheme for the gateway and the chain is in
`PayoutAuthority`. -/
structure Config where
  requireAgentPolicy : Bool
  sha256 : List UInt8 → Hash
  verifyClaimSignature : Pubkey → Claim → Signature → Bool

def policyDenial : PolicyRefusal → ReasonCode
  | .suspended => .agentSuspended
  | .resourceNotAllowed => .policyResourceNotAllowed
  | .priceCap => .policyPriceCap
  | .budget => .policyBudget
  | .callLimit => .policyCallLimit

def claimDenial : ClaimRejection → ReasonCode
  | .sessionExpired => .sessionExpired
  | .sessionSettled => .sessionSettled
  | .notMonotonic => .claimNotMonotonic
  | .nonceNotMonotonic => .nonceNotMonotonic
  | .exceedsDeposit => .claimExceedsDeposit

inductive Kind where
  | buy (resource : Text) (price : UInt64)
  | verify
deriving DecidableEq

/-- On what grounds a request may go on to `admit_claim`. -/
inductive Clearance where
  | unregistered
  | unrestricted (agent : AgentRecord)
  | evaluated (agent : AgentRecord) (policy : AgentPolicy) (spend : Spend)
  | unchecked
deriving DecidableEq

inductive Stage where
  | received
  | authenticated (record : SessionRecord)
  | identified (record : SessionRecord) (agent : AgentRecord) (policy : AgentPolicy)
  | approving (record : SessionRecord) (agent : AgentRecord) (policy : AgentPolicy) (spend : Spend)
  | unapproved (agent : AgentRecord)
  | proposing (agent : AgentRecord)
  | cleared (record : SessionRecord) (clearance : Clearance)
  | admitted (record : SessionRecord) (accepted : ClaimAccepted)
  | served (record : SessionRecord) (accepted : ClaimAccepted)
  | unserved (record : SessionRecord) (accepted : ClaimAccepted)
  | denied (code : ReasonCode)
deriving DecidableEq

/-- The session record a request still works with. -/
def Stage.record? : Stage → Option SessionRecord
  | .authenticated record => some record
  | .identified record _ _ => some record
  | .approving record _ _ _ => some record
  | .cleared record _ => some record
  | _ => none

/-- The record and the acceptance of a request whose claim was admitted. -/
def Stage.accepted? : Stage → Option (SessionRecord × ClaimAccepted)
  | .admitted record accepted => some (record, accepted)
  | .served record accepted => some (record, accepted)
  | .unserved record accepted => some (record, accepted)
  | _ => none

/-- A request with the id it gives to a proposal, should it raise one. It arrives decoded, with
the price looked up and the clock read; the numbers of its answer are left out. -/
structure Request where
  kind : Kind
  claim : Claim
  signature : Signature
  now : Int64
  approvalId : Text
  stage : Stage
deriving DecidableEq

/-- The tables that requests share. What else `AppState` holds is in the configurations or, as
the registry and the limiters, in modules of their own. -/
structure Shared where
  db : Database
  control : Tables

section Handlers
variable (cfg : Config) (s : Shared)

/-- The claim must pay for this resource, exactly. -/
def priceCheck (record : SessionRecord) (claim : Claim) (price : UInt64) : Stage :=
  match record.cumulativeAccepted.checkedAdd price with
  | none => .denied .claimExceedsDeposit
  | some expected =>
    if claim.cumulativeAmount ≠ expected then .denied .priceMismatch else .authenticated record

/-- `store.get`, the signature, and for a purchase the price. -/
def readSession (r : Request) : Stage :=
  match getRecord s.db r.claim.session with
  | .error e => .denied (storeDenial e)
  | .ok record =>
    if cfg.verifyClaimSignature record.agent r.claim r.signature then
      match r.kind with
      | .buy _ price => priceCheck record r.claim price
      | .verify => .cleared record .unchecked
    else .denied .invalidSignature

/-- The agent lookup of `enforce_agent_policy` and what follows from it. -/
def readAgent (record : SessionRecord) : Stage :=
  match getAgentByPubkey s.control record.agent with
  | .error _ => .denied .controlPlaneUnavailable
  | .ok none =>
    if cfg.requireAgentPolicy then .denied .agentPolicyRequired else .cleared record .unregistered
  | .ok (some agent) =>
    if agent.status ≠ .active then .denied .agentSuspended else
      match agent.policy with
      | some policy => .identified record agent policy
      | none =>
        if cfg.requireAgentPolicy then .denied .agentPolicyRequired
        else .cleared record (.unrestricted agent)

/-- `agent_spend` and `policy::evaluate`. -/
def evaluatePolicy (record : SessionRecord) (agent : AgentRecord) (policy : AgentPolicy)
    (resource : Text) (price : UInt64) : Stage :=
  match agentSpend s.db record.agent with
  | .error _ => .denied .controlPlaneUnavailable
  | .ok spend =>
    match evaluate agent.status agent.mode policy resource price spend with
    | .allow => .cleared record (.evaluated agent policy spend)
    | .refuse refusal => .denied (policyDenial refusal)
    | .needsApproval => .approving record agent policy spend

def spendApproval (record : SessionRecord) (agent : AgentRecord) (policy : AgentPolicy)
    (spend : Spend) (resource : Text) (price : UInt64) : Shared × Stage :=
  match consumeApproval s.control agent.agentId resource price with
  | .error _ => (s, .denied .controlPlaneUnavailable)
  | .ok (control, true) => ({ s with control := control }, .cleared record (.evaluated agent policy spend))
  | .ok (control, false) => ({ s with control := control }, .unapproved agent)

def lookForProposal (agent : AgentRecord) (resource : Text) (price : UInt64) : Stage :=
  match hasPendingApproval s.control agent.agentId resource price with
  | .ok false => .proposing agent
  | _ => .denied .approvalRequired

def raiseProposal (agent : AgentRecord) (resource : Text) (price : UInt64) (approvalId : Text) :
    Shared × Stage :=
  match createApproval s.control agent.agentId resource price approvalId with
  | .ok control => ({ s with control := control }, .denied .approvalRequired)
  | .error _ => (s, .denied .approvalRequired)

def admitRequest (r : Request) (record : SessionRecord) : Shared × Stage :=
  match admitClaim cfg.sha256 s.db r.claim r.signature r.now with
  | .error e => (s, .denied (storeDenial e))
  | .ok (db, .error rejection) => ({ s with db := db }, .denied (claimDenial rejection))
  | .ok (db, .ok accepted) => ({ s with db := db }, .admitted record accepted)

/-- One move of a request: one call to the database, or the forward. `verify_claim` never
reaches the policy stages. Decoding, the price lookup and metering come before, or are in
modules of their own. -/
def advance (r : Request) : Shared × Stage :=
  match r.stage, r.kind with
  | .received, _ => (s, readSession cfg s r)
  | .authenticated record, _ => (s, readAgent cfg s record)
  | .identified record agent policy, .buy resource price =>
    (s, evaluatePolicy s record agent policy resource price)
  | .approving record agent policy spend, .buy resource price =>
    spendApproval s record agent policy spend resource price
  | .unapproved agent, .buy resource price => (s, lookForProposal s agent resource price)
  | .proposing agent, .buy resource price => raiseProposal s agent resource price r.approvalId
  | .cleared record _, _ => admitRequest cfg s r record
  | .admitted record accepted, _ => (s, .served record accepted)
  | stage, _ => (s, stage)

end Handlers

/-- What is left of a request that a failure cuts short. -/
def Stage.interrupted : Stage → Stage
  | .admitted record accepted => .unserved record accepted
  | .served record accepted => .served record accepted
  | .unserved record accepted => .unserved record accepted
  | .denied code => .denied code
  | _ => .denied .storeUnavailable

/-- One call of the handler, which is made or not: an error and a drop by the deadline of the
router are the same to the tables. A transaction whose COMMIT succeeds and whose answer is
lost is not among the moves. -/
inductive Move (cfg : Config) : Shared → Request → Shared → Request → Prop
  | handler {s : Shared} {r : Request} :
      Move cfg s r (advance cfg s r).1 { r with stage := (advance cfg s r).2 }
  | interrupted {s : Shared} {r : Request} :
      Move cfg s r s { r with stage := r.stage.interrupted }

/-- An expired claim is refused before the first database call. -/
def Arrives (r : Request) : Prop :=
  r.stage = if r.claim.isExpired r.now then .denied .claimExpired else .received

inductive Event where
  | control (control : Tables)
  | openSession (record : SessionRecord)
  | markSettled (session : Pubkey)
  | markChainVerified (session : Pubkey)

/-- What happens beside the requests: the control plane may become anything at any moment,
which is more than its handlers do, and sessions are opened, settled and flagged as the
store does it. -/
inductive Outside : Shared → Event → Shared → Prop
  | control {s : Shared} {control : Tables} :
      Outside s (.control control) { s with control := control }
  | openSession {s : Shared} {record : SessionRecord} {db : Database} :
      openRecord s.db record = .ok db →
      Outside s (.openSession record) { s with db := db }
  | markSettled {s : Shared} {session : Pubkey} :
      Outside s (.markSettled session) { s with db := markSettled s.db session }
  | markChainVerified {s : Shared} {session : Pubkey} {db : Database} :
      markChainVerified s.db session = .ok db →
      Outside s (.markChainVerified session) { s with db := db }

abbrev Gateway := RequestPool.Pool Shared Request
abbrev GatewayLabel := RequestPool.Label Request Event

/-- All interleavings of the requests with each other and the outside, call by call. A request
that has arrived may also never move again, as after a crash. -/
def GatewayStep (cfg : Config) : Gateway → GatewayLabel → Gateway → Prop :=
  RequestPool.Step Arrives (Move cfg) Outside

def Initial (g : Gateway) : Prop :=
  g.shared.db = .empty ∧ g.requests = []

def GatewayReached (cfg : Config) (g : Gateway) : Prop := Reachable (GatewayStep cfg) Initial g

/-- Every move, with what it read. The two admissions are the only ones that
touch the money tables. -/
inductive Next (cfg : Config) (s : Shared) (r : Request) : Shared → Stage → Prop
  | denied {s' : Shared} {code : ReasonCode} : s'.db = s.db → r.stage.accepted? = none →
      Next cfg s r s' (.denied code)
  | priced {record : SessionRecord} {resource : Text} {price : UInt64} :
      r.stage = .received → r.kind = .buy resource price →
      getRecord s.db r.claim.session = .ok record →
      record.cumulativeAccepted.toNat + price.toNat = r.claim.cumulativeAmount.toNat →
      Next cfg s r s (.authenticated record)
  | verified {record : SessionRecord} : r.stage = .received → r.kind = .verify →
      getRecord s.db r.claim.session = .ok record → Next cfg s r s (.cleared record .unchecked)
  | unregistered {record : SessionRecord} : r.stage = .authenticated record →
      getAgentByPubkey s.control record.agent = .ok none →
      Next cfg s r s (.cleared record .unregistered)
  | unrestricted {record : SessionRecord} {agent : AgentRecord} : r.stage = .authenticated record →
      getAgentByPubkey s.control record.agent = .ok (some agent) → agent.status = .active →
      agent.policy = none → Next cfg s r s (.cleared record (.unrestricted agent))
  | identified {record : SessionRecord} {agent : AgentRecord} {policy : AgentPolicy} :
      r.stage = .authenticated record →
      getAgentByPubkey s.control record.agent = .ok (some agent) → agent.status = .active →
      agent.policy = some policy → Next cfg s r s (.identified record agent policy)
  | evaluated {record : SessionRecord} {agent : AgentRecord} {policy : AgentPolicy} {spend : Spend}
      {resource : Text} {price : UInt64} :
      r.stage = .identified record agent policy → r.kind = .buy resource price →
      agentSpend s.db record.agent = .ok spend →
      evaluate agent.status agent.mode policy resource price spend = .allow →
      Next cfg s r s (.cleared record (.evaluated agent policy spend))
  | approving {record : SessionRecord} {agent : AgentRecord} {policy : AgentPolicy} {spend : Spend}
      {resource : Text} {price : UInt64} :
      r.stage = .identified record agent policy → r.kind = .buy resource price →
      agentSpend s.db record.agent = .ok spend →
      evaluate agent.status agent.mode policy resource price spend = .needsApproval →
      Next cfg s r s (.approving record agent policy spend)
  | approved {record : SessionRecord} {agent : AgentRecord} {policy : AgentPolicy} {spend : Spend}
      {control : Tables} : r.stage = .approving record agent policy spend →
      Next cfg s r { s with control := control } (.cleared record (.evaluated agent policy spend))
  | unapproved {record : SessionRecord} {agent : AgentRecord} {policy : AgentPolicy} {spend : Spend}
      {control : Tables} : r.stage = .approving record agent policy spend →
      Next cfg s r { s with control := control } (.unapproved agent)
  | proposing {agent : AgentRecord} : r.stage = .unapproved agent →
      Next cfg s r s (.proposing agent)
  | refused {record : SessionRecord} {clearance : Clearance} {db : Database}
      {rejection : ClaimRejection} : r.stage = .cleared record clearance →
      admitClaim cfg.sha256 s.db r.claim r.signature r.now = .ok (db, .error rejection) →
      Next cfg s r { s with db := db } (.denied (claimDenial rejection))
  | admitted {record : SessionRecord} {clearance : Clearance} {db : Database}
      {accepted : ClaimAccepted} : r.stage = .cleared record clearance →
      admitClaim cfg.sha256 s.db r.claim r.signature r.now = .ok (db, .ok accepted) →
      Next cfg s r { s with db := db } (.admitted record accepted)
  | served {record : SessionRecord} {accepted : ClaimAccepted} :
      r.stage = .admitted record accepted → Next cfg s r s (.served record accepted)
  | unserved {record : SessionRecord} {accepted : ClaimAccepted} :
      r.stage = .admitted record accepted → Next cfg s r s (.unserved record accepted)
  | idle : Next cfg s r s r.stage

section Moves
variable {cfg : Config} {s : Shared} {r : Request}

theorem next_readSession (h : r.stage = .received) : Next cfg s r s (readSession cfg s r) := by
  unfold readSession
  have hdenied : ∀ code, Next cfg s r s (.denied code) := fun code => .denied rfl (by rw [h]; rfl)
  rcases hget : getRecord s.db r.claim.session with e | record
  · exact hdenied _
  · simp only
    split_ifs
    · rcases hk : r.kind with ⟨resource, price⟩ | _
      · simp only [priceCheck]
        rcases hp : record.cumulativeAccepted.checkedAdd price with _ | expected
        · exact hdenied _
        · simp only
          split_ifs with he
          · exact hdenied _
          · rw [not_not] at he
            rw [UInt64.checkedAdd_eq_some, ← he] at hp
            exact .priced h hk hget hp.symm
      · exact .verified h hk hget
    · exact hdenied _

theorem next_readAgent {record : SessionRecord} (h : r.stage = .authenticated record) :
    Next cfg s r s (readAgent cfg s record) := by
  unfold readAgent
  have hdenied : ∀ code, Next cfg s r s (.denied code) := fun code => .denied rfl (by rw [h]; rfl)
  rcases hget : getAgentByPubkey s.control record.agent with e | found
  · exact hdenied _
  · rcases found with _ | agent
    · simp only
      split_ifs
      · exact hdenied _
      · exact .unregistered h hget
    · by_cases hs : agent.status = .active
      · simp only [hs, ne_eq, not_true_eq_false, ↓reduceIte]
        rcases hp : agent.policy with _ | policy
        · simp only
          split_ifs
          · exact hdenied _
          · exact .unrestricted h hget hs hp
        · exact .identified h hget hs hp
      · simp only [ne_eq, hs, not_false_eq_true, ↓reduceIte]
        exact hdenied _

theorem next_evaluatePolicy {record : SessionRecord} {agent : AgentRecord} {policy : AgentPolicy}
    {resource : Text} {price : UInt64} (h : r.stage = .identified record agent policy)
    (hk : r.kind = .buy resource price) :
    Next cfg s r s (evaluatePolicy s record agent policy resource price) := by
  unfold evaluatePolicy
  have hdenied : ∀ code, Next cfg s r s (.denied code) := fun code => .denied rfl (by rw [h]; rfl)
  rcases hsp : agentSpend s.db record.agent with e | spend
  · exact hdenied _
  · simp only
    rcases he : evaluate agent.status agent.mode policy resource price spend with _ | _ | refusal
    · exact .evaluated h hk hsp he
    · exact .approving h hk hsp he
    · exact hdenied _

theorem next_spendApproval {record : SessionRecord} {agent : AgentRecord} {policy : AgentPolicy}
    {spend : Spend} {resource : Text} {price : UInt64}
    (h : r.stage = .approving record agent policy spend) :
    Next cfg s r (spendApproval s record agent policy spend resource price).1
      (spendApproval s record agent policy spend resource price).2 := by
  unfold spendApproval
  split
  · exact .denied rfl (by rw [h]; rfl)
  · exact .approved h
  · exact .unapproved h

theorem next_admit {record : SessionRecord} {clearance : Clearance}
    (h : r.stage = .cleared record clearance) :
    Next cfg s r (admitRequest cfg s r record).1 (admitRequest cfg s r record).2 := by
  unfold admitRequest
  split
  · exact .denied rfl (by rw [h]; rfl)
  · rename_i db rejection hok
    exact .refused h hok
  · rename_i db accepted hok
    exact .admitted h hok

theorem next_advance : Next cfg s r (advance cfg s r).1 (advance cfg s r).2 := by
  unfold advance
  split
  · rename_i h
    exact next_readSession h
  · rename_i record h
    exact next_readAgent h
  · rename_i record agent policy resource price h hk
    exact next_evaluatePolicy h hk
  · rename_i record agent policy spend resource price h hk
    exact next_spendApproval h
  · rename_i agent resource price h hk
    simp only [lookForProposal]
    split
    · exact .proposing h
    · exact .denied rfl (by rw [h]; rfl)
  · rename_i agent resource price h hk
    simp only [raiseProposal]
    split
    · exact .denied rfl (by rw [h]; rfl)
    · exact .denied rfl (by rw [h]; rfl)
  · rename_i record clearance h
    exact next_admit h
  · rename_i record accepted h
    exact .served h
  · exact .idle

theorem next_interrupted : Next cfg s r s r.stage.interrupted := by
  by_cases hidle : r.stage.interrupted = r.stage
  · rw [hidle]
    exact .idle
  · cases h : r.stage with
    | admitted record accepted => exact .unserved h
    | served | unserved | denied =>
      rw [h] at hidle
      exact absurd rfl hidle
    | _ => exact .denied rfl (by rw [h]; rfl)

/-- The inversion of a move: only the stage of the request changes. -/
theorem move_next {s' : Shared} {r' : Request} (h : Move cfg s r s' r') :
    r' = { r with stage := r'.stage } ∧ Next cfg s r s' r'.stage := by
  cases h with
  | handler => exact ⟨rfl, next_advance⟩
  | interrupted => exact ⟨rfl, next_interrupted⟩

end Moves

section Tables
variable {cfg : Config} {s s' : Shared} {r : Request} {stage : Stage}

theorem next_grows (h : Next cfg s r s' stage) : Grows s.db s'.db := by
  cases h with
  | denied hdb _ =>
    rw [hdb]
    exact .refl _
  | refused _ hok => exact (admitClaim_effect hok).grows
  | admitted _ hok => exact (admitClaim_effect hok).grows
  | _ => exact .refl _

theorem outside_grows {e : Event} (h : Outside s e s') : Grows s.db s'.db := by
  cases h with
  | control => exact .refl _
  | openSession hok => exact openRecord_grows hok
  | markSettled => exact markSettled_grows
  | markChainVerified hok => exact markChainVerified_grows hok

/-- The tables only grow, whatever the gateway does. -/
theorem step_grows {g g' : Gateway} {l : GatewayLabel} (h : GatewayStep cfg g l g') :
    Grows g.shared.db g'.shared.db := by
  cases h with
  | arrive _ => exact .refl _
  | advance _ hm => exact next_grows (move_next hm).2
  | outside ho => exact outside_grows ho

/-- A request's claim counts as admitted only after an admission. -/
theorem next_accepted (h : Next cfg s r s' stage) :
    stage.accepted? = r.stage.accepted? ∨ ∃ record clearance db acc,
      r.stage = .cleared record clearance ∧
      admitClaim cfg.sha256 s.db r.claim r.signature r.now = .ok (db, .ok acc) ∧
      s' = { s with db := db } ∧ stage = .admitted record acc := by
  cases h with
  | admitted hstage hok => exact .inr ⟨_, _, _, _, hstage, hok, rfl, rfl⟩
  | denied _ hnone => exact .inl hnone.symm
  | idle => exact .inl rfl
  | priced hstage _ _ _ | verified hstage _ _ | unregistered hstage _ | unrestricted hstage _ _ _
  | identified hstage _ _ _ | evaluated hstage _ _ _ | approving hstage _ _ _ | approved hstage
  | unapproved hstage | proposing hstage | refused hstage _ | served hstage | unserved hstage =>
    left
    rw [hstage]
    rfl

theorem arrives_accepted (h : Arrives r) : r.stage.accepted? = none := by
  rw [Arrives] at h
  rw [h]
  split_ifs <;> rfl

theorem arrives_record (h : Arrives r) : r.stage.record? = none := by
  rw [Arrives] at h
  rw [h]
  split_ifs <;> rfl

theorem next_record {record : SessionRecord} (h : Next cfg s r s' stage)
    (hrec : stage.record? = some record) :
    r.stage.record? = some record ∨ getRecord s.db r.claim.session = .ok record := by
  cases h with
  | priced _ _ hget _ | verified _ _ hget =>
    cases hrec
    exact .inr hget
  | unregistered hstage _ | unrestricted hstage _ _ _ | identified hstage _ _ _
  | evaluated hstage _ _ _ | approving hstage _ _ _ | approved hstage =>
    left
    rw [hstage]
    exact hrec
  | idle => exact .inl hrec
  | _ => cases hrec

end Tables

/-- The request a label would admit, with the record and the clearance it holds. -/
structure Candidate where
  request : Request
  record : SessionRecord
  clearance : Clearance
deriving DecidableEq

def candidate? (cfg : Config) (g : Gateway) : GatewayLabel → Option Candidate
  | .advance n =>
    match g.requests[n]? with
    | some r =>
      match r.stage, admitClaim cfg.sha256 g.shared.db r.claim r.signature r.now with
      | .cleared record clearance, .ok (_, .ok _) => some ⟨r, record, clearance⟩
      | _, _ => none
    | none => none
  | _ => none

theorem candidate?_eq {cfg : Config} {g : Gateway} {n : ℕ} {r : Request} {record : SessionRecord}
    {clearance : Clearance} {db : Database} {acc : ClaimAccepted} (hr : g.requests[n]? = some r)
    (hstage : r.stage = .cleared record clearance)
    (hok : admitClaim cfg.sha256 g.shared.db r.claim r.signature r.now = .ok (db, .ok acc)) :
    candidate? cfg g (.advance n) = some ⟨r, record, clearance⟩ := by
  simp only [candidate?, hr, hstage, hok]

section Schedules
variable (cfg : Config)

instance : DecidablePred Arrives := fun r =>
  inferInstanceAs (Decidable (r.stage = if r.claim.isExpired r.now then _ else _))

def move (s : Shared) (r : Request) : Shared × Request :=
  ((advance cfg s r).1, { r with stage := (advance cfg s r).2 })

def outside (s : Shared) : Event → Option Shared
  | .control control => some { s with control := control }
  | .openSession record =>
    match openRecord s.db record with
    | .ok db => some { s with db := db }
    | .error _ => none
  | .markSettled session => some { s with db := markSettled s.db session }
  | .markChainVerified session =>
    match markChainVerified s.db session with
    | .ok db => some { s with db := db }
    | .error _ => none

/-- A schedule of requests without failures, the last label first. -/
def playGateway (g : Gateway) (ls : List GatewayLabel) : History Gateway GatewayLabel × Gateway :=
  RequestPool.play (fun r => decide (Arrives r)) (move cfg) outside g ls

theorem outside_sound {s s' : Shared} {e : Event} (h : outside s e = some s') : Outside s e s' := by
  cases e with
  | control control =>
    obtain rfl := Option.some.inj h
    exact .control
  | openSession record =>
    simp only [outside] at h
    split at h
    · obtain rfl := Option.some.inj h
      exact .openSession ‹_›
    · cases h
  | markSettled session =>
    obtain rfl := Option.some.inj h
    exact .markSettled
  | markChainVerified session =>
    simp only [outside] at h
    split at h
    · obtain rfl := Option.some.inj h
      exact .markChainVerified ‹_›
    · cases h

theorem playGateway_run (g : Gateway) (ls : List GatewayLabel) :
    Run (GatewayStep cfg) g (playGateway cfg g ls).1 (playGateway cfg g ls).2 := by
  refine RequestPool.play_run ?_ ?_ ?_ g ls
  · intro r hr
    exact of_decide_eq_true hr
  · intro s r
    exact .handler
  · intro s e s' he
    exact outside_sound he

end Schedules

end AgentPay.PaidRequests
