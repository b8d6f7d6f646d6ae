import AgentPay.ApprovalRuns
import AgentPay.EvidenceRuns

/-!
# One purchase from its arrival to its answer

`buy` with no other request running: the moves of one request follow one another, and
each makes one call that may fail. Which calls fail is an input. A failed call leaves
the tables as they were and is answered with the code the handler gives it; a failed
forward leaves the claim admitted.
-/
namespace AgentPay.LoneRequests
open SolanaRuntime GatewayClaims SessionStore PolicyRules ControlPlane PaidRequests StoreRuns
open EvidenceRuns Fallible Runs

/-- The calls of the handler that may fail. -/
inductive Call where
  | loadSession
  | loadAgent
  | loadSpend
  | consumeApproval
  | findProposal
  | createProposal
  | admitClaim
  | forward
deriving DecidableEq, Repr

def call? : Stage → Option Call
  | .received => some .loadSession
  | .authenticated _ => some .loadAgent
  | .identified _ _ _ => some .loadSpend
  | .approving _ _ _ _ => some .consumeApproval
  | .unapproved _ => some .findProposal
  | .proposing _ => some .createProposal
  | .cleared _ _ => some .admitClaim
  | .admitted _ _ => some .forward
  | _ => none

/-- What the handler makes of a failed call. A proposal that cannot be looked up or
raised is logged, and the purchase is refused as it would have been. -/
def failed : Stage → Stage
  | .received => .denied .storeUnavailable
  | .authenticated _ => .denied .controlPlaneUnavailable
  | .identified _ _ _ => .denied .controlPlaneUnavailable
  | .approving _ _ _ _ => .denied .controlPlaneUnavailable
  | .unapproved _ => .denied .approvalRequired
  | .proposing _ => .denied .approvalRequired
  | .cleared _ _ => .denied .storeUnavailable
  | .admitted record accepted => .unserved record accepted
  | stage => stage

section Handling
variable (cfg : Config) (fails : Call → Bool)

def attempt (s : Shared) (r : Request) : Shared × Stage :=
  if (call? r.stage).any fails then (s, failed r.stage) else advance cfg s r

/-- The tables and the stage after some moves. -/
def handle (s : Shared) (r : Request) : ℕ → Shared × Stage
  | 0 => (s, r.stage)
  | n + 1 => attempt cfg fails (handle s r n).1 { r with stage := (handle s r n).2 }

/-- A purchase is answered after at most six moves. -/
def serve (s : Shared) (r : Request) : Shared × Stage := handle cfg fails s r 6

end Handling

section Attempts
variable {cfg : Config} {fails : Call → Bool} {s : Shared} {r : Request} {c : Call}

theorem attempt_of_fails (hc : call? r.stage = some c) (hf : fails c = true) :
    attempt cfg fails s r = (s, failed r.stage) := by
  rw [attempt, hc, Option.any_some, hf]
  rfl

theorem attempt_of_succeeds (hc : call? r.stage = some c) (hf : fails c = false) :
    attempt cfg fails s r = advance cfg s r := by
  rw [attempt, hc, Option.any_some, hf]
  rfl

end Attempts

def remaining : Stage → ℕ
  | .received => 6
  | .authenticated _ => 5
  | .identified _ _ _ => 4
  | .approving _ _ _ _ => 3
  | .unapproved _ => 2
  | .proposing _ => 1
  | .cleared _ _ => 2
  | .admitted _ _ => 1
  | _ => 0

section Termination
variable {cfg : Config} {fails : Call → Bool} {s : Shared} {r : Request}
variable {resource : Text} {price : UInt64}

theorem remaining_failed (stage : Stage) : remaining (failed stage) = 0 := by
  cases stage <;> rfl

theorem remaining_readSession : remaining (readSession cfg s r) ≤ 5 := by
  unfold readSession
  rcases getRecord s.db r.claim.session with e | record
  · exact Nat.zero_le _
  · simp only
    split_ifs
    · rcases r.kind with ⟨resource, price⟩ | _
      · simp only [priceCheck]
        rcases record.cumulativeAccepted.checkedAdd price with _ | expected
        · exact Nat.zero_le _
        · simp only
          split_ifs
          · exact Nat.zero_le _
          · exact le_rfl
      · simp [remaining]
    · exact Nat.zero_le _

theorem remaining_readAgent {record : SessionRecord} : remaining (readAgent cfg s record) ≤ 4 := by
  unfold readAgent
  rcases getAgentByPubkey s.control record.agent with e | _ | agent
  · exact Nat.zero_le _
  · simp only
    split_ifs <;> simp [remaining]
  · simp only
    by_cases hs : agent.status = .active
    · rw [if_neg (not_not.mpr hs)]
      rcases agent.policy with _ | policy
      · simp only
        split_ifs <;> simp [remaining]
      · exact le_rfl
    · rw [if_pos hs]
      exact Nat.zero_le _

theorem remaining_evaluatePolicy {record : SessionRecord} {agent : AgentRecord}
    {policy : AgentPolicy} : remaining (evaluatePolicy s record agent policy resource price) ≤ 3 := by
  unfold evaluatePolicy
  rcases agentSpend s.db record.agent with e | spend
  · exact Nat.zero_le _
  · simp only
    rcases evaluate agent.status agent.mode policy resource price spend with _ | _ | refusal
    · simp [remaining]
    · exact le_rfl
    · exact Nat.zero_le _

theorem remaining_advance (hk : r.kind = .buy resource price) :
    remaining (advance cfg s r).2 ≤ remaining r.stage - 1 := by
  unfold advance
  rw [hk]
  cases hs : r.stage with
  | received => exact remaining_readSession
  | authenticated record => exact remaining_readAgent
  | identified record agent policy => exact remaining_evaluatePolicy
  | approving record agent policy spend =>
    simp only [spendApproval]
    split <;> simp [remaining]
  | unapproved agent =>
    simp only [lookForProposal]
    split <;> simp [remaining]
  | proposing agent =>
    simp only [raiseProposal]
    split <;> simp [remaining]
  | cleared record clearance =>
    simp only [admitRequest]
    split <;> simp [remaining]
  | admitted record accepted => exact Nat.zero_le _
  | served record accepted => exact Nat.zero_le _
  | unserved record accepted => exact Nat.zero_le _
  | denied code => exact Nat.zero_le _

theorem remaining_handle (hk : r.kind = .buy resource price) (n : ℕ) :
    remaining (handle cfg fails s r n).2 ≤ remaining r.stage - n := by
  induction n with
  | zero => exact le_rfl
  | succ n ih =>
    rw [handle, attempt]
    split_ifs
    · rw [remaining_failed]
      exact Nat.zero_le _
    · have hn := @remaining_advance cfg (handle cfg fails s r n).1
        { r with stage := (handle cfg fails s r n).2 } resource price hk
      simp only at hn
      omega

theorem remaining_serve (hk : r.kind = .buy resource price) :
    remaining (serve cfg fails s r).2 = 0 := by
  have hn := @remaining_handle cfg fails s r resource price hk 6
  have hle : remaining r.stage ≤ 6 := by cases r.stage <;> simp [remaining]
  unfold serve
  omega

end Termination

/-! ### A lone request is a run of the gateway -/

inductive Alike : Stage → Stage → Prop
  | same {stage : Stage} : Alike stage stage
  | denied {code code' : ReasonCode} : Alike (.denied code) (.denied code')

section Gateway
variable {cfg : Config} {fails : Call → Bool} {s : Shared} {r : Request} {g g' : Gateway}

theorem alike_failed (stage : Stage) : Alike stage.interrupted (failed stage) := by
  cases stage with
  | admitted | served | unserved => exact .same
  | _ => exact .denied

theorem attempt_denied {code : ReasonCode} :
    attempt cfg fails s { r with stage := .denied code } = (s, .denied code) := rfl

theorem handle_run (rs : List Request) (n : ℕ) : ∃ h stage,
    Run (GatewayStep cfg) ⟨s, rs ++ [r]⟩ h
        ⟨(handle cfg fails s r n).1, rs ++ [{ r with stage := stage }]⟩ ∧
      Alike stage (handle cfg fails s r n).2 := by
  induction n with
  | zero => exact ⟨[], r.stage, .start, .same⟩
  | succ n ih =>
    obtain ⟨h, stage, hr, ha⟩ := ih
    rw [handle]
    generalize (handle cfg fails s r n).1 = s' at hr ⊢
    generalize (handle cfg fails s r n).2 = stage' at ha ⊢
    have hstep {s'' : Shared} {stage' : Stage}
        (hm : Move cfg s' { r with stage := stage } s'' { r with stage := stage' }) :
        ∃ h, Run (GatewayStep cfg) ⟨s, rs ++ [r]⟩ h ⟨s'', rs ++ [{ r with stage := stage' }]⟩ := by
      have hs := @RequestPool.Step.advance _ _ _ Arrives (Move cfg) Outside s' s''
        (rs ++ [{ r with stage := stage }]) _ _ rs.length (by simp) hm
      rw [List.set_append_right _ _ le_rfl, Nat.sub_self, List.set_cons_zero] at hs
      exact ⟨_, hr.step hs⟩
    cases ha with
    | same =>
      unfold attempt
      split_ifs
      · obtain ⟨h, hr⟩ := hstep .interrupted
        exact ⟨h, _, hr, alike_failed _⟩
      · obtain ⟨h, hr⟩ := hstep .handler
        exact ⟨h, _, hr, .same⟩
    | @denied code code' =>
      rw [attempt_denied]
      exact ⟨h, .denied code, hr, .denied⟩

/-- The state a lone request leaves is one the gateway can reach. -/
theorem serve_reached (hg : GatewayReached cfg g) (ha : Arrives r) : ∃ stage,
    GatewayReached cfg ⟨(serve cfg fails g.shared r).1,
      g.requests ++ [{ r with stage := stage }]⟩ ∧
      Alike stage (serve cfg fails g.shared r).2 := by
  obtain ⟨h, stage, hr, hs⟩ := @handle_run cfg fails g.shared r g.requests 6
  exact ⟨stage, (hg.tail (.arrive ha)).run hr, hs⟩

theorem intact_admitClaim {db db' : Database} {claim : Claim} {signature : Signature} {now : Int64}
    {outcome : Except ClaimRejection ClaimAccepted} (h : Intact cfg.sha256 db)
    (hok : admitClaim cfg.sha256 db claim signature now = .ok (db', outcome)) :
    Intact cfg.sha256 db' := by
  have he := h.execute (.admitClaim claim signature now)
  simp only [execute, hok, commit] at he
  exact he

theorem intact_next {s' : Shared} {stage : Stage} (h : Intact cfg.sha256 s.db)
    (hn : Next cfg s r s' stage) : Intact cfg.sha256 s'.db := by
  cases hn with
  | denied hdb _ =>
    rw [hdb]
    exact h
  | refused _ hok => exact intact_admitClaim h hok
  | admitted _ hok => exact intact_admitClaim h hok
  | _ => exact h

theorem intact_gatewayStep {l : GatewayLabel} (h : Intact cfg.sha256 g.shared.db)
    (hs : GatewayStep cfg g l g') : Intact cfg.sha256 g'.shared.db := by
  cases hs with
  | arrive _ => exact h
  | advance _ hm => exact intact_next h (move_next hm).2
  | outside ho =>
    cases ho with
    | control => exact h
    | openSession hok => exact h.openRecord hok
    | markSettled => exact h.markSettled
    | @markChainVerified session db hok =>
      have he := h.execute (.markChainVerified session)
      simp only [execute, hok, Except.map, commit] at he
      exact he

/-- The tables of a reachable gateway are those of a store. -/
theorem intact_reached (hg : GatewayReached cfg g) : Intact cfg.sha256 g.shared.db := by
  refine hg.invariant ?_ fun g l g' h hs => intact_gatewayStep h hs
  intro g hi
  rw [hi.1]
  exact intact_empty

end Gateway

end AgentPay.LoneRequests
