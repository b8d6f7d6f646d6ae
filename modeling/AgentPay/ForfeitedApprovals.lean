import AgentPay.LoneRequests
import Mathlib.Data.Multiset.Filter

/-!
# Approvals lost to purchases that fail

`enforce_agent_policy` spends an approval before `admit_claim` looks at the claim, in a
transaction of its own. A purchase whose claim is then refused, or whose admission the
store cannot make, has used the approval up. `Path` follows a lone purchase and says
where its approval is spent; the last theorem says exactly when one is lost.
-/
namespace AgentPay.ForfeitedApprovals
open SolanaRuntime GatewayClaims SessionStore PolicyRules ControlPlane PaidRequests StoreRuns
open ApprovalRuns LoneRequests Fallible Runs

/-- The approvals that are granted and not yet spent. -/
def approvedRows (l : List ApprovalRow) : Multiset ApprovalRow :=
  Multiset.ofList (l.filter fun a => a.state = .approved)

section Conditions
variable (cfg : Config) (fails : Call → Bool) (s : Shared) (r : Request) (resource : Text)
variable (price : UInt64)

/-- The session is known and the claim is signed for exactly the price. -/
structure Authentic (record : SessionRecord) : Prop where
  unexpired : r.claim.isExpired r.now = false
  loads : fails .loadSession = false
  loaded : getRecord s.db r.claim.session = .ok record
  signed : cfg.verifyClaimSignature record.agent r.claim r.signature = true
  priced : record.cumulativeAccepted.toNat + price.toNat = r.claim.cumulativeAmount.toNat

/-- The agent is active and has a policy. -/
structure Governed (record : SessionRecord) (agent : AgentRecord) (policy : AgentPolicy) : Prop
    extends Authentic cfg fails s r price record where
  finds : fails .loadAgent = false
  found : getAgentByPubkey s.control record.agent = .ok (some agent)
  active : agent.status = .active
  under : agent.policy = some policy

structure Asks (record : SessionRecord) (agent : AgentRecord) (policy : AgentPolicy)
    (spend : Spend) : Prop extends Governed cfg fails s r price record agent policy where
  sums : fails .loadSpend = false
  spent : agentSpend s.db record.agent = .ok spend
  asks : evaluate agent.status agent.mode policy resource price spend = .needsApproval

/-- An approval for this purchase waits. -/
structure Spends (record : SessionRecord) (agent : AgentRecord) (policy : AgentPolicy)
    (spend : Spend) : Prop extends Asks cfg fails s r resource price record agent policy spend where
  consumes : fails .consumeApproval = false
  waits : ∃ a ∈ s.control.approvals,
    Key.covers ⟨agent.agentId, resource, price⟩ a = true ∧ a.state = .approved

/-- The rules accept the claim, and the columns of the log and the ticket can hold it. -/
def Admissible (record : SessionRecord) : Prop :=
  (∃ accepted, evaluateClaim record r.claim r.now = .ok accepted) ∧
    (s.db.evidence r.claim.session).length < 2 ^ 63 ∧ r.claim.nonce.toNat < 2 ^ 63

/-- The purchase spends an approval, and then its claim is not admitted. -/
def Forfeits : Prop :=
  ∃ record agent policy spend, Spends cfg fails s r resource price record agent policy spend ∧
    (fails .admitClaim = true ∨ ¬ Admissible s r record)

/-- Where a lone purchase is, and what it has done to the approvals. -/
inductive Path : Shared → Stage → Prop
  | received : r.claim.isExpired r.now = false → Path s .received
  | authentic {record : SessionRecord} : Authentic cfg fails s r price record →
      Path s (.authenticated record)
  | governed {record : SessionRecord} {agent : AgentRecord} {policy : AgentPolicy} :
      Governed cfg fails s r price record agent policy → Path s (.identified record agent policy)
  | asks {record : SessionRecord} {agent : AgentRecord} {policy : AgentPolicy} {spend : Spend} :
      Asks cfg fails s r resource price record agent policy spend →
      Path s (.approving record agent policy spend)
  | aside {s' : Shared} {stage : Stage} : remaining stage ≤ 2 →
      approvedRows s'.control.approvals = approvedRows s.control.approvals → Path s' stage
  | spends {s' : Shared} {stage : Stage} {record : SessionRecord} {agent : AgentRecord}
      {policy : AgentPolicy} {spend : Spend} : remaining stage ≤ 2 →
      Spends cfg fails s r resource price record agent policy spend → Path s' stage

end Conditions

section Rows
variable {before after : List ApprovalRow}

theorem approvedRows_same (h : Change before after none none) :
    approvedRows after = approvedRows before := by
  unfold approvedRows
  cases h with
  | same ha => rw [ha]
  | proposed ha hr _ =>
    rw [ha, List.filter_append]
    simp [hr]
  | rejected hb ha hr =>
    rw [hb, ha, List.filter_append, List.filter_append]
    simp [hr]

theorem approvedRows_consumed {k : Key} (h : Change before after (some k) none) :
    approvedRows after ≠ approvedRows before := by
  obtain ⟨l₁, r, l₂, hb, ha, hr, -⟩ := h.used
  intro he
  have hcard := congrArg Multiset.card he
  simp only [approvedRows, hb, ha, Multiset.coe_card, List.filter_append, List.length_append] at hcard
  simp [hr] at hcard

theorem consumeFirst_any (p : ApprovalRow → Bool) (l : List ApprovalRow) :
    (consumeFirst p l).2 = l.any p := by
  induction l with
  | nil => rfl
  | cons a l ih =>
    rw [consumeFirst, List.any_cons, ← ih]
    split_ifs with ha
    · rw [ha, Bool.true_or]
    · simp [ha]

end Rows

section Stages
variable {cfg : Config} {fails : Call → Bool} {s s' : Shared} {r : Request} {resource : Text}
variable {price : UInt64} {stage : Stage}

theorem readSession_cases (hk : r.kind = .buy resource price) :
    (∃ code, readSession cfg s r = .denied code) ∨ ∃ record,
      readSession cfg s r = .authenticated record ∧ getRecord s.db r.claim.session = .ok record ∧
      cfg.verifyClaimSignature record.agent r.claim r.signature = true ∧
      record.cumulativeAccepted.toNat + price.toNat = r.claim.cumulativeAmount.toNat := by
  unfold readSession
  rcases getRecord s.db r.claim.session with e | record
  · exact .inl ⟨_, rfl⟩
  · simp only
    split_ifs with hsigned
    · simp only [hk, priceCheck]
      rcases hp : record.cumulativeAccepted.checkedAdd price with _ | expected
      · exact .inl ⟨_, rfl⟩
      · simp only
        split_ifs with he
        · exact .inl ⟨_, rfl⟩
        · rw [not_not] at he
          rw [UInt64.checkedAdd_eq_some, ← he] at hp
          exact .inr ⟨record, rfl, rfl, hsigned, hp.symm⟩
    · exact .inl ⟨_, rfl⟩

theorem readSession_authentic {record : SessionRecord} (hk : r.kind = .buy resource price)
    (h : Authentic cfg fails s r price record) :
    readSession cfg s { r with stage := stage } = .authenticated record := by
  have hp : record.cumulativeAccepted.checkedAdd price = some r.claim.cumulativeAmount :=
    UInt64.checkedAdd_eq_some.mpr h.priced.symm
  simp [readSession, h.loaded, h.signed, hk, priceCheck, hp]

theorem readAgent_cases {record : SessionRecord} :
    remaining (readAgent cfg s record) ≤ 2 ∨ ∃ agent policy,
      readAgent cfg s record = .identified record agent policy ∧
      getAgentByPubkey s.control record.agent = .ok (some agent) ∧ agent.status = .active ∧
      agent.policy = some policy := by
  unfold readAgent
  rcases getAgentByPubkey s.control record.agent with e | _ | agent
  · exact .inl (Nat.zero_le _)
  · simp only
    split_ifs
    · exact .inl (Nat.zero_le _)
    · exact .inl le_rfl
  · by_cases hs : agent.status = .active
    · simp only [hs, ne_eq, not_true_eq_false, if_false]
      rcases hp : agent.policy with _ | policy
      · simp only
        split_ifs
        · exact .inl (Nat.zero_le _)
        · exact .inl le_rfl
      · exact .inr ⟨agent, policy, rfl, rfl, hs, hp⟩
    · simp only [ne_eq, hs, not_false_eq_true, if_true]
      exact .inl (Nat.zero_le _)

theorem evaluatePolicy_cases {record : SessionRecord} {agent : AgentRecord} {policy : AgentPolicy} :
    remaining (evaluatePolicy s record agent policy resource price) ≤ 2 ∨ ∃ spend,
      evaluatePolicy s record agent policy resource price = .approving record agent policy spend ∧
      agentSpend s.db record.agent = .ok spend ∧
      evaluate agent.status agent.mode policy resource price spend = .needsApproval := by
  unfold evaluatePolicy
  rcases agentSpend s.db record.agent with e | spend
  · exact .inl (Nat.zero_le _)
  · simp only
    rcases he : evaluate agent.status agent.mode policy resource price spend with _ | _ | refusal
    · exact .inl le_rfl
    · exact .inr ⟨spend, rfl, rfl, he⟩
    · exact .inl (Nat.zero_le _)

/-- Past the policy, only a waiting approval that is spent makes a difference. -/
theorem path_late (hk : r.kind = .buy resource price) (hlate : remaining stage ≤ 2)
    (hsame : approvedRows s'.control.approvals = approvedRows s.control.approvals) :
    Path cfg fails s r resource price (attempt cfg fails s' { r with stage := stage }).1
      (attempt cfg fails s' { r with stage := stage }).2 := by
  unfold attempt
  split_ifs
  · refine .aside ?_ hsame
    rw [remaining_failed]
    exact Nat.zero_le _
  · have hrem := @remaining_advance cfg s' { r with stage := stage } resource price hk
    have hchange := @advance_change cfg s' { r with stage := stage }
    rw [passedBy_of_not_approving] at hchange
    · refine .aside ?_ ((approvedRows_same hchange).trans hsame)
      simp only at hrem
      omega
    · intro record agent policy spend hstage
      simp only at hstage
      rw [hstage] at hlate
      exact absurd hlate (by simp [remaining])

theorem remaining_attempt (hk : r.kind = .buy resource price) (hlate : remaining stage ≤ 2) :
    remaining (attempt cfg fails s' { r with stage := stage }).2 ≤ 2 := by
  unfold attempt
  split_ifs
  · rw [remaining_failed]
    exact Nat.zero_le _
  · have hrem := @remaining_advance cfg s' { r with stage := stage } resource price hk
    simp only at hrem
    omega

theorem Asks.path {record : SessionRecord} {agent : AgentRecord} {policy : AgentPolicy}
    {spend : Spend} (h : Asks cfg fails s r resource price record agent policy spend)
    (hk : r.kind = .buy resource price) (hc : fails .consumeApproval = false) :
    Path cfg fails s r resource price
      (spendApproval s record agent policy spend resource price).1
      (spendApproval s record agent policy spend resource price).2 := by
  have hchange := @spendUnlocked_change s { r with stage := .approving record agent policy spend }
    (fun _ => false) record agent policy spend resource price rfl hk
  rw [← spendApproval_eq] at hchange
  have hlate : remaining (spendApproval s record agent policy spend resource price).2 ≤ 2 := by
    simp only [spendApproval]
    split <;> simp [remaining]
  rcases hp : passedBy { r with stage := .approving record agent policy spend }
      (spendApproval s record agent policy spend resource price).2 with _ | k
  · rw [hp] at hchange
    exact .aside hlate (approvedRows_same hchange)
  · rw [hp] at hchange
    obtain ⟨l₁, a, l₂, hl, -, hstate, hcovers⟩ := hchange.used
    have hkey : k = ⟨agent.agentId, resource, price⟩ := by
      simp only [passedBy, hk] at hp
      split at hp
      · simp_all
      · cases hp
    rw [hkey] at hcovers
    exact .spends hlate ⟨h, hc, a, by simp [hl], hcovers, hstate⟩

theorem path_attempt (hk : r.kind = .buy resource price)
    (h : Path cfg fails s r resource price s' stage) :
    Path cfg fails s r resource price (attempt cfg fails s' { r with stage := stage }).1
      (attempt cfg fails s' { r with stage := stage }).2 := by
  have hdenied : ∀ code, Path cfg fails s r resource price s (.denied code) :=
    fun code => .aside (Nat.zero_le _) rfl
  cases h with
  | received hexp =>
    cases hf : fails .loadSession with
    | true =>
      rw [attempt_of_fails rfl hf]
      exact hdenied _
    | false =>
      rw [attempt_of_succeeds rfl hf]
      rcases @readSession_cases cfg s { r with stage := .received } resource price hk with
        ⟨code, hd⟩ | ⟨record, hread, hload, hsign, hprice⟩
      · simp only [advance, hd]
        exact hdenied _
      · simp only [advance, hread]
        exact .authentic ⟨hexp, hf, hload, hsign, hprice⟩
  | @authentic record ha =>
    cases hf : fails .loadAgent with
    | true =>
      rw [attempt_of_fails rfl hf]
      exact hdenied _
    | false =>
      rw [attempt_of_succeeds rfl hf]
      rcases @readAgent_cases cfg s record with hlate | ⟨agent, policy, hread, hfound, hact, hpol⟩
      · exact .aside hlate rfl
      · simp only [advance, hread]
        exact .governed ⟨ha, hf, hfound, hact, hpol⟩
  | @governed record agent policy hg =>
    cases hf : fails .loadSpend with
    | true =>
      rw [attempt_of_fails rfl hf]
      exact hdenied _
    | false =>
      rw [attempt_of_succeeds rfl hf]
      simp only [advance, hk]
      rcases @evaluatePolicy_cases s resource price record agent policy with
        hlate | ⟨spend, heval, hspend, hasks⟩
      · exact .aside hlate rfl
      · rw [heval]
        exact .asks ⟨hg, hf, hspend, hasks⟩
  | @asks record agent policy spend ha =>
    cases hf : fails .consumeApproval with
    | true =>
      rw [attempt_of_fails rfl hf]
      exact hdenied _
    | false =>
      rw [attempt_of_succeeds rfl hf]
      simp only [advance, hk]
      exact ha.path hk hf
  | aside hlate hsame => exact path_late hk hlate hsame
  | spends hlate hs => exact .spends (remaining_attempt hk hlate) hs

theorem path_handle (ha : Arrives r) (hk : r.kind = .buy resource price) (n : ℕ) :
    Path cfg fails s r resource price (handle cfg fails s r n).1 (handle cfg fails s r n).2 := by
  induction n with
  | zero =>
    rw [handle]
    rw [Arrives] at ha
    rw [ha]
    split_ifs with hexp
    · exact .aside (Nat.zero_le _) rfl
    · rw [Bool.not_eq_true] at hexp
      exact .received hexp
  | succ n ih =>
    rw [handle]
    exact path_attempt hk ih

/-! ### Spending, then admitting -/

section Spending
variable {record : SessionRecord} {agent : AgentRecord} {policy : AgentPolicy} {spend : Spend}

theorem Spends.consumed (h : Spends cfg fails s r resource price record agent policy spend)
    (hk : r.kind = .buy resource price) : ∃ control,
    spendApproval s record agent policy spend resource price =
        ({ s with control := control }, .cleared record (.evaluated agent policy spend)) ∧
      approvedRows control.approvals ≠ approvedRows s.control.approvals := by
  obtain ⟨a, ha, hcovers, hstate⟩ := h.waits
  have hc := hcovers
  simp only [Key.covers, Bool.and_eq_true, decide_eq_true_eq] at hc
  have hp : toI64 price "approval price" = .ok a.price := toI64_eq_ok.mpr hc.2
  have hmatch : matchesApproval agent.agentId resource a.price .approved a = true := by
    simp [matchesApproval, hc.1.1, hc.1.2, hstate]
  have hdone := consumeFirst_any (matchesApproval agent.agentId resource a.price .approved)
    s.control.approvals
  rw [List.any_eq_true.mpr ⟨a, ha, hmatch⟩] at hdone
  have heq : spendApproval s record agent policy spend resource price =
      ({ s with control := { s.control with
          approvals := (consumeFirst (matchesApproval agent.agentId resource a.price .approved)
            s.control.approvals).1 } },
        .cleared record (.evaluated agent policy spend)) := by
    simp only [spendApproval, consumeApproval, hp, ok_bind, hdone]
    rfl
  refine ⟨_, heq, ?_⟩
  have hchange := @spendUnlocked_change s { r with stage := .approving record agent policy spend }
    (fun _ => false) record agent policy spend resource price rfl hk
  rw [← spendApproval_eq, heq] at hchange
  simp only [passedBy, hk] at hchange
  exact approvedRows_consumed hchange

/-- Four moves lead to the admission, and an approval is gone. -/
theorem Spends.handled (h : Spends cfg fails s r resource price record agent policy spend)
    (ha : Arrives r) (hk : r.kind = .buy resource price) : ∃ control,
    handle cfg fails s r 4 =
        ({ s with control := control }, .cleared record (.evaluated agent policy spend)) ∧
      approvedRows control.approvals ≠ approvedRows s.control.approvals := by
  obtain ⟨control, hspent, hlost⟩ := h.consumed hk
  refine ⟨control, ?_, hlost⟩
  have h₀ : handle cfg fails s r 0 = (s, .received) := by
    rw [handle, ha, h.unexpired]
    rfl
  have h₁ : handle cfg fails s r 1 = (s, .authenticated record) := by
    rw [handle, h₀, attempt_of_succeeds rfl h.loads]
    exact congrArg (Prod.mk s) (readSession_authentic hk h.toAuthentic)
  have h₂ : handle cfg fails s r 2 = (s, .identified record agent policy) := by
    rw [handle, h₁, attempt_of_succeeds rfl h.finds]
    simp only [advance, readAgent, h.found, h.active, h.under, ne_eq, not_true_eq_false, if_false]
  have h₃ : handle cfg fails s r 3 = (s, .approving record agent policy spend) := by
    rw [handle, h₂, attempt_of_succeeds rfl h.sums]
    simp only [advance, hk, evaluatePolicy, h.spent, h.asks]
  rw [handle, h₃, attempt_of_succeeds rfl h.consumes]
  simp only [advance, hk, hspent]

/-- An admissible claim is admitted, and no other. -/
theorem admissible_iff (hi : Intact cfg.sha256 s.db)
    (hload : getRecord s.db r.claim.session = .ok record) :
    Admissible s r record ↔ ∃ db accepted,
      admitClaim cfg.sha256 s.db r.claim r.signature r.now = .ok (db, .ok accepted) := by
  rcases hrow : s.db.sessions r.claim.session with _ | row
  · simp [getRecord, loadSession, hrow, okOr] at hload
  · rw [getRecord_eq hi hrow, Except.ok.injEq] at hload
    have hcases := @admit_cases cfg.sha256 s.db r.claim r.signature r.now row hrow (hi.tracked hrow)
    rw [hload] at hcases
    generalize admitClaim cfg.sha256 s.db r.claim r.signature r.now = outcome at hcases
    have hrefused {e : ClaimRejection} {x : Except StoreError (Database × Except ClaimRejection ClaimAccepted)}
        (he : evaluateClaim record r.claim r.now = .error e) (hx : ∀ db acc, x ≠ .ok (db, .ok acc)) :
        Admissible s r record ↔ ∃ db acc, x = .ok (db, .ok acc) := by
      simp [Admissible, he, hx]
    cases hcases with
    | accepted he hroom hnonce => exact ⟨fun _ => ⟨_, _, rfl⟩, fun _ => ⟨⟨_, he⟩, hroom, hnonce⟩⟩
    | settled _ he => exact hrefused he (by simp)
    | refused _ he _ _ => exact hrefused he (by simp)
    | full _ hfull =>
      exact ⟨fun had => absurd had.2.1 (Nat.not_lt.mpr hfull), fun hx => by simp at hx⟩
    | nonceTooLarge _ hlarge =>
      exact ⟨fun had => absurd had.2.2 (Nat.not_lt.mpr hlarge), fun hx => by simp at hx⟩

theorem accepted?_attempt {s' : Shared} {accepted : ClaimAccepted} :
    (attempt cfg fails s' { r with stage := .admitted record accepted }).2.accepted? =
      some (record, accepted) := by
  cases hf : fails .forward with
  | true =>
    rw [attempt_of_fails rfl hf]
    rfl
  | false =>
    rw [attempt_of_succeeds rfl hf]
    rfl

/-- With the admission made, the request ends with its claim admitted. -/
theorem serve_admitted {s' : Shared} {clearance : Clearance} {db : Database}
    {accepted : ClaimAccepted} (h : handle cfg fails s r 4 = (s', .cleared record clearance))
    (hf : fails .admitClaim = false)
    (hok : admitClaim cfg.sha256 s'.db r.claim r.signature r.now = .ok (db, .ok accepted)) :
    (serve cfg fails s r).2.accepted? = some (record, accepted) := by
  have hfive : handle cfg fails s r 5 = ({ s' with db := db }, .admitted record accepted) := by
    rw [handle, h, attempt_of_succeeds rfl hf]
    simp only [advance, admitRequest, hok]
  rw [serve, handle, hfive]
  exact accepted?_attempt

/-- Without it, the request ends denied, and an approval it spent is gone. -/
theorem serve_refused {s' : Shared} {clearance : Clearance}
    (h : handle cfg fails s r 4 = (s', .cleared record clearance))
    (hno : fails .admitClaim = true ∨ ¬ ∃ db accepted,
      admitClaim cfg.sha256 s'.db r.claim r.signature r.now = .ok (db, .ok accepted)) :
    (serve cfg fails s r).1.control = s'.control ∧ (serve cfg fails s r).2.accepted? = none := by
  have hdenied : ∃ s'' code, s''.control = s'.control ∧
      handle cfg fails s r 5 = (s'', .denied code) := by
    rw [handle, h]
    cases hf : fails .admitClaim with
    | true =>
      rw [attempt_of_fails rfl hf]
      exact ⟨_, _, rfl, rfl⟩
    | false =>
      rw [attempt_of_succeeds rfl hf]
      rw [hf] at hno
      simp only [advance, admitRequest]
      split
      · exact ⟨s', _, rfl, rfl⟩
      · rename_i db rejection hok
        exact ⟨{ s' with db := db }, _, rfl, rfl⟩
      · rename_i db accepted hok
        rcases hno with hno | hno
        · cases hno
        · exact absurd ⟨db, accepted, hok⟩ hno
  obtain ⟨s'', code, hcontrol, hfive⟩ := hdenied
  rw [serve, handle, hfive, attempt_denied]
  exact ⟨hcontrol, rfl⟩

end Spending

end Stages

/-- A purchase that is not admitted leaves the granted approvals alone. -/
def KeepsApprovals (cfg : Config) (fails : Call → Bool) (s : Shared) (r : Request) : Prop :=
  (serve cfg fails s r).2.accepted? = none →
    approvedRows (serve cfg fails s r).1.control.approvals = approvedRows s.control.approvals

/-- A lone purchase that is not admitted leaves the granted approvals alone, exactly if it does
not forfeit one. Any of its calls may fail, before and after an approval is spent; no other
request moves meanwhile. -/
theorem approvals_kept_iff {cfg : Config} {fails : Call → Bool} {g : Gateway} {r : Request}
    {resource : Text} {price : UInt64} (hg : GatewayReached cfg g) (ha : Arrives r)
    (hk : r.kind = .buy resource price) :
    KeepsApprovals cfg fails g.shared r ↔ ¬ Forfeits cfg fails g.shared r resource price := by
  have hi := intact_reached hg
  constructor
  · intro hkeeps
    rintro ⟨record, agent, policy, spend, hs, hno⟩
    obtain ⟨control, hfour, hlost⟩ := hs.handled ha hk
    rw [admissible_iff hi hs.loaded] at hno
    have hend := serve_refused hfour hno
    have hsame := hkeeps hend.2
    rw [hend.1] at hsame
    exact hlost hsame
  · intro hsafe hnone
    have hpath := @path_handle cfg fails g.shared r resource price ha hk 6
    have hend := @remaining_serve cfg fails g.shared r resource price hk
    change Path cfg fails g.shared r resource price (serve cfg fails g.shared r).1
      (serve cfg fails g.shared r).2 at hpath
    generalize hstage : (serve cfg fails g.shared r).2 = stage at hpath hend
    generalize hshared : (serve cfg fails g.shared r).1 = s' at hpath
    cases hpath with
    | received | authentic | governed | asks => simp [remaining] at hend
    | aside _ hsame => exact hsame
    | @spends _ _ record agent policy spend _ hs =>
      obtain ⟨control, hfour, -⟩ := hs.handled ha hk
      have hgood : fails .admitClaim = false ∧ Admissible g.shared r record := by
        by_contra hbad
        refine hsafe ⟨record, agent, policy, spend, hs, ?_⟩
        rw [not_and_or, Bool.not_eq_false] at hbad
        exact hbad
      obtain ⟨db, accepted, hok⟩ := (admissible_iff hi hs.loaded).mp hgood.2
      rw [serve_admitted hfour hgood.1 hok] at hnone
      cases hnone

/-! ### The shop with a granted approval -/
namespace Shop
export ApprovalRuns.Shop (session config record buy claim500 signature500 supervised)

/-- The proposal the first purchase raises. -/
def proposals : Tables :=
  { supervised.shared.control with
    approvals := [⟨['1'], ['a'], none, ['/', 'a'], 500, 1, .pending⟩] }

/-- A session with this deposit, a purchase that raised a proposal, and a decision that
approved it. -/
def granted (depositedTotal : UInt64) : Gateway := (playGateway config supervised
  [.outside (.control (decideApproval proposals ['1'] true).1),
    .advance 0, .advance 0, .advance 0, .advance 0, .advance 0, .advance 0,
    .arrive (buy 500 claim500 signature500),
    .outside (.openSession { record session with depositedTotal := depositedTotal })]).2

theorem granted_reached (depositedTotal : UInt64) :
    GatewayReached config (granted depositedTotal) :=
  ⟨supervised, _, ⟨rfl, rfl⟩, playGateway_run _ _ _⟩

def again : Request := buy 500 claim500 signature500

theorem again_arrives : Arrives again := rfl

def smooth : Call → Bool := fun _ => false

end Shop

/-- A deposit of 10000 pays for the purchase of 500, and a deposit of 400 does not. -/
theorem approvals_kept_shop :
    ¬ Forfeits Shop.config Shop.smooth (Shop.granted 10000).shared Shop.again ['/', 'a'] 500 ∧
      Forfeits Shop.config Shop.smooth (Shop.granted 400).shared Shop.again ['/', 'a'] 500 := by
  have hkeeps : KeepsApprovals Shop.config Shop.smooth (Shop.granted 10000).shared Shop.again := by
    intro hnone
    exact absurd hnone (by decide +kernel)
  have hloses : ¬ KeepsApprovals Shop.config Shop.smooth (Shop.granted 400).shared Shop.again := by
    intro hk
    exact absurd (hk (by decide +kernel)) (by decide +kernel)
  refine ⟨(approvals_kept_iff (Shop.granted_reached _) Shop.again_arrives rfl).mp hkeeps, ?_⟩
  by_contra hno
  exact hloses ((approvals_kept_iff (Shop.granted_reached _) Shop.again_arrives rfl).mpr hno)

/-- The claim of an approved purchase of 500 on a deposit of 400 is refused, and the
approval is gone. -/
theorem refused_purchase_spends_approval :
    GatewayReached Shop.config (Shop.granted 400) ∧ Arrives Shop.again ∧
      Shop.again.kind = .buy ['/', 'a'] 500 ∧
      (serve Shop.config Shop.smooth (Shop.granted 400).shared Shop.again).2 =
        .denied .claimExceedsDeposit ∧
      approvedRows (Shop.granted 400).shared.control.approvals =
        {⟨['1'], ['a'], none, ['/', 'a'], 500, 1, .approved⟩} ∧
      approvedRows (serve Shop.config Shop.smooth (Shop.granted 400).shared
        Shop.again).1.control.approvals = 0 ∧
      ¬ KeepsApprovals Shop.config Shop.smooth (Shop.granted 400).shared Shop.again := by
  have hdenied : (serve Shop.config Shop.smooth (Shop.granted 400).shared Shop.again).2 =
      .denied .claimExceedsDeposit := by decide +kernel
  have hbefore : approvedRows (Shop.granted 400).shared.control.approvals =
      {⟨['1'], ['a'], none, ['/', 'a'], 500, 1, .approved⟩} := by decide +kernel
  have hafter : approvedRows (serve Shop.config Shop.smooth (Shop.granted 400).shared
      Shop.again).1.control.approvals = 0 := by decide +kernel
  refine ⟨Shop.granted_reached _, Shop.again_arrives, rfl, hdenied, hbefore, hafter, ?_⟩
  intro hk
  have hsame := hk (by rw [hdenied]; rfl)
  rw [hbefore, hafter] at hsame
  exact Multiset.singleton_ne_zero _ hsame.symm

end AgentPay.ForfeitedApprovals
