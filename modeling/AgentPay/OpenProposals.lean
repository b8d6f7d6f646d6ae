import AgentPay.ApprovalRuns

/-!
# Open proposals

A purchase that needs a person looks for a pending proposal of its agent, resource
and price and raises one if there is none. The look and the insertion are two
statements and nothing is locked between them, nor does an index forbid a second
pending row. `raced?` names the steps at which that matters: a look that comes back
empty while another request is on its way to insert a proposal for the same key.

Without such a step there is never more than one open proposal for a key, in any
interleaving of purchases and decisions. After one, two insertions that go through
leave two.
-/
namespace AgentPay.OpenProposals
open SolanaRuntime GatewayClaims SessionStore PolicyRules ControlPlane PaidRequests ApprovalRuns
open Fallible Runs

def openProposals (k : Key) (l : List ApprovalRow) : ℕ :=
  l.countP fun r => k.covers r && r.state = .pending

/-- The key a request looks for a proposal of. -/
def asks? (r : Request) : Option Key :=
  match r.stage, r.kind with
  | .unapproved agent, .buy resource price => some ⟨agent.agentId, resource, price⟩
  | _, _ => none

/-- The key a request is about to raise a proposal for. -/
def proposes? (r : Request) : Option Key :=
  match r.stage, r.kind with
  | .proposing agent, .buy resource price => some ⟨agent.agentId, resource, price⟩
  | _, _ => none

/-- The key of a look that comes back empty while another request is about to
raise a proposal for the same key. -/
def raced? (t : Transition Gateway ApprovalLabel) : Option Key :=
  match t.label with
  | .advance n => do
    let r ← t.before.requests[n]?
    let r' ← t.after.requests[n]?
    let k ← asks? r
    if proposes? r' = some k ∧ t.before.requests.any (fun x => proposes? x = some k) then some k
    else none
  | _ => none

/-! ### Moves -/
section Moves
variable {cfg : Config} {s s' : Shared} {r r' : Request} {stage : Stage} {k : Key}

theorem asks?_eq_some : asks? r = some k ↔ ∃ agent, r.stage = .unapproved agent ∧
    r.kind = .buy k.resource k.price ∧ agent.agentId = k.agentId := by
  unfold asks?
  constructor
  · intro h
    split at h
    · rename_i agent resource price hs hk
      rw [Option.some.injEq] at h
      subst h
      exact ⟨agent, hs, hk, rfl⟩
    · cases h
  · rintro ⟨agent, hs, hk, ha⟩
    rw [hs, hk]
    simp only [ha]

theorem proposes?_eq_some : proposes? r = some k ↔ ∃ agent, r.stage = .proposing agent ∧
    r.kind = .buy k.resource k.price ∧ agent.agentId = k.agentId := by
  unfold proposes?
  constructor
  · intro h
    split at h
    · rename_i agent resource price hs hk
      rw [Option.some.injEq] at h
      subst h
      exact ⟨agent, hs, hk, rfl⟩
    · cases h
  · rintro ⟨agent, hs, hk, ha⟩
    rw [hs, hk]
    simp only [ha]

theorem proposes?_eq_none (h : ∀ agent, r.stage ≠ .proposing agent) : proposes? r = none := by
  rcases hp : proposes? r with _ | k
  · rfl
  · rcases proposes?_eq_some.mp hp with ⟨agent, hs, -⟩
    exact absurd hs (h agent)

/-- A request comes to propose from the look for a proposal, or did before. -/
theorem next_proposing {agent : AgentRecord} (h : Next cfg s r s' stage)
    (hst : stage = .proposing agent) :
    r.stage = .unapproved agent ∨ r.stage = .proposing agent := by
  cases h with
  | proposing hr =>
    cases hst
    exact .inl hr
  | idle => exact .inr hst
  | _ => cases hst

theorem next_quiet (h : Next cfg s r s' stage) (hu : ∀ agent, r.stage ≠ .unapproved agent)
    (hp : ∀ agent, r.stage ≠ .proposing agent) :
    proposes? { r with stage := stage } = none := by
  apply proposes?_eq_none
  intro agent hst
  rcases next_proposing h hst with hr | hr
  · exact hu agent hr
  · exact hp agent hr

inductive ProposalMove (s : Shared) (r : Request) (s' : Shared) (r' : Request) : Prop
  | quiet : proposes? r' = none →
      (∀ k, openProposals k s'.control.approvals ≤ openProposals k s.control.approvals) →
      ProposalMove s r s' r'
  | looked {k : Key} : asks? r = some k → proposes? r' = some k →
      hasPendingApproval s.control k.agentId k.resource k.price = .ok false → s' = s →
      ProposalMove s r s' r'
  | raised {k : Key} : proposes? r = some k → proposes? r' = none →
      (∀ k', openProposals k' s'.control.approvals ≤
        openProposals k' s.control.approvals + if k' = k then 1 else 0) → ProposalMove s r s' r'

theorem openProposals_consumeFirst (p : ApprovalRow → Bool)
    (hp : ∀ a, p a = true → a.state ≠ .pending) (l : List ApprovalRow) :
    openProposals k (consumeFirst p l).1 = openProposals k l := by
  rcases consumeFirst_cases p l with hnone | ⟨l₁, a, l₂, rfl, ha, hdone⟩
  · rw [hnone]
  · rw [hdone]
    simp [openProposals, List.countP_append, hp a ha]

theorem spendUnlocked_proposals {locked : ApprovalRow → Bool} {record : SessionRecord}
    {agent : AgentRecord} {policy : AgentPolicy} {spend : Spend} {resource : Text}
    {price : UInt64} :
    ProposalMove s r (spendUnlocked s locked record agent policy spend resource price).1
      { r with stage := (spendUnlocked s locked record agent policy spend resource price).2 } := by
  unfold spendUnlocked
  rcases toI64 price "approval price" with e | p
  · exact .quiet (proposes?_eq_none (by simp)) fun _ => le_rfl
  · have hcount := fun k => @openProposals_consumeFirst k
      (fun a => matchesApproval agent.agentId resource p .approved a && !locked a)
      (by
        intro a ha
        simp only [matchesApproval, Bool.and_eq_true, decide_eq_true_eq] at ha
        rw [ha.1.2]
        decide) s.control.approvals
    rcases hdone : consumeFirst (fun a => matchesApproval agent.agentId resource p .approved a &&
      !locked a) s.control.approvals with ⟨l, _ | _⟩
    · rw [hdone] at hcount
      simp only [hdone]
      exact .quiet (proposes?_eq_none (by simp)) fun k => (hcount k).le
    · rw [hdone] at hcount
      simp only [hdone]
      exact .quiet (proposes?_eq_none (by simp)) fun k => (hcount k).le

theorem openProposals_eq_zero
    (h : hasPendingApproval s.control k.agentId k.resource k.price = .ok false) :
    openProposals k s.control.approvals = 0 := by
  simp only [hasPendingApproval, bind_eq_ok, pure_eq_ok] at h
  rcases h with ⟨p, hp, hany⟩
  rw [List.any_eq_false] at hany
  rw [openProposals, List.countP_eq_zero]
  intro a ha hc
  apply hany a ha
  simp only [Key.covers, Bool.and_eq_true, decide_eq_true_eq] at hc
  have hprice : a.price = p := by
    rw [← Int64.toInt_inj, hc.1.2, toI64_eq_ok.mp hp]
  simp only [matchesApproval, Bool.and_eq_true, decide_eq_true_eq]
  exact ⟨⟨hc.1.1, hprice⟩, hc.2⟩

theorem lookForProposal_proposals {agent : AgentRecord} {resource : Text} {price : UInt64}
    (hst : r.stage = .unapproved agent) (hk : r.kind = .buy resource price) :
    ProposalMove s r s { r with stage := lookForProposal s agent resource price } := by
  unfold lookForProposal
  rcases hlook : hasPendingApproval s.control agent.agentId resource price with e | _ | _
  · exact .quiet (proposes?_eq_none (by simp)) fun _ => le_rfl
  · exact .looked (k := ⟨agent.agentId, resource, price⟩)
      (asks?_eq_some.mpr ⟨agent, hst, hk, rfl⟩) (proposes?_eq_some.mpr ⟨agent, rfl, hk, rfl⟩)
      hlook rfl
  · exact .quiet (proposes?_eq_none (by simp)) fun _ => le_rfl

theorem openProposals_concat {l : List ApprovalRow} {a : ApprovalRow} :
    openProposals k (l ++ [a]) =
      openProposals k l + if k.covers a = true ∧ a.state = .pending then 1 else 0 := by
  simp [openProposals, List.countP_append, List.countP_singleton]

theorem raiseProposal_proposals {agent : AgentRecord} {resource : Text} {price : UInt64}
    {approvalId : Text} (hst : r.stage = .proposing agent) (hk : r.kind = .buy resource price) :
    ProposalMove s r (raiseProposal s agent resource price approvalId).1
      { r with stage := (raiseProposal s agent resource price approvalId).2 } := by
  unfold raiseProposal
  rcases hok : createApproval s.control agent.agentId resource price approvalId with e | control
  · exact .quiet (proposes?_eq_none (by simp)) fun _ => le_rfl
  · refine .raised (k := ⟨agent.agentId, resource, price⟩)
      (proposes?_eq_some.mpr ⟨agent, hst, hk, rfl⟩) (proposes?_eq_none (by simp)) fun k' => ?_
    simp only [createApproval, bind_eq_ok, require_eq_ok, pure_eq_ok, exists_const] at hok
    rcases hok with ⟨p, hp, -, rfl⟩
    simp only [openProposals_concat]
    split_ifs with hc hkey hkey
    · exact le_rfl
    · refine absurd ?_ hkey
      have hcov : Key.covers ⟨agent.agentId, resource, price⟩
          ⟨approvalId, agent.agentId, none, resource, p, 1, .pending⟩ = true := by
        simp [Key.covers, toI64_eq_ok.mp hp]
      exact covers_inj hc.1 hcov
    · exact Nat.le_succ _
    · exact le_rfl

theorem advance_proposals : ProposalMove s r (advance cfg s r).1
    { r with stage := (advance cfg s r).2 } := by
  have hquiet {x : Shared × Stage} (hn : Next cfg s r x.1 x.2) (hx : x.1.control = s.control)
      (hu : ∀ agent, r.stage ≠ .unapproved agent) (hp : ∀ agent, r.stage ≠ .proposing agent) :
      ProposalMove s r x.1 { r with stage := x.2 } :=
    .quiet (next_quiet hn hu hp) fun k => by rw [hx]
  unfold advance
  split
  · rename_i h
    exact hquiet (next_readSession h) rfl (by simp [h]) (by simp [h])
  · rename_i record h
    exact hquiet (next_readAgent h) rfl (by simp [h]) (by simp [h])
  · rename_i record agent policy resource price h hk
    exact hquiet (next_evaluatePolicy h hk) rfl (by simp [h]) (by simp [h])
  · rename_i record agent policy spend resource price h hk
    rw [spendApproval_eq]
    exact spendUnlocked_proposals
  · rename_i agent resource price h hk
    exact lookForProposal_proposals h hk
  · rename_i agent resource price h hk
    exact raiseProposal_proposals h hk
  · rename_i record clearance h
    have hnext : Next cfg s r (admitRequest cfg s r record).1 (admitRequest cfg s r record).2 :=
      next_admit h
    refine hquiet hnext ?_ (by simp [h]) (by simp [h])
    unfold admitRequest
    split <;> rfl
  · rename_i record accepted h
    exact hquiet (.served h) rfl (by simp [h]) (by simp [h])
  · rename_i hraise
    refine .quiet ?_ fun _ => le_rfl
    rcases hp : proposes? r with _ | k
    · rfl
    · rcases proposes?_eq_some.mp hp with ⟨agent, hs, hk, -⟩
      exact (hraise agent _ _ hs hk).elim

theorem move_proposals (h : ApprovalMove cfg s r s' r') : ProposalMove s r s' r' := by
  cases h with
  | gateway hm =>
    cases hm with
    | handler => exact advance_proposals
    | interrupted =>
      refine .quiet (proposes?_eq_none ?_) fun _ => le_rfl
      intro agent
      cases r.stage <;> simp [Stage.interrupted]
  | contend _ _ => exact spendUnlocked_proposals

end Moves

/-! ### Interleavings -/

/-- At most one open proposal a key; a request that proposes for a key is the only
one, and nothing is open for it yet. -/
structure Exclusive (g : Gateway) : Prop where
  single : ∀ k, openProposals k (rows g) ≤ 1
  ahead : ∀ (n : ℕ) r k, g.requests[n]? = some r → proposes? r = some k →
    openProposals k (rows g) = 0
  alone : ∀ (n m : ℕ) r x k, g.requests[n]? = some r → g.requests[m]? = some x →
    proposes? r = some k → proposes? x = some k → n = m

section Steps
variable {cfg : Config} {s s' : Shared} {rs : List Request} {r r' : Request} {n : ℕ}
variable {g g' : Gateway} {k : Key}

theorem raced?_advance (hr : rs[n]? = some r) :
    raced? ⟨⟨s, rs⟩, .advance n, ⟨s', rs.set n r'⟩⟩ = (asks? r).bind fun k =>
      if proposes? r' = some k ∧ rs.any (fun x => proposes? x = some k) then some k else none := by
  have hset : (rs.set n r')[n]? = some r' := by
    rw [List.getElem?_set_self (List.getElem?_eq_some_iff.mp hr).1]
  simp only [raced?, hr, hset, Option.bind_eq_bind, Option.bind_some]

theorem asks?_of_proposes? (h : proposes? r = some k) : asks? r = none := by
  rcases proposes?_eq_some.mp h with ⟨agent, hs, -⟩
  unfold asks?
  rw [hs]

/-- The rows move within what a quiet step allows. -/
theorem Exclusive.of_le (h : Exclusive ⟨s, rs⟩)
    (hle : ∀ k, openProposals k s'.control.approvals ≤ openProposals k s.control.approvals) :
    Exclusive ⟨s', rs⟩ where
  single k := (hle k).trans (h.single k)
  ahead n r k hr hp := Nat.le_zero.mp ((hle k).trans (h.ahead n r k hr hp).le)
  alone := h.alone

/-- The requests change, and those that propose were there before. -/
theorem Exclusive.of_proposers (h : Exclusive ⟨s, rs⟩) {rs' : List Request}
    (hold : ∀ (m : ℕ) x k, rs'[m]? = some x → proposes? x = some k → rs[m]? = some x) :
    Exclusive ⟨s, rs'⟩ := by
  refine ⟨h.single, ?_, ?_⟩
  · intro m x k hx hp
    exact h.ahead m x k (hold m x k hx hp) hp
  · intro m m' x x' k hx hx' hp hp'
    exact h.alone m m' x x' k (hold m x k hx hp) (hold m' x' k hx' hp') hp hp'

theorem Exclusive.set_quiet (h : Exclusive ⟨s, rs⟩) (hq : proposes? r' = none) :
    Exclusive ⟨s, rs.set n r'⟩ := by
  apply h.of_proposers
  intro m x k hx hp
  rcases RequestPool.getElem?_set_cases hx with ⟨-, rfl⟩ | ⟨-, hx⟩
  · rw [hq] at hp
    cases hp
  · exact hx

theorem Exclusive.append_quiet (h : Exclusive ⟨s, rs⟩) (hq : proposes? r = none) :
    Exclusive ⟨s, rs ++ [r]⟩ := by
  apply h.of_proposers
  intro m x k hx hp
  rcases RequestPool.getElem?_append_singleton hx with hx | rfl
  · exact hx
  · rw [hq] at hp
    cases hp

/-- A request that has looked proposes; no other does for its key. -/
theorem Exclusive.set_looked (h : Exclusive ⟨s, rs⟩) (hr : rs[n]? = some r)
    (hask : asks? r = some k) (hp : proposes? r' = some k)
    (hzero : openProposals k s.control.approvals = 0)
    (hquiet : raced? ⟨⟨s, rs⟩, .advance n, ⟨s, rs.set n r'⟩⟩ = none) :
    Exclusive ⟨s, rs.set n r'⟩ := by
  have hnone : ∀ (m : ℕ) x, rs[m]? = some x → proposes? x ≠ some k := by
    intro m x hx hpx
    rw [raced?_advance hr, hask, Option.bind_some, if_pos] at hquiet
    · cases hquiet
    · refine ⟨hp, ?_⟩
      rw [List.any_eq_true]
      exact ⟨x, List.mem_of_getElem? hx, decide_eq_true hpx⟩
  refine ⟨h.single, ?_, ?_⟩
  · intro m x k' hx hpx
    rcases RequestPool.getElem?_set_cases hx with ⟨-, rfl⟩ | ⟨-, hx⟩
    · rw [hp, Option.some.injEq] at hpx
      rw [← hpx]
      exact hzero
    · exact h.ahead m x k' hx hpx
  · intro m m' x x' k' hx hx' hpx hpx'
    rcases RequestPool.getElem?_set_cases hx with ⟨hm, he⟩ | ⟨-, hold⟩
    · rw [he, hp, Option.some.injEq] at hpx
      rcases RequestPool.getElem?_set_cases hx' with ⟨hm', -⟩ | ⟨-, hold'⟩
      · rw [hm, hm']
      · exact absurd (hpx ▸ hpx') (hnone m' x' hold')
    · rcases RequestPool.getElem?_set_cases hx' with ⟨-, he'⟩ | ⟨-, hold'⟩
      · rw [he', hp, Option.some.injEq] at hpx'
        exact absurd (hpx' ▸ hpx) (hnone m x hold)
      · exact h.alone m m' x x' k' hold hold' hpx hpx'

/-- A request that proposed has raised its proposal and is done. -/
theorem Exclusive.set_raised (h : Exclusive ⟨s, rs⟩) (hr : rs[n]? = some r)
    (hp : proposes? r = some k) (hq : proposes? r' = none)
    (hle : ∀ k', openProposals k' s'.control.approvals ≤
      openProposals k' s.control.approvals + if k' = k then 1 else 0) :
    Exclusive ⟨s', rs.set n r'⟩ := by
  have hset := h.set_quiet (n := n) hq
  have hother : ∀ (m : ℕ) x k', (rs.set n r')[m]? = some x → proposes? x = some k' → k' ≠ k := by
    intro m x k' hx hpx hk
    rcases RequestPool.getElem?_set_cases hx with ⟨-, rfl⟩ | ⟨hm, hx⟩
    · rw [hq] at hpx
      cases hpx
    · exact hm (h.alone m n x r k' hx hr hpx (hk ▸ hp))
  refine ⟨?_, ?_, hset.alone⟩
  · intro k'
    have hk' := hle k'
    split_ifs at hk' with hk
    · have hzero := h.ahead n r k hr hp
      rw [hk] at hk' ⊢
      exact hk'.trans (by rw [show openProposals k s.control.approvals = 0 from hzero])
    · exact hk'.trans (h.single k')
  · intro m x k' hx hpx
    have hk' := hle k'
    rw [if_neg (hother m x k' hx hpx)] at hk'
    exact Nat.le_zero.mp (hk'.trans (hset.ahead m x k' hx hpx).le)

theorem decideApproval_proposals (c : Tables) (approvalId : Text) (approved : Bool) :
    openProposals k (decideApproval c approvalId approved).1.approvals ≤
      openProposals k c.approvals := by
  simp only [openProposals, decideApproval, List.countP_map]
  apply List.countP_mono_left
  intro a _ ha
  simp only [Function.comp] at ha
  by_cases hu : undecided approvalId a = true
  · simp only [if_pos hu, covers_state, Bool.and_eq_true] at ha
    simp only [undecided, Bool.and_eq_true, decide_eq_true_eq] at hu
    simp only [ha.1, hu.2, decide_true, Bool.and_true]
  · simpa only [if_neg hu] using ha

theorem exclusive_step {l : ApprovalLabel} (h : Exclusive g) (hs : ApprovalStep cfg g l g')
    (hquiet : raced? ⟨g, l, g'⟩ = none) : Exclusive g' := by
  cases hs with
  | @arrive s rs r ha =>
    apply h.append_quiet
    apply proposes?_eq_none
    intro agent hst
    rw [Arrives, hst] at ha
    split_ifs at ha
  | @advance s s' rs r r' n hr hm =>
    cases move_proposals hm with
    | quiet hq hle => exact (h.of_le hle).set_quiet hq
    | looked hask hp hlook hs =>
      subst hs
      exact h.set_looked hr hask hp (openProposals_eq_zero hlook) hquiet
    | raised hp hq hle => exact h.set_raised hr hp hq hle
  | @outside s s' rs e ho =>
    refine h.of_le ?_
    intro k
    cases ho with
    | gateway he ho =>
      cases ho with
      | control => exact absurd rfl (he _)
      | openSession _ => exact le_rfl
      | markSettled => exact le_rfl
      | markChainVerified _ => exact le_rfl
    | decide => exact decideApproval_proposals _ _ _
    | agents => exact le_rfl

theorem exclusive_run {g₀ : Gateway} {h : History Gateway ApprovalLabel}
    (hr : Run (ApprovalStep cfg) g₀ h g) (hrows : rows g₀ = []) (hidle : g₀.requests = [])
    (hquiet : ∀ t ∈ h, raced? t = none) : Exclusive g := by
  induction hr with
  | start =>
    refine ⟨?_, ?_, ?_⟩
    · intro k
      rw [hrows]
      exact Nat.zero_le 1
    · intro n r k hn
      rw [hidle] at hn
      cases hn
    · intro n m r x k hn
      rw [hidle] at hn
      cases hn
  | step _ hs ih =>
    have hbefore := ih fun t ht => hquiet t (List.mem_cons_of_mem _ ht)
    exact exclusive_step hbefore hs (hquiet _ List.mem_cons_self)

end Steps

/-! ### The race -/

/-- The random ids of the requests are different, and none that is still to be
used stands in the table. -/
structure FreshIds (g : Gateway) : Prop where
  distinct : (g.requests.map Request.approvalId).Nodup
  unused : ∀ r ∈ g.requests, ∀ k, proposes? r = some k → ∀ a ∈ rows g, a.approvalId ≠ r.approvalId

section Races
variable {cfg : Config} {g g' : Gateway} {n m : ℕ} {r x : Request} {k : Key} {p : Int64}

theorem insert_step (cfg : Config) (hr : g.requests[n]? = some r) (hp : proposes? r = some k)
    (hprice : toI64 k.price "approval price" = .ok p)
    (hfresh : ∀ a ∈ rows g, a.approvalId ≠ r.approvalId) :
    ∃ a g', ApprovalStep cfg g (.advance n) g' ∧ rows g' = rows g ++ [a] ∧
      a.approvalId = r.approvalId ∧ k.covers a = true ∧ a.state = .pending ∧
      ∀ j, j ≠ n → g'.requests[j]? = g.requests[j]? := by
  rcases proposes?_eq_some.mp hp with ⟨agent, hst, hkind, hagent⟩
  have hok : createApproval g.shared.control agent.agentId k.resource k.price r.approvalId =
      .ok { g.shared.control with approvals := g.shared.control.approvals ++
        [⟨r.approvalId, agent.agentId, none, k.resource, p, 1, .pending⟩] } := by
    simp only [createApproval, hprice, ok_bind]
    exact bind_eq_ok.mpr ⟨⟨⟩, require_eq_ok.mpr hfresh, rfl⟩
  have hadv : advance cfg g.shared r =
      ({ g.shared with control := { g.shared.control with
          approvals := g.shared.control.approvals ++
            [⟨r.approvalId, agent.agentId, none, k.resource, p, 1, .pending⟩] } },
        .denied .approvalRequired) := by
    unfold advance
    rw [hst, hkind]
    simp only [raiseProposal, hok]
  have hmove : ApprovalMove cfg g.shared r (advance cfg g.shared r).1
      { r with stage := (advance cfg g.shared r).2 } := .gateway .handler
  rw [hadv] at hmove
  refine ⟨_, _, .advance hr hmove, rfl, rfl, ?_, rfl, ?_⟩
  · simp [Key.covers, hagent, toI64_eq_ok.mp hprice]
  · intro j hj
    exact List.getElem?_set_ne (Ne.symm hj)

/-- Two requests that propose for one key leave two open proposals. -/
theorem insert_both (cfg : Config) (hn : g.requests[n]? = some r) (hm : g.requests[m]? = some x)
    (hnm : m ≠ n) (hr : proposes? r = some k) (hx : proposes? x = some k)
    (hprice : toI64 k.price "approval price" = .ok p) (hids : FreshIds g) :
    ∃ h g', Run (ApprovalStep cfg) g h g' ∧ 2 ≤ openProposals k (rows g') := by
  have hne : r.approvalId ≠ x.approvalId := by
    intro he
    have hlt := (List.getElem?_eq_some_iff.mp hn).1
    have hlt' := (List.getElem?_eq_some_iff.mp hm).1
    have hget : (g.requests.map Request.approvalId)[m]? =
        (g.requests.map Request.approvalId)[n]? := by
      rw [List.getElem?_map, List.getElem?_map, hn, hm, Option.map_some, Option.map_some, he]
    exact hnm ((List.getElem?_inj (by simpa using hlt') hids.distinct).mp hget)
  rcases insert_step cfg hn hr hprice (hids.unused r (List.mem_of_getElem? hn) k hr)
    with ⟨a, g₁, hs₁, hrows₁, hid, hcov, hstate, hkeep⟩
  have hfresh : ∀ b ∈ rows g₁, b.approvalId ≠ x.approvalId := by
    intro b hb
    rw [hrows₁, List.mem_append, List.mem_singleton] at hb
    rcases hb with hb | rfl
    · exact hids.unused x (List.mem_of_getElem? hm) k hx b hb
    · rwa [hid]
  rcases insert_step cfg ((hkeep m hnm).trans hm) hx hprice hfresh
    with ⟨b, g₂, hs₂, hrows₂, -, hcov', hstate', -⟩
  refine ⟨_, g₂, .step (.step .start hs₁) hs₂, ?_⟩
  rw [hrows₂, hrows₁, openProposals_concat, openProposals_concat, if_pos ⟨hcov, hstate⟩,
    if_pos ⟨hcov', hstate'⟩]
  omega

/-- A raced look is a look that finds nothing, with another request that proposes. -/
theorem raced_requests {l : ApprovalLabel} (hs : ApprovalStep cfg g l g')
    (hraced : raced? ⟨g, l, g'⟩ = some k) :
    ∃ (n m : ℕ) (r x : Request), m ≠ n ∧ g'.requests[n]? = some r ∧ g'.requests[m]? = some x ∧
      proposes? r = some k ∧ proposes? x = some k ∧
      ∃ p, toI64 k.price "approval price" = .ok p := by
  cases hs with
  | arrive => cases hraced
  | outside => cases hraced
  | @advance s s' rs r r' n hr hm =>
    rw [raced?_advance hr, Option.bind_eq_some_iff] at hraced
    rcases hraced with ⟨k', hask, hraced⟩
    split_ifs at hraced with hboth
    rw [Option.some.injEq] at hraced
    subst hraced
    rw [List.any_eq_true] at hboth
    rcases hboth with ⟨hp, x, hmem, hx⟩
    rw [decide_eq_true_eq] at hx
    rcases List.getElem?_of_mem hmem with ⟨m, hget⟩
    have hmn : m ≠ n := by
      rintro rfl
      rw [hr, Option.some.injEq] at hget
      rw [hget, asks?_of_proposes? hx] at hask
      cases hask
    refine ⟨n, m, r', x, hmn, ?_, ?_, hp, hx, ?_⟩
    · exact List.getElem?_set_self (List.getElem?_eq_some_iff.mp hr).1
    · rw [List.getElem?_set_ne (Ne.symm hmn)]
      exact hget
    · cases move_proposals hm with
      | quiet hq _ =>
        rw [hp] at hq
        cases hq
      | raised hp' _ _ =>
        rw [asks?_of_proposes? hp'] at hask
        cases hask
      | looked hask' _ hlook _ =>
        rw [hask, Option.some.injEq] at hask'
        subst hask'
        simp only [hasPendingApproval, bind_eq_ok] at hlook
        exact ⟨hlook.choose, hlook.choose_spec.1⟩

end Races

/-- Without a raced look no key has two open proposals; after one, the two insertions lead
there, as long as the ids they bring are new, which random ones are taken to be. -/
theorem one_open_proposal {cfg : Config} {g₀ g : Gateway} {h : History Gateway ApprovalLabel}
    (hr : Run (ApprovalStep cfg) g₀ h g) (hrows : rows g₀ = []) (hidle : g₀.requests = []) :
    ((∀ t ∈ h, raced? t = none) → ∀ k, openProposals k (rows g) ≤ 1) ∧
      ∀ t earlier k, h = t :: earlier → raced? t = some k → FreshIds g →
        ∃ h' g', Run (ApprovalStep cfg) g h' g' ∧ 2 ≤ openProposals k (rows g') := by
  refine ⟨fun hquiet k => (exclusive_run hr hrows hidle hquiet).single k, ?_⟩
  rintro t earlier k rfl hraced hids
  cases hr with
  | @step _ s _ i _ hs =>
    rcases raced_requests hs hraced with ⟨n, m, r, x, hmn, hn, hm, hr, hx, p, hp⟩
    exact insert_both cfg hn hm hmn hr hx hp hids

/-! ### A shop whose agent asks twice -/
namespace Shop
export ApprovalRuns.Shop (config supervised key buy claim500 signature500 record session)

/-- The same purchase under two ids, as a client sends it that does not wait. -/
def first : Request := buy 500 claim500 signature500
def second : Request := { first with approvalId := ['2'] }

def arrived : List ApprovalLabel :=
  [.arrive second, .arrive first, .outside (.gateway (.openSession (record session)))]

/-- One after the other: the second finds the proposal of the first. -/
def inTurn : History Gateway ApprovalLabel × Gateway := playApprovals config supervised
  (List.replicate 6 (.advance 1) ++ List.replicate 6 (.advance 0) ++ arrived)

def atOnce : History Gateway ApprovalLabel × Gateway := playApprovals config supervised
  ([.advance 1, .advance 0] ++ List.replicate 5 (.advance 1) ++ List.replicate 5 (.advance 0) ++
    arrived)

end Shop

theorem one_open_proposal_shop :
    openProposals Shop.key (rows Shop.inTurn.2) = 1 ∧
      ∀ k, openProposals k (rows Shop.inTurn.2) ≤ 1 := by
  have hrun : Run (ApprovalStep Shop.config) Shop.supervised Shop.inTurn.1 Shop.inTurn.2 :=
    playApprovals_run _ _ _
  exact ⟨by decide +kernel, (one_open_proposal hrun rfl rfl).1 (by decide +kernel)⟩

/-- At once, two proposals are open for one purchase. -/
theorem two_open_proposals :
    Run (ApprovalStep Shop.config) Shop.supervised Shop.atOnce.1 Shop.atOnce.2 ∧
      rows Shop.supervised = [] ∧ Shop.supervised.requests = [] ∧
      openProposals Shop.key (rows Shop.atOnce.2) = 2 :=
  ⟨playApprovals_run _ _ _, rfl, rfl, by decide +kernel⟩

end AgentPay.OpenProposals
