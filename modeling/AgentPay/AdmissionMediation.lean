import AgentPay.SpendingEnvelope

/-!
# Suspension and policy at every admission

Two endpoints reach `admit_claim`. `buy` looks the agent up and evaluates its
policy first; `verify_claim` does neither. The theorem is about whole histories:
for every admission it finds, among the earlier steps of the same request, the
lookup that saw the agent active and the evaluation that permitted the amount
admitted. It holds in every run in which `verify_claim` admits nothing for an
agent that is suspended or has a policy, and in which a purchase under a policy
is admitted at the mark it was priced at.
-/
namespace AgentPay.AdmissionMediation
open SolanaRuntime EscrowState GatewayClaims SessionStore PolicyRules ControlPlane PaidRequests
open RequestPool PaidInFull SpendingEnvelope Fallible Runs

section Histories
variable (agent : Pubkey) (n : ℕ)

def Suspended (g : Gateway) : Prop :=
  (findAgent g.shared.control agent).map AgentRow.status = some .suspended

/-- The agent is registered and has a policy. -/
def UnderPolicy (g : Gateway) : Prop := (findAgent g.shared.control agent).bind AgentRow.policy ≠ none

instance : DecidablePred (Suspended agent) := fun g =>
  inferInstanceAs (Decidable ((findAgent g.shared.control agent).map AgentRow.status = _))

instance : DecidablePred (UnderPolicy agent) := fun g =>
  inferInstanceAs (Decidable (¬ (findAgent g.shared.control agent).bind AgentRow.policy = none))

/-- The step is a move of request `n`. -/
def MoveOf (u : Transition Gateway GatewayLabel) : Prop :=
  u.label = .advance n ∧ n < u.before.requests.length

/-- In this step request `n`, a purchase at the price `amount`, evaluates its agent's policy
on that price, and is not refused. -/
def Evaluates (amount : UInt64) (u : Transition Gateway GatewayLabel) : Prop :=
  u.label = .advance n ∧ ∃ r record a p resource spend, u.before.requests[n]? = some r ∧
    r.stage = .identified record a p ∧ record.agent = agent ∧ r.kind = .buy resource amount ∧
    agentSpend u.before.shared.db agent = .ok spend ∧
    (evaluate a.status a.mode p resource amount spend).Permits

/-- In this step request `n` has a claim on a session of the agent admitted. -/
def Admits (acc : ClaimAccepted) (t : Transition Gateway GatewayLabel) : Prop :=
  t.label = .advance n ∧
    (∃ r, t.before.requests[n]? = some r ∧ r.stage.accepted? = none) ∧
    ∃ r record, t.after.requests[n]? = some r ∧ r.stage.accepted? = some (record, acc) ∧
      record.agent = agent

/-- What mediates an admission `t` of an amount after the steps `earlier`: the
agent was not suspended for the whole of the request, and if it was under a
policy for the whole of it, the policy was evaluated on the amount. -/
structure Mediated (amount : UInt64) (t : Transition Gateway GatewayLabel)
    (earlier : History Gateway GatewayLabel) : Prop where
  unsuspended : ¬ ∀ u ∈ t :: earlier, n < u.before.requests.length → Suspended agent u.before
  evaluated : (∀ u ∈ t :: earlier, n < u.before.requests.length → UnderPolicy agent u.before) →
    ∃ u ∈ earlier, Evaluates agent n amount u

/-- Some earlier move of the request saw the agent not suspended. -/
def SeenActive (h : History Gateway GatewayLabel) : Prop :=
  ∃ u ∈ h, MoveOf n u ∧ ¬ Suspended agent u.before

/-- Some earlier move of the request saw the agent without a policy. -/
def SeenFree (h : History Gateway GatewayLabel) : Prop :=
  ∃ u ∈ h, MoveOf n u ∧ ¬ Suspended agent u.before ∧ ¬ UnderPolicy agent u.before

end Histories

/-- The earlier steps a request's stage stands on. -/
def Trail (h : History Gateway GatewayLabel) (n : ℕ) (r : Request) : Prop :=
  match r.stage with
  | .identified record _ _ => SeenActive record.agent n h
  | .approving record _ _ _ => SeenActive record.agent n h ∧
      ∀ resource price, r.kind = .buy resource price → ∃ u ∈ h, Evaluates record.agent n price u
  | .cleared record (.evaluated _ _ _) => SeenActive record.agent n h ∧
      ∀ resource price, r.kind = .buy resource price → ∃ u ∈ h, Evaluates record.agent n price u
  | .cleared record .unregistered => SeenFree record.agent n h
  | .cleared record (.unrestricted _) => SeenFree record.agent n h
  | .cleared _ .unchecked => r.kind = .verify
  | _ => True

def Candidate.MediatedIn (agent : Pubkey) (g : Gateway) (c : Candidate) : Prop :=
  (Suspended agent g ∨ UnderPolicy agent g → c.request.kind ≠ .verify) ∧
    (UnderPolicy agent g →
      c.record.cumulativeAccepted.toNat = g.shared.db.mark c.request.claim.session)

instance (agent : Pubkey) (g : Gateway) (c : Candidate) :
    Decidable (Candidate.MediatedIn agent g c) :=
  inferInstanceAs (Decidable ((Suspended agent g ∨ UnderPolicy agent g → _) ∧
    (UnderPolicy agent g → _)))

def AdmitsOnlyMediated (agent : Pubkey) (cfg : Config) (g : Gateway) (l : GatewayLabel) : Prop :=
  ∀ c ∈ candidate? cfg g l, c.record.agent = agent → Candidate.MediatedIn agent g c

instance (agent : Pubkey) (cfg : Config) (g : Gateway) (l : GatewayLabel) :
    Decidable (AdmitsOnlyMediated agent cfg g l) :=
  inferInstanceAs (Decidable (∀ c ∈ candidate? cfg g l, c.record.agent = agent → _))

section Lookups
variable {agent : Pubkey} {g : Gateway} {a : AgentRecord}

theorem free_of_unregistered (h : getAgentByPubkey g.shared.control agent = .ok none) :
    ¬ Suspended agent g ∧ ¬ UnderPolicy agent g := by
  simp [Suspended, UnderPolicy, getAgentByPubkey_eq_none h]

theorem active_of_lookup (h : getAgentByPubkey g.shared.control agent = .ok (some a))
    (ha : a.status = .active) : ¬ Suspended agent g := by
  obtain ⟨row, hrow, hrec⟩ := getAgentByPubkey_eq_some h
  have hs := agentFromRow_status hrec
  simp [Suspended, hrow, ← hs, ha]

theorem bare_of_lookup (h : getAgentByPubkey g.shared.control agent = .ok (some a))
    (hp : a.policy = none) : ¬ UnderPolicy agent g := by
  obtain ⟨row, hrow, hrec⟩ := getAgentByPubkey_eq_some h
  have hnone : row.policy = none := by
    by_contra hne
    exact agentFromRow_policy hrec hne hp
  simp [UnderPolicy, hrow, hnone]

end Lookups

section Trails
variable {cfg : Config} {h : History Gateway GatewayLabel} {n : ℕ} {r : Request}
variable {t : Transition Gateway GatewayLabel} {stage : Stage} {s' : Shared}

theorem Trail.cons (hr : Trail h n r) : Trail (t :: h) n r := by
  have hmem : ∀ {P : Transition Gateway GatewayLabel → Prop}, (∃ u ∈ h, P u) → ∃ u ∈ t :: h, P u :=
    fun ⟨u, hu, hp⟩ => ⟨u, List.mem_cons_of_mem _ hu, hp⟩
  unfold Trail at hr ⊢
  split at hr
  · exact hmem hr
  · exact ⟨hmem hr.1, fun resource price hk => hmem (hr.2 resource price hk)⟩
  · exact ⟨hmem hr.1, fun resource price hk => hmem (hr.2 resource price hk)⟩
  · exact hmem hr
  · exact hmem hr
  · exact hr
  · trivial

/-- A move extends the trail of its request by itself. -/
theorem trail_next (hlabel : t.label = .advance n) (hget : t.before.requests[n]? = some r)
    (hn : Next cfg t.before.shared r s' stage) (hr : Trail h n r) :
    Trail (t :: h) n { r with stage := stage } := by
  have hlen : n < t.before.requests.length := (List.getElem?_eq_some_iff.mp hget).1
  have hold : Trail (t :: h) n r := hr.cons
  cases hn with
  | unregistered _ hlook =>
    exact ⟨t, List.mem_cons_self, ⟨hlabel, hlen⟩, free_of_unregistered hlook⟩
  | unrestricted _ hlook hact hpol =>
    exact ⟨t, List.mem_cons_self, ⟨hlabel, hlen⟩, active_of_lookup hlook hact,
      bare_of_lookup hlook hpol⟩
  | identified _ hlook hact _ =>
    exact ⟨t, List.mem_cons_self, ⟨hlabel, hlen⟩, active_of_lookup hlook hact⟩
  | @evaluated record a p spend resource price hstage hk hsp heval
  | @approving record a p spend resource price hstage hk hsp heval =>
    simp only [Trail, hstage] at hold
    refine ⟨hold, ?_⟩
    intro resource' price' hk'
    rw [show r.kind = .buy resource' price' from hk'] at hk
    cases hk
    refine ⟨t, List.mem_cons_self, hlabel, r, record, a, p, resource, spend, hget, hstage, rfl,
      hk', hsp, ?_⟩
    rw [heval]
    exact nofun
  | approved hstage =>
    simp only [Trail, hstage] at hold
    exact hold
  | verified _ hk _ => exact hk
  | idle => exact hold
  | _ => trivial

theorem trail_arrives (ha : Arrives r) : Trail h n r := by
  rw [Arrives] at ha
  unfold Trail
  rw [ha]
  split_ifs <;> trivial

/-- Every request of a run has its trail in the history. -/
theorem trail_run {g₀ g : Gateway} (hr : Run (GatewayStep cfg) g₀ h g) (h₀ : g₀.requests = []) :
    ∀ n r, g.requests[n]? = some r → Trail h n r := by
  induction hr with
  | start =>
    intro n r hn
    simp [h₀] at hn
  | @step h g g' l _ hs ih =>
    intro n r hn
    cases hs with
    | @arrive s rs x ha =>
      rcases getElem?_append_singleton hn with hn | rfl
      · exact (ih n r hn).cons
      · exact trail_arrives ha
    | @advance s s' rs x x' m hx hm =>
      obtain ⟨he, hnext⟩ := move_next hm
      rcases getElem?_set_cases hn with ⟨rfl, rfl⟩ | ⟨-, hn⟩
      · rw [he]
        exact trail_next rfl hx hnext (ih n x hx)
      · exact (ih n r hn).cons
    | @outside s s' rs e ho => exact (ih n r hn).cons

theorem admits_cleared {agent : Pubkey} {acc : ClaimAccepted}
    (hs : GatewayStep cfg t.before t.label t.after) (ha : Admits agent n acc t) :
    ∃ r record clearance db, t.before.requests[n]? = some r ∧ r.stage = .cleared record clearance ∧
      record.agent = agent ∧ admitClaim cfg.sha256 t.before.shared.db r.claim r.signature r.now =
        .ok (db, .ok acc) := by
  obtain ⟨before, label, after⟩ := t
  obtain ⟨hlabel, ⟨r, hr, hnone⟩, r', record, hr', hacc, hagent⟩ := ha
  simp only at hlabel hr hr' hs ⊢
  subst hlabel
  cases hs with
  | @advance s s' rs x x' _ hx hm =>
    simp only at hr hr' ⊢
    obtain rfl := Option.some.inj (hx.symm.trans hr)
    rcases getElem?_set_cases hr' with ⟨-, rfl⟩ | ⟨hne, -⟩
    · rcases next_accepted (move_next hm).2 with hsame | ⟨record', clearance, db, acc', hst, hok, -, hst'⟩
      · rw [hsame, hnone] at hacc
        cases hacc
      · rw [hst'] at hacc
        cases hacc
        exact ⟨x, record, clearance, db, hr, hst, hagent, hok⟩
    · exact absurd rfl hne

end Trails

/-- In every run that meets the side condition, each admission on a session of the agent is
mediated: the history holds the lookup that saw the agent and the evaluation of the very amount
that is admitted. -/
theorem admissions_mediated {cfg : Config} {agent : Pubkey} {g₀ g : Gateway}
    {h later earlier : History Gateway GatewayLabel} {t : Transition Gateway GatewayLabel} {n : ℕ}
    {acc : ClaimAccepted} (hr : Run (GatewayStep cfg) g₀ h g) (h₀ : g₀.requests = [])
    (hc : ∀ t ∈ h, AdmitsOnlyMediated agent cfg t.before t.label) (he : h = later ++ t :: earlier)
    (ha : Admits agent n acc t) : Mediated agent n acc.delta t earlier := by
  obtain ⟨hrun, hs⟩ := hr.split he
  obtain ⟨r, record, clearance, db, hget, hstage, rfl, hok⟩ := admits_cleared hs ha
  have hlen : n < t.before.requests.length := (List.getElem?_eq_some_iff.mp hget).1
  have htrail := trail_run hrun h₀ n r hget
  have hcand : candidate? cfg t.before t.label = some ⟨r, record, clearance⟩ := by
    rw [ha.1]
    exact candidate?_eq hget hstage hok
  obtain ⟨hbuy, hmark⟩ := hc t (by rw [he]; simp) _ hcand rfl
  simp only at hbuy hmark
  have hpriced : Each (fun _ r => Priced r) t.before := by
    refine hrun.invariant_all (fun _ _ _ hp hs => priced_step hs hp) ?_
    intro m x hx
    simp [h₀] at hx
  cases hclear : clearance with
  | unchecked =>
    simp only [Trail, hstage, hclear] at htrail
    refine ⟨fun hall => ?_, fun hall => ?_⟩
    · exact hbuy (.inl (hall t List.mem_cons_self hlen)) htrail
    · exact absurd htrail (hbuy (.inr (hall t List.mem_cons_self hlen)))
  | unregistered | unrestricted =>
    simp only [Trail, hstage, hclear] at htrail
    obtain ⟨u, hu, hmove, hact, hfree⟩ := htrail
    refine ⟨fun hall => ?_, fun hall => ?_⟩
    · exact hact (hall u (List.mem_cons_of_mem _ hu) hmove.2)
    · exact absurd (hall u (List.mem_cons_of_mem _ hu) hmove.2) hfree
  | evaluated a p spend =>
    simp only [Trail, hstage, hclear] at htrail
    obtain ⟨⟨u, hu, hmove, hact⟩, heval⟩ := htrail
    refine ⟨fun hall => hact (hall u (List.mem_cons_of_mem _ hu) hmove.2), fun hall => ?_⟩
    have hpol := hall t List.mem_cons_self hlen
    obtain ⟨resource, price, hk⟩ := kind_of_ne_verify (hbuy (.inr hpol))
    have hdelta : acc.delta = price :=
      (delta_eq_price_iff (hpriced n r hget) hstage hk hok).mpr (hmark hpol)
    rw [hdelta]
    exact heval resource price hk

namespace Shop
export SpendingEnvelope.Shop (agent agentRecord policy session config idle record registry buy
  claim500 signature500)

/-- One purchase of 500 under a policy, up to its evaluation. -/
def cleared : List GatewayLabel :=
  [.advance 0, .advance 0, .advance 0, .arrive (buy 500 claim500 signature500),
    .outside (.openSession (record session))]

/-- The agent is suspended; then its claim for 500 is sent to the other endpoint. -/
def suspended : List GatewayLabel :=
  [.advance 0, .arrive ⟨.verify, claim500, signature500, 2000, [], .received⟩,
    .outside (.control (setAgentStatus (registry .active) ['a'] .suspended none)),
    .outside (.openSession (record session))]

def purchase : History Gateway GatewayLabel × Gateway :=
  playGateway config (idle .active) (.advance 0 :: cleared)

def bypass : History Gateway GatewayLabel × Gateway :=
  playGateway config (idle .active) (.advance 0 :: suspended)

def purchaseStep : Transition Gateway GatewayLabel :=
  ⟨(playGateway config (idle .active) cleared).2, .advance 0, purchase.2⟩

def bypassStep : Transition Gateway GatewayLabel :=
  ⟨(playGateway config (idle .active) suspended).2, .advance 0, bypass.2⟩

theorem purchase_history :
    purchase.1 = [] ++ purchaseStep :: (playGateway config (idle .active) cleared).1 :=
  play_cons (by decide +kernel)

theorem bypass_history :
    bypass.1 = [] ++ bypassStep :: (playGateway config (idle .active) suspended).1 :=
  play_cons (by decide +kernel)

end Shop

/-- A purchase of 500 by an agent under a policy was evaluated on 500. -/
theorem admissions_mediated_purchase :
    Admits Shop.agent 0 ⟨500, 0, 500, 1⟩ Shop.purchaseStep ∧
      ∃ u ∈ (playGateway Shop.config (Shop.idle .active) Shop.cleared).1,
        Evaluates Shop.agent 0 500 u := by
  have hrun : Run (GatewayStep Shop.config) (Shop.idle .active) Shop.purchase.1 Shop.purchase.2 :=
    playGateway_run _ _ _
  have ha : Admits Shop.agent 0 ⟨500, 0, 500, 1⟩ Shop.purchaseStep := by
    refine ⟨rfl, ⟨{ Shop.buy 500 Shop.claim500 Shop.signature500 with
      stage := .cleared (Shop.record Shop.session)
        (.evaluated Shop.agentRecord Shop.policy ⟨0, 0⟩) }, by decide +kernel, rfl⟩, ?_⟩
    exact ⟨{ Shop.buy 500 Shop.claim500 Shop.signature500 with
      stage := .admitted (Shop.record Shop.session) ⟨500, 0, 500, 1⟩ },
      Shop.record Shop.session, by decide +kernel, rfl, rfl⟩
  have hm := admissions_mediated hrun rfl (by decide +kernel) Shop.purchase_history ha
  exact ⟨ha, hm.evaluated (by decide +kernel)⟩

/-- The claim of an agent that was suspended before the request arrived, and
that has a policy, is admitted. -/
theorem suspended_agent_admitted :
    Run (GatewayStep Shop.config) (Shop.idle .active) Shop.bypass.1 Shop.bypass.2 ∧
      Shop.bypass.1 =
        [] ++ Shop.bypassStep :: (playGateway Shop.config (Shop.idle .active) Shop.suspended).1 ∧
      Admits Shop.agent 0 ⟨500, 0, 500, 1⟩ Shop.bypassStep ∧
      ¬ Mediated Shop.agent 0 500 Shop.bypassStep
        (playGateway Shop.config (Shop.idle .active) Shop.suspended).1 := by
  refine ⟨playGateway_run _ _ _, Shop.bypass_history, ⟨rfl, ?_, ?_⟩, ?_⟩
  · exact ⟨⟨.verify, Shop.claim500, Shop.signature500, 2000, [],
      .cleared (Shop.record Shop.session) .unchecked⟩, by decide +kernel, rfl⟩
  · exact ⟨⟨.verify, Shop.claim500, Shop.signature500, 2000, [],
      .admitted (Shop.record Shop.session) ⟨500, 0, 500, 1⟩⟩, Shop.record Shop.session,
      by decide +kernel, rfl, rfl⟩
  · intro hm
    exact hm.unsuspended (by decide +kernel)

end AgentPay.AdmissionMediation
