import AgentPay.PaidInFull

/-!
# The spending envelope of an agent over all interleavings

`enforce_agent_policy` evaluates the policy against a spend it read, and the
admission that follows is another transaction, under the lock of one session
only. The cap on a single call holds in every run, for it is about the price
alone (`perCall_step`). The totals hold in every run in which each purchase, at
its admission, would still be permitted against the spend of that moment.

The books come first: the amounts admitted through purchases never exceed what
`agent_spend` derives from the money tables.
-/
namespace AgentPay.SpendingEnvelope
open SolanaRuntime EscrowState ClaimMessage GatewayClaims EvidenceLog SessionStore PolicyRules
open ControlPlane PaidRequests RequestPool PaidInFull Fallible Runs

section Purchases
variable (agent : Pubkey)

/-- The acceptance of an admitted purchase on a session of the agent. -/
def purchase? (r : Request) : Option ClaimAccepted :=
  match r.kind, r.stage.accepted? with
  | .buy _ _, some (record, acc) => if record.agent = agent then some acc else none
  | _, _ => none

/-- The amount the agent spent in a request. -/
def bought (r : Request) : ℕ :=
  match purchase? agent r with
  | some acc => acc.delta.toNat
  | none => 0

/-- One for a request that is a purchase of the agent. -/
def purchased (r : Request) : ℕ := if (purchase? agent r).isSome then 1 else 0

/-- The caps of a policy on everything the agent bought. -/
structure Envelope (p : AgentPolicy) (g : Gateway) : Prop where
  total : total (bought agent) g.requests ≤ p.maxTotal.toNat
  calls : ∀ limit, p.maxCalls = some limit → RequestPool.total (purchased agent) g.requests ≤
    limit.toNat
  perCall : ∀ r ∈ g.requests, bought agent r ≤ p.maxPerCall.toNat

end Purchases

/-- The session a request works on is the one its record was read from. -/
def Grounded (s : Shared) (r : Request) : Prop :=
  ∀ record, r.stage.record? = some record → ∃ row, s.db.sessions r.claim.session = some row ∧
    row.agent = record.agent ∧ record.cumulativeAccepted.toNat ≤ s.db.mark r.claim.session

/-- What the tables know of an agent's purchases. -/
structure Booked (agent : Pubkey) (g : Gateway) : Prop where
  nonneg : ∀ k, 0 ≤ g.shared.db.amount k
  listed : ∀ k, g.shared.db.sessions k ≠ none → k ∈ g.shared.db.order
  grounded : Each Grounded g
  spent : (total (bought agent) g.requests : ℤ) ≤ spentTotal g.shared.db agent
  calls : total (purchased agent) g.requests ≤ allowedCount g.shared.db agent

section Effects
variable {cfg : Config} {s s' : Shared} {r : Request} {stage : Stage} {agent : Pubkey}
variable {record : SessionRecord} {clearance : Clearance} {db : Database} {acc : ClaimAccepted}

theorem purchase_same (h : stage.accepted? = r.stage.accepted?) :
    purchase? agent { r with stage := stage } = purchase? agent r := by
  simp only [purchase?, h]

theorem purchase_none (h : r.stage.accepted? = none) : purchase? agent r = none := by
  unfold purchase?
  rw [h]
  split <;> trivial

theorem bought_none (h : r.stage.accepted? = none) : bought agent r = 0 := by
  unfold bought
  rw [purchase_none h]

theorem purchased_none (h : r.stage.accepted? = none) : purchased agent r = 0 := by
  unfold purchased
  rw [purchase_none h]
  rfl

/-- A purchase that is just admitted is one of the agent's or counts nothing. -/
theorem purchase_admitted :
    (∃ resource price, r.kind = .buy resource price ∧ record.agent = agent ∧
      bought agent { r with stage := .admitted record acc } = acc.delta.toNat ∧
      purchased agent { r with stage := .admitted record acc } = 1) ∨
    (bought agent { r with stage := .admitted record acc } = 0 ∧
      purchased agent { r with stage := .admitted record acc } = 0) := by
  by_cases hon : r.kind ≠ .verify ∧ record.agent = agent
  · obtain ⟨resource, price, hk⟩ := kind_of_ne_verify hon.1
    have hp : purchase? agent { r with stage := .admitted record acc } = some acc := by
      simp [purchase?, hk, hon.2, Stage.accepted?]
    refine .inl ⟨resource, price, hk, hon.2, ?_, ?_⟩
    · rw [bought, hp]
    · rw [purchased, hp]
      rfl
  · have hp : purchase? agent { r with stage := .admitted record acc } = none := by
      unfold purchase?
      rw [not_and_or, not_not] at hon
      rcases hon with hk | ha
      · simp [hk]
      · simp only [Stage.accepted?]
        split
        · simp_all
        · rfl
    refine .inr ⟨?_, ?_⟩
    · rw [bought, hp]
    · rw [purchased, hp]
      rfl

theorem Grounded.grows (h : Grounded s r) (hg : Grows s.db s'.db) : Grounded s' r := by
  intro record hrec
  obtain ⟨row, hrow, ha, hm⟩ := h record hrec
  obtain ⟨row', hrow', he⟩ := hg.rows _ row hrow
  refine ⟨row', hrow', ?_, hm.trans (hg.mark _)⟩
  rw [he.terms]
  exact ha

theorem grounded_next (h : Next cfg s r s' stage) (hr : Grounded s r) :
    Grounded s' { r with stage := stage } := by
  intro record hrec
  rcases next_record h hrec with hold | hget
  · exact (hr.grows (next_grows h)) record hold
  · obtain ⟨row, -, hl⟩ := getRecord_loaded hget
    obtain ⟨row', hrow', he⟩ := (next_grows h).rows _ row hl.found
    refine ⟨row', hrow', ?_, ?_⟩
    · rw [hl.agent, he.terms]
    · rw [hl.mark]
      exact (next_grows h).mark _

theorem grounded_step {g g' : Gateway} {l : GatewayLabel} (h : GatewayStep cfg g l g')
    (hg : Each Grounded g) : Each Grounded g' := by
  refine Step.each h hg ?_ ?_ (fun _ _ _ hx => hx.grows (step_grows h))
  · intro r ha record hrec
    rw [arrives_record ha] at hrec
    cases hrec
  · intro n r r' _ _ hm hr
    obtain ⟨he, hn⟩ := move_next hm
    rw [he]
    exact grounded_next hn hr

/-- An admission enters its amount and one call into the books of the agent. -/
theorem books_admitted (hground : Grounded s r) (hlisted : ∀ k, s.db.sessions k ≠ none → k ∈ s.db.order)
    (hnonneg : ∀ k, 0 ≤ db.amount k) (hstage : r.stage = .cleared record clearance)
    (hok : admitClaim cfg.sha256 s.db r.claim r.signature r.now = .ok (db, .ok acc)) :
    spentTotal s.db record.agent + acc.delta.toNat ≤ spentTotal db record.agent ∧
      allowedCount s.db record.agent + 1 ≤ allowedCount db record.agent := by
  have hgrows := (admitClaim_effect hok).grows
  obtain ⟨row, hrow, ha, -⟩ := hground record (by rw [hstage]; rfl)
  have hmem : r.claim.session ∈ agentSessions s.db record.agent :=
    mem_agentSessions.mpr ⟨hlisted _ (by rw [hrow]; simp), row, hrow, ha⟩
  cases admitClaim_effect hok with
  | @accepted _ _ e t hadm =>
    refine ⟨spentTotal_add_le hgrows hnonneg hmem ?_, allowedCount_add_le hgrows hmem ?_⟩
    · have hd := hadm.delta
      have ht := hadm.amount
      rw [amount_setTicket, if_pos rfl]
      omega
    · have he := hadm.decision
      simp [allowedEntries, pushEvidence_evidence, he]

/-- A move enters into the books what it adds to the purchases. -/
theorem books_next (h : Next cfg s r s' stage) (hground : Grounded s r)
    (hlisted : ∀ k, s.db.sessions k ≠ none → k ∈ s.db.order) (hnonneg : ∀ k, 0 ≤ s'.db.amount k) :
    bought agent { r with stage := stage } + spentTotal s.db agent ≤
        bought agent r + spentTotal s'.db agent ∧
      purchased agent { r with stage := stage } + allowedCount s.db agent ≤
        purchased agent r + allowedCount s'.db agent := by
  have hspent := @spentTotal_grows _ _ agent (next_grows h) hnonneg
  have hcalls := @allowedCount_grows _ _ agent (next_grows h)
  rcases next_accepted h with hsame | ⟨record, clearance, db, acc, hstage, hok, rfl, rfl⟩
  · simp only [bought, purchased, purchase_same hsame]
    omega
  · have hbooks := books_admitted hground hlisted hnonneg hstage hok
    simp only at hbooks hspent hcalls ⊢
    rcases @purchase_admitted r agent record acc with ⟨_, _, _, rfl, hb, hp⟩ | ⟨hb, hp⟩
    · rw [hb, hp]
      omega
    · rw [hb, hp]
      omega

end Effects

section Books
variable {cfg : Config} {g g' : Gateway} {l : GatewayLabel} {agent : Pubkey}

theorem listed_grows {db db' : Database} (h : Grows db db')
    (hl : ∀ k, db.sessions k ≠ none → k ∈ db.order) (k : Pubkey) (hk : db'.sessions k ≠ none) :
    k ∈ db'.order := by
  by_cases hold : db.sessions k = none
  · exact h.listed k hold hk
  · exact h.order.subset (hl k hold)

theorem booked_step (h : GatewayStep cfg g l g') (hb : Booked agent g) : Booked agent g' := by
  have hgrows := step_grows h
  have hnonneg : ∀ k, 0 ≤ g'.shared.db.amount k := fun k => (hb.nonneg k).trans (hgrows.amounts k)
  have hspent := hb.spent
  have hcalls := hb.calls
  have hbooks : (total (bought agent) g'.requests : ℤ) ≤ spentTotal g'.shared.db agent ∧
      total (purchased agent) g'.requests ≤ allowedCount g'.shared.db agent := by
    cases h with
    | @arrive s rs r ha =>
      simp only [total_append, bought_none (arrives_accepted ha), purchased_none (arrives_accepted ha)]
      exact ⟨hspent, hcalls⟩
    | @advance s s' rs r r' n hr hm =>
      obtain ⟨he, hn⟩ := move_next hm
      obtain ⟨h₁, h₂⟩ := @books_next _ _ _ _ _ agent hn (hb.grounded n r hr) hb.listed hnonneg
      rw [← he] at h₁ h₂
      have hset₁ := total_set (bought agent) r' hr
      have hset₂ := total_set (purchased agent) r' hr
      simp only at hspent hcalls ⊢
      omega
    | @outside s s' rs e ho =>
      exact ⟨hspent.trans (spentTotal_grows hgrows hnonneg), hcalls.trans (allowedCount_grows hgrows)⟩
  exact ⟨hnonneg, listed_grows hgrows hb.listed, grounded_step h hb.grounded, hbooks.1, hbooks.2⟩

theorem booked_initial (h : Initial g) : Booked agent g := by
  obtain ⟨hdb, hreq⟩ := h
  constructor
  · intro k
    rw [hdb]
    exact le_rfl
  · intro k hk
    rw [hdb] at hk
    exact absurd rfl hk
  · exact .of_idle hreq
  · rw [hdb, hreq]
    exact le_rfl
  · rw [hdb, hreq]
    exact le_rfl

/-- The books of every agent are right in every reachable state. -/
theorem booked_reached (h : GatewayReached cfg g) : Booked agent g :=
  h.invariant (fun _ hi => booked_initial hi) (fun _ _ _ hb hs => booked_step hs hb)

theorem priced_reached (h : GatewayReached cfg g) : Each (fun _ r => Priced r) g := by
  exact h.invariant (fun _ hi => .of_idle hi.2) (fun _ _ _ hp hs => priced_step hs hp)

end Books

section Records
variable (agent : Pubkey) (a : AgentRecord) (p : AgentPolicy)

/-- What a purchase holds of the agent is its record `a` with the policy `p`. -/
def Held (r : Request) : Prop :=
  match r.stage with
  | .identified record a' p' => record.agent = agent → a' = a ∧ p' = p
  | .approving record a' p' _ => record.agent = agent → a' = a ∧ p' = p
  | .cleared record clearance => r.kind ≠ .verify → record.agent = agent →
      ∃ spend, clearance = .evaluated a p spend
  | _ => True

/-- Against the spend at its admission, the policy would still permit the
purchase. -/
def Candidate.stillPermitted (db : Database) (c : Candidate) : Bool :=
  match c.request.kind, c.clearance with
  | .buy resource price, .evaluated a p _ =>
    match agentSpend db c.record.agent with
    | .ok spend => (evaluate a.status a.mode p resource price spend).Permits
    | .error _ => false
  | _, _ => true

/-- The side condition on a step: where it admits a purchase of the agent, the policy would
permit the price against what the agent has spent by then. -/
def StillPermitted (cfg : Config) (g : Gateway) (l : GatewayLabel) : Prop :=
  ∀ c ∈ candidate? cfg g l, c.record.agent = agent → Candidate.stillPermitted g.shared.db c = true

instance (cfg : Config) (g : Gateway) (l : GatewayLabel) : Decidable (StillPermitted agent cfg g l) :=
  inferInstanceAs (Decidable (∀ c ∈ candidate? cfg g l, c.record.agent = agent → _))

end Records

/-- A purchase that passed a policy has a price within the policy's cap on one call. The
price does not change after the evaluation, so this is not undone by what others do. -/
def Capped (r : Request) : Prop :=
  ∀ resource price, r.kind = .buy resource price →
    match r.stage with
    | .approving _ _ p _ => price.toNat ≤ p.maxPerCall.toNat
    | .cleared _ (.evaluated _ p _) => price.toNat ≤ p.maxPerCall.toNat
    | _ => True

section Caps
variable {cfg : Config} {s s' : Shared} {r : Request} {stage : Stage} {g g' : Gateway}
variable {l : GatewayLabel}

theorem permitted_perCall {a : AgentRecord} {p : AgentPolicy} {resource : Text} {price : UInt64}
    {spend : Spend} {d : PolicyDecision} (hd : evaluate a.status a.mode p resource price spend = d)
    (h : d.Permits) : price.toNat ≤ p.maxPerCall.toNat := by
  rw [← hd] at h
  exact (evaluate_permits_iff.mp h).perCall

theorem capped_next (h : Next cfg s r s' stage) (hr : Capped r) :
    Capped { r with stage := stage } := by
  intro resource price hk
  have hold := hr resource price hk
  cases h with
  | evaluated hstage hkind _ heval | approving hstage hkind _ heval =>
    rw [show r.kind = .buy resource price from hk] at hkind
    cases hkind
    refine permitted_perCall heval fun refusal h => ?_
    cases h
  | approved hstage =>
    rw [hstage] at hold
    exact hold
  | idle => exact hold
  | _ => trivial

theorem capped_step (h : GatewayStep cfg g l g') (hg : Each (fun _ r => Capped r) g) :
    Each (fun _ r => Capped r) g' := by
  refine Step.each h hg ?_ ?_ (fun _ _ _ hx => hx)
  · intro r ha resource price _
    rw [Arrives] at ha
    rw [ha]
    split_ifs <;> trivial
  · intro n r r' _ _ hm hr
    obtain ⟨he, hn⟩ := move_next hm
    rw [he]
    exact capped_next hn hr

theorem capped_reached (h : GatewayReached cfg g) : Each (fun _ r => Capped r) g := by
  exact h.invariant (fun _ hi => .of_idle hi.2) (fun _ _ _ hc hs => capped_step hs hc)

end Caps

section Steps
variable {cfg : Config} {s s' : Shared} {r : Request} {stage : Stage} {agent : Pubkey}
variable {a : AgentRecord} {p : AgentPolicy} {g g' : Gateway} {l : GatewayLabel}

theorem held_next (h : Next cfg s r s' stage)
    (hfixed : getAgentByPubkey s.control agent = .ok (some a)) (hp : a.policy = some p)
    (hr : Held agent a p r) : Held agent a p { r with stage := stage } := by
  cases h with
  | @identified record a' p' _ hget _ hpol =>
    rintro rfl
    rw [hfixed, Except.ok.injEq, Option.some.injEq] at hget
    subst hget
    rw [hp, Option.some.injEq] at hpol
    exact ⟨rfl, hpol.symm⟩
  | @evaluated record a' p' spend resource price hstage _ _ _ =>
    simp only [Held, hstage] at hr
    intro _ hagent
    obtain ⟨rfl, rfl⟩ := hr hagent
    exact ⟨spend, rfl⟩
  | @approving record a' p' spend resource price hstage _ _ _ =>
    simp only [Held, hstage] at hr
    exact hr
  | @approved record a' p' spend control hstage =>
    simp only [Held, hstage] at hr
    intro _ hagent
    obtain ⟨rfl, rfl⟩ := hr hagent
    exact ⟨spend, rfl⟩
  | unregistered _ hget =>
    rintro _ rfl
    rw [hfixed] at hget
    cases hget
  | unrestricted _ hget _ hpol =>
    rintro _ rfl
    rw [hfixed, Except.ok.injEq, Option.some.injEq] at hget
    subst hget
    rw [hp] at hpol
    cases hpol
  | verified _ hk _ => exact fun hv => absurd hk hv
  | idle => exact hr
  | _ => trivial

theorem held_step (h : GatewayStep cfg g l g')
    (hfixed : getAgentByPubkey g.shared.control agent = .ok (some a)) (hp : a.policy = some p)
    (hg : Each (fun _ r => Held agent a p r) g) : Each (fun _ r => Held agent a p r) g' := by
  refine Step.each h hg ?_ ?_ (fun _ _ _ hx => hx)
  · intro r ha
    rw [Arrives] at ha
    unfold Held
    rw [ha]
    split_ifs <;> trivial
  · intro n r r' _ _ hm hr
    obtain ⟨he, hn⟩ := move_next hm
    rw [he]
    exact held_next hn hfixed hp hr

/-- The mark may have grown since the price was checked, so a purchase adds no more than its
price. -/
theorem delta_le_price {record : SessionRecord} {clearance : Clearance} {db : Database}
    {acc : ClaimAccepted} {resource : Text} {price : UInt64} (hground : Grounded s r)
    (hprice : Priced r) (hstage : r.stage = .cleared record clearance)
    (hok : admitClaim cfg.sha256 s.db r.claim r.signature r.now = .ok (db, .ok acc))
    (hk : r.kind = .buy resource price) : acc.delta.toNat ≤ price.toNat := by
  obtain ⟨_, _, _, hmark⟩ := hground record (by rw [hstage]; rfl)
  have hsum := hprice record resource price (by rw [hstage]; rfl) hk
  cases admitClaim_effect hok with
  | accepted ha =>
    have hm := ha.mark
    omega

/-- A move adds no purchase above the cap on one call, whatever was bought meanwhile. -/
theorem perCall_next (h : Next cfg s r s' stage) (hground : Grounded s r) (hprice : Priced r)
    (hheld : Held agent a p r) (hcap : Capped r) (hr : bought agent r ≤ p.maxPerCall.toNat) :
    bought agent { r with stage := stage } ≤ p.maxPerCall.toNat := by
  rcases next_accepted h with hsame | ⟨record, clearance, db, acc, hstage, hok, rfl, rfl⟩
  · simpa only [bought, purchase_same hsame] using hr
  · rcases @purchase_admitted r agent record acc with ⟨resource, price, hk, hagent, hb, -⟩ | ⟨hb, -⟩
    · rw [hb]
      simp only [Held, hstage] at hheld
      obtain ⟨spend, rfl⟩ := hheld (by simp [hk]) hagent
      have hprice' := hcap resource price hk
      simp only [hstage] at hprice'
      exact (delta_le_price hground hprice hstage hok hk).trans hprice'
    · rw [hb]
      exact Nat.zero_le _

theorem perCall_step (h : GatewayStep cfg g l g') (hground : Each Grounded g)
    (hpriced : Each (fun _ r => Priced r) g) (hheld : Each (fun _ r => Held agent a p r) g)
    (hcap : Each (fun _ r => Capped r) g)
    (hper : ∀ r ∈ g.requests, bought agent r ≤ p.maxPerCall.toNat) :
    ∀ r ∈ g'.requests, bought agent r ≤ p.maxPerCall.toNat := by
  cases h with
  | @arrive s rs r ha =>
    refine List.forall_mem_append.mpr ⟨hper, List.forall_mem_singleton.mpr ?_⟩
    rw [bought_none (arrives_accepted ha)]
    exact Nat.zero_le _
  | outside _ => exact hper
  | @advance s s' rs r r' n hr hm =>
    intro x hx
    rcases List.mem_or_eq_of_mem_set hx with hx | rfl
    · exact hper x hx
    · obtain ⟨hset, hn⟩ := move_next hm
      rw [hset]
      exact perCall_next hn (hground n r hr) (hpriced n r hr) (hheld n r hr) (hcap n r hr)
        (hper r (List.mem_of_getElem? hr))

/-- What an admission that is still permitted leaves of the totals. -/
theorem admitted_within {record : SessionRecord} {clearance : Clearance} {db : Database}
    {acc : ClaimAccepted} {resource : Text} {price : UInt64} (hground : Grounded s r)
    (hprice : Priced r) (hheld : Held agent a p r) (hstage : r.stage = .cleared record clearance)
    (hok : admitClaim cfg.sha256 s.db r.claim r.signature r.now = .ok (db, .ok acc))
    (hk : r.kind = .buy resource price) (hagent : record.agent = agent)
    (hc : Candidate.stillPermitted s.db ⟨r, record, clearance⟩ = true) :
    spentTotal s.db agent + acc.delta.toNat ≤ p.maxTotal.toNat ∧
      ∀ limit, p.maxCalls = some limit → allowedCount s.db agent < limit.toNat := by
  have hdelta := delta_le_price hground hprice hstage hok hk
  simp only [Held, hstage] at hheld
  obtain ⟨spend, rfl⟩ := hheld (by simp [hk]) hagent
  simp only [Candidate.stillPermitted, hk, hagent] at hc
  rcases hnow : agentSpend s.db agent with e | now
  · simp [hnow] at hc
  · simp only [hnow, decide_eq_true_eq] at hc
    have hpermit := evaluate_permits_iff.mp hc
    obtain ⟨hspent, hcalls⟩ := agentSpend_eq_ok hnow
    have htotal := hpermit.total
    refine ⟨by omega, ?_⟩
    intro limit hl
    have hlt := hpermit.calls limit hl
    have hmax := limit.toNat_lt
    omega

/-- A move leaves what counts for its request, or admits a purchase that the
caps still have room for. -/
theorem counts_next (h : Next cfg s r s' stage) (hground : Grounded s r) (hprice : Priced r)
    (hheld : Held agent a p r)
    (hc : ∀ record clearance db acc, r.stage = .cleared record clearance →
      admitClaim cfg.sha256 s.db r.claim r.signature r.now = .ok (db, .ok acc) →
      record.agent = agent → Candidate.stillPermitted s.db ⟨r, record, clearance⟩ = true) :
    (bought agent { r with stage := stage } = bought agent r ∧
      purchased agent { r with stage := stage } = purchased agent r) ∨
    (bought agent r = 0 ∧ purchased agent r = 0 ∧
      purchased agent { r with stage := stage } = 1 ∧
      spentTotal s.db agent + bought agent { r with stage := stage } ≤ p.maxTotal.toNat ∧
      ∀ limit, p.maxCalls = some limit → allowedCount s.db agent < limit.toNat) := by
  rcases next_accepted h with hsame | ⟨record, clearance, db, acc, hstage, hok, rfl, rfl⟩
  · left
    simp only [bought, purchased, purchase_same hsame, and_self]
  · have hr₀ : r.stage.accepted? = none := by
      rw [hstage]
      rfl
    rcases @purchase_admitted r agent record acc with ⟨resource, price, hk, hagent, hb, hp⟩ | ⟨hb, hp⟩
    · right
      rw [hb]
      refine ⟨bought_none hr₀, purchased_none hr₀, hp, ?_⟩
      exact admitted_within hground hprice hheld hstage hok hk hagent
        (hc record clearance db acc hstage hok hagent)
    · left
      exact ⟨hb.trans (bought_none hr₀).symm, hp.trans (purchased_none hr₀).symm⟩

theorem envelope_step (h : GatewayStep cfg g l g') (hb : Booked agent g)
    (hpriced : Each (fun _ r => Priced r) g) (hheld : Each (fun _ r => Held agent a p r) g)
    (hcap : Each (fun _ r => Capped r) g) (hc : StillPermitted agent cfg g l)
    (he : Envelope agent p g) : Envelope agent p g' := by
  obtain ⟨htotal, hcalls, hper⟩ := he
  have hper' := perCall_step h hb.grounded hpriced hheld hcap hper
  cases h with
  | @arrive s rs r ha =>
    have hb₀ := @bought_none r agent (arrives_accepted ha)
    have hp₀ := @purchased_none r agent (arrives_accepted ha)
    refine ⟨?_, ?_, hper'⟩
    · simpa only [total_append, hb₀, Nat.add_zero] using htotal
    · simpa only [total_append, hp₀, Nat.add_zero] using hcalls
  | @outside s s' rs e ho => exact ⟨htotal, hcalls, hper'⟩
  | @advance s s' rs r r' n hr hm =>
    obtain ⟨hset, hn⟩ := move_next hm
    have hspent := hb.spent
    have hallowed := hb.calls
    have hsum := total_set (bought agent) r' hr
    have hcount := total_set (purchased agent) r' hr
    have hnew := @counts_next cfg s s' r _ agent a p hn (hb.grounded n r hr) (hpriced n r hr)
      (hheld n r hr) (fun record clearance db acc hstage hok hagent =>
        hc _ (candidate?_eq (g := ⟨s, rs⟩) hr hstage hok) hagent)
    rw [← hset] at hnew
    simp only at htotal hcalls hspent hallowed
    refine ⟨?_, ?_, hper'⟩
    · simp only
      rcases hnew with ⟨h₁, -⟩ | ⟨h₁, -, -, h₄, -⟩ <;> omega
    · intro limit hl
      have hle := hcalls limit hl
      simp only
      rcases hnew with ⟨-, h₂⟩ | ⟨-, h₂, h₃, -, h₅⟩
      · omega
      · have hlt := h₅ limit hl
        omega

end Steps

/-- What every run keeps, be it permitted or not. -/
structure Bounded (cfg : Config) (agent : Pubkey) (a : AgentRecord) (p : AgentPolicy)
    (g : Gateway) : Prop where
  reached : GatewayReached cfg g
  held : Each (fun _ r => Held agent a p r) g
  perCall : ∀ r ∈ g.requests, bought agent r ≤ p.maxPerCall.toNat

section Whole
variable {cfg : Config} {agent : Pubkey} {a : AgentRecord} {p : AgentPolicy}
variable {g g' : Gateway} {l : GatewayLabel}

theorem bounded_step (hb : Bounded cfg agent a p g) (hp : a.policy = some p)
    (hfixed : getAgentByPubkey g.shared.control agent = .ok (some a))
    (hs : GatewayStep cfg g l g') : Bounded cfg agent a p g' := by
  obtain ⟨hg, hheld, hper⟩ := hb
  have hbooked : Booked agent g := booked_reached hg
  refine ⟨hg.tail hs, held_step hs hfixed hp hheld, ?_⟩
  exact perCall_step hs hbooked.grounded (priced_reached hg) hheld (capped_reached hg) hper

end Whole

/-- For an agent whose record does not change, no purchase is above the cap on one call in any
state of any run; and the whole envelope holds in every state of every run in which the policy
still permits each purchase at its admission. -/
theorem envelope_holds {cfg : Config} {agent : Pubkey} {a : AgentRecord} {p : AgentPolicy}
    {g₀ g : Gateway} {h : History Gateway GatewayLabel} (hreach : GatewayReached cfg g₀)
    (hheld : ∀ r ∈ g₀.requests, Held agent a p r) (hr : Run (GatewayStep cfg) g₀ h g)
    (hfixed : ∀ t ∈ h, getAgentByPubkey t.before.shared.control agent = .ok (some a))
    (hp : a.policy = some p) (h₀ : Envelope agent p g₀) :
    (∀ r ∈ g.requests, bought agent r ≤ p.maxPerCall.toNat) ∧
      ((∀ t ∈ h, StillPermitted agent cfg t.before t.label) → Envelope agent p g) := by
  have hstart : Bounded cfg agent a p g₀ := by
    refine ⟨hreach, ?_, h₀.perCall⟩
    intro n r hn
    exact hheld r (List.mem_of_getElem? hn)
  have hbounded : Bounded cfg agent a p g :=
    hr.invariant (fun _ _ _ hb hfix hs => bounded_step hb hp hfix hs) hstart hfixed
  refine ⟨hbounded.perCall, fun hc => ?_⟩
  have hinv : Bounded cfg agent a p g ∧ Envelope agent p g := by
    refine hr.invariant (I := fun g => Bounded cfg agent a p g ∧ Envelope agent p g)
      (C := fun g l => getAgentByPubkey g.shared.control agent = .ok (some a) ∧
        StillPermitted agent cfg g l) ?_ ⟨hstart, h₀⟩ (fun t ht => ⟨hfixed t ht, hc t ht⟩)
    rintro g l g' ⟨hb, henv⟩ ⟨hfix, hperm⟩ hs
    refine ⟨bounded_step hb hp hfix hs, ?_⟩
    exact envelope_step hs (booked_reached hb.reached) (priced_reached hb.reached) hb.held
      (capped_reached hb.reached) hperm henv
  exact hinv.2

/-! ### The shop with a registered agent -/
namespace Shop
export PaidInFull.Shop (agent session otherSession config record buy claim500 claim600 claim1000
  signature500 signature600 signature1000)

/-- At most 1000 in all, at most 1000 in one call and at most five calls. -/
def policy : AgentPolicy := ⟨1000, 1000, none, none, some 5⟩

def agentRecord : AgentRecord := ⟨['a'], agent, .autonomous, .active, some policy, none⟩

def registry (status : AgentStatus) : Tables :=
  ⟨[⟨['a'], agent, .autonomous, status, none, some ⟨1000, 1000, none, none, some 5⟩⟩], []⟩

def idle (status : AgentStatus) : Gateway := ⟨⟨.empty, registry status⟩, []⟩

theorem idle_reached (status : AgentStatus) : GatewayReached config (idle status) :=
  ⟨idle status, [], ⟨rfl, rfl⟩, .start⟩

/-- Two purchases on two sessions, both evaluated before either is admitted. -/
def twoSessions : History Gateway GatewayLabel × Gateway := playGateway config (idle .active)
  [.advance 1, .advance 0, .advance 1, .advance 1, .advance 1, .advance 0, .advance 0, .advance 0,
    .arrive (buy 600 claim600 signature600), .arrive (buy 500 claim500 signature500),
    .outside (.openSession (record otherSession)), .outside (.openSession (record session))]

/-- Two purchases on one session, the second after the first is admitted. -/
def inTurn : History Gateway GatewayLabel × Gateway := playGateway config (idle .active)
  [.advance 1, .advance 1, .advance 1, .advance 1, .arrive (buy 500 claim1000 signature1000),
    .advance 0, .advance 0, .advance 0, .advance 0, .arrive (buy 500 claim500 signature500),
    .outside (.openSession (record session))]

theorem idle_envelope : Envelope agent policy (idle .active) := by
  refine ⟨by decide, ?_, by simp [idle]⟩
  intro limit hlimit
  exact Nat.zero_le _

end Shop

/-- Purchases of 500 and 500, one after the other, use up a budget of 1000. -/
theorem envelope_holds_in_turn :
    total (bought Shop.agent) Shop.inTurn.2.requests = 1000 ∧
      Envelope Shop.agent Shop.policy Shop.inTurn.2 := by
  have hrun : Run (GatewayStep Shop.config) (Shop.idle .active) Shop.inTurn.1 Shop.inTurn.2 :=
    playGateway_run _ _ _
  refine ⟨by decide +kernel, ?_⟩
  refine (envelope_holds (Shop.idle_reached .active) (by simp [Shop.idle]) hrun ?_
    (show Shop.agentRecord.policy = some Shop.policy from rfl) Shop.idle_envelope).2 ?_
  · decide +kernel
  · decide +kernel

/-- Purchases of 500 and 600 on two sessions of an agent with a budget of 1000:
both are admitted. -/
theorem two_sessions_exceed_budget :
    GatewayReached Shop.config (Shop.idle .active) ∧
      Run (GatewayStep Shop.config) (Shop.idle .active) Shop.twoSessions.1 Shop.twoSessions.2 ∧
      (∀ t ∈ Shop.twoSessions.1,
        getAgentByPubkey t.before.shared.control Shop.agent = .ok (some Shop.agentRecord)) ∧
      Shop.agentRecord.policy = some Shop.policy ∧
      Envelope Shop.agent Shop.policy (Shop.idle .active) ∧
      total (bought Shop.agent) Shop.twoSessions.2.requests = 1100 ∧
      ¬ Envelope Shop.agent Shop.policy Shop.twoSessions.2 := by
  have htotal : total (bought Shop.agent) Shop.twoSessions.2.requests = 1100 := by decide +kernel
  refine ⟨Shop.idle_reached .active, playGateway_run _ _ _, by decide +kernel, rfl,
    Shop.idle_envelope, htotal, ?_⟩
  intro henv
  have hle := henv.total
  rw [htotal] at hle
  exact absurd hle (by decide)

end AgentPay.SpendingEnvelope
