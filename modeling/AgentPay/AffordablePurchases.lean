import AgentPay.ClientPurchases
import AgentPay.ForfeitedApprovals

/-!
# What the deposit covers can be bought, unless it is free

The catalogue, `price_of`, and a lone `buy` by a client in step with the record, when the
policy answers Allow and every call of the handler is answered. The handler asks for the
record's amount plus the price, exactly; `evaluate_claim` asks for more than the record's
amount. At a positive price the two agree. At price zero, which the catalogue can express
and the client expects, no claim meets both.

The catalogue is read twice, for the quote and for the payment, and says the same.
-/
namespace AgentPay.AffordablePurchases
open SolanaRuntime EscrowState GatewayClaims EvidenceLog SessionStore ControlPlane PaidRequests
open PolicyRules hiding normaliseResource
open StoreRuns EvidenceRuns ClaimMessage ClaimEncoding ClaimHeader LoneRequests
open ForfeitedApprovals ClientPurchases Fallible
open DecimalStrings (natToString parseU64)

/-! ### The catalogue -/

structure ResourcePrice where
  price : Text
deriving DecidableEq

structure Catalogue where
  resources : Text → Option ResourcePrice

/-- `normalise_resource` of `buy.rs`. -/
def normaliseResource (resource : Text) : Text :=
  '/' :: trimEnd (· == '/') (trimStart (· == '/') resource)

def priceOf (catalogue : Except UpstreamError Catalogue) (resource : Text) :
    Except UpstreamError UInt64 := do
  let cat ← catalogue
  let entry ← okOr (cat.resources (normaliseResource resource)) .unknownResource
  okOr (parseU64 entry.price) .badPrice

/-! ### The purchase -/

def answered : Call → Bool := fun _ => false

section Conditions
variable (cfg : Config) (s : Shared)

/-- On what grounds the policy lets a purchase pass without asking. -/
inductive Allows (record : SessionRecord) (resource : Text) (price : UInt64) : Clearance → Prop
  | unregistered : getAgentByPubkey s.control record.agent = .ok none →
      cfg.requireAgentPolicy = false → Allows record resource price .unregistered
  | unrestricted {agent : AgentRecord} :
      getAgentByPubkey s.control record.agent = .ok (some agent) → agent.status = .active →
      agent.policy = none → cfg.requireAgentPolicy = false →
      Allows record resource price (.unrestricted agent)
  | evaluated {agent : AgentRecord} {policy : AgentPolicy} {spend : Spend} :
      getAgentByPubkey s.control record.agent = .ok (some agent) → agent.status = .active →
      agent.policy = some policy → agentSpend s.db record.agent = .ok spend →
      evaluate agent.status agent.mode policy resource price spend = .allow →
      Allows record resource price (.evaluated agent policy spend)

/-- The deposit covers the listed price, and the claim is the client's next. -/
structure Affordable (w : World) (c : Client) (catalogue : Catalogue) (resource : Text)
    (price : UInt64) (record : SessionRecord) (claim : Claim) (signature : Signature) : Prop where
  tracked : getRecord s.db claim.session = .ok record
  unsettled : record.isSettled = false
  inTime : w.now ≤ sessionLimit record.expiresAt
  listed : priceOf (.ok catalogue) (normaliseResource resource) = .ok price
  quoted : w.quoted = priceOf (.ok catalogue) (normaliseResource resource)
  priced : w.priced = priceOf (.ok catalogue) (normaliseResource resource)
  covered : record.cumulativeAccepted.toNat + price.toNat ≤ record.depositedTotal.toNat
  allowed : ∃ clearance, Allows cfg s record (normaliseResource resource) price clearance
  session : claim.session = c.session
  amount : claim.cumulativeAmount.toNat = record.cumulativeAccepted.toNat + price.toNat
  nonce : claim.nonce.toNat = (record.lastNonce.getD 0).toNat + 1
  nonceFits : (record.lastNonce.getD 0).toNat < 2 ^ 63 - 1
  expiresAt : claim.expiresAt.toInt = c.keys.expiresAt
  unexpired : claim.isExpired w.now = false
  signs : w.sign claim.signingBytes = .ok signature.toList
  signed : cfg.verifyClaimSignature record.agent claim signature = true

/-- The claim is admitted for the price, and the request forwarded. -/
def Bought (r : Request) (record : SessionRecord) (price : UInt64) : Prop :=
  (serve cfg answered s r).2 =
    .served record ⟨r.claim.cumulativeAmount, record.cumulativeAccepted, price, r.claim.nonce⟩

end Conditions

section Moves
variable {cfg : Config} {s s' : Shared} {r : Request} {record : SessionRecord} {m n : ℕ}
variable {resource : Text} {price : UInt64} {clearance : Clearance}

theorem attempt_answered : attempt cfg answered s r = advance cfg s r := by
  rw [attempt]
  apply if_neg
  rcases call? r.stage with _ | c
  · exact Bool.false_ne_true
  · exact Bool.false_ne_true

theorem handle_served {accepted : ClaimAccepted} (hmn : m ≤ n)
    (h : handle cfg answered s r m = (s', .served record accepted)) :
    handle cfg answered s r n = (s', .served record accepted) := by
  induction n, hmn using Nat.le_induction with
  | base => exact h
  | succ n _ ih =>
    rw [handle, ih, attempt_answered]
    rfl

theorem handle_denied {code : ReasonCode} (hmn : m ≤ n)
    (h : handle cfg answered s r m = (s', .denied code)) :
    handle cfg answered s r n = (s', .denied code) := by
  induction n, hmn using Nat.le_induction with
  | base => exact h
  | succ n _ ih =>
    rw [handle, ih, attempt_answered]
    rfl

/-- A purchase the policy allows comes to its admission with the tables untouched. -/
theorem handle_cleared (ha : Arrives r) (hk : r.kind = .buy resource price)
    (h : Authentic cfg answered s r price record)
    (hallow : Allows cfg s record resource price clearance) :
    ∃ n ≤ 3, handle cfg answered s r n = (s, .cleared record clearance) := by
  have h₀ : handle cfg answered s r 0 = (s, .received) := by
    rw [handle, ha, h.unexpired]
    rfl
  have h₁ : handle cfg answered s r 1 = (s, .authenticated record) := by
    rw [handle, h₀, attempt_answered]
    exact congrArg (Prod.mk s) (readSession_authentic hk h)
  cases hallow with
  | unregistered hfound hfree =>
    refine ⟨2, by decide, ?_⟩
    rw [handle, h₁, attempt_answered]
    simp only [advance, readAgent, hfound, hfree, Bool.false_eq_true, if_false]
  | unrestricted hfound hactive hnone hfree =>
    refine ⟨2, by decide, ?_⟩
    rw [handle, h₁, attempt_answered]
    simp only [advance, readAgent, hfound, hactive, hnone, hfree, ne_eq, not_true_eq_false,
      Bool.false_eq_true, if_false]
  | @evaluated agent policy spend hfound hactive hpolicy hspend heval =>
    refine ⟨3, le_rfl, ?_⟩
    have h₂ : handle cfg answered s r 2 = (s, .identified record agent policy) := by
      rw [handle, h₁, attempt_answered]
      simp only [advance, readAgent, hfound, hactive, hpolicy, ne_eq, not_true_eq_false, if_false]
    rw [handle, h₂, attempt_answered]
    simp only [advance, hk, evaluatePolicy, hspend, heval]

/-- From its admission on, a purchase is served with what the store accepts, or denied. -/
theorem serve_cleared (hn : n ≤ 3)
    (h : handle cfg answered s r n = (s, .cleared record clearance)) :
    (∃ db accepted, admitClaim cfg.sha256 s.db r.claim r.signature r.now = .ok (db, .ok accepted) ∧
        (serve cfg answered s r).2 = .served record accepted) ∨
      (¬∃ db accepted,
          admitClaim cfg.sha256 s.db r.claim r.signature r.now = .ok (db, .ok accepted)) ∧
        ∃ code, (serve cfg answered s r).2 = .denied code := by
  have hnext : handle cfg answered s r (n + 1) =
      admitRequest cfg s { r with stage := .cleared record clearance } record := by
    rw [handle, h, attempt_answered]
    rfl
  unfold admitRequest at hnext
  rcases hresult : admitClaim cfg.sha256 s.db r.claim r.signature r.now with e | ⟨db, e | accepted⟩
  · rw [hresult] at hnext
    exact .inr ⟨by simp, _, congrArg Prod.snd (handle_denied (by omega) hnext)⟩
  · rw [hresult] at hnext
    exact .inr ⟨by simp, _, congrArg Prod.snd (handle_denied (by omega) hnext)⟩
  · rw [hresult] at hnext
    have hserved : handle cfg answered s r (n + 2) =
        ({ s with db := db }, .served record accepted) := by
      rw [handle, hnext, attempt_answered]
      rfl
    exact .inl ⟨db, accepted, rfl, congrArg Prod.snd (handle_served (by omega) hserved)⟩

end Moves

section Purchases
variable {cfg : Config} {p : Parsers} {s : Shared} {w : World} {c : Client} {catalogue : Catalogue}
variable {resource : Text} {price : UInt64} {record : SessionRecord} {claim : Claim}
variable {signature : Signature}

/-- What the store admits is what the rules accept. -/
theorem admitted_accepted {db : Database} {now : Int64} {accepted : ClaimAccepted}
    (hi : Intact cfg.sha256 s.db) (hload : getRecord s.db claim.session = .ok record)
    (hok : admitClaim cfg.sha256 s.db claim signature now = .ok (db, .ok accepted)) :
    Accepted record claim now accepted := by
  rcases hrow : s.db.sessions claim.session with _ | row
  · simp [getRecord, loadSession, hrow, okOr] at hload
  · rw [getRecord_eq hi hrow, Except.ok.injEq] at hload
    have hcases := @admit_cases cfg.sha256 s.db claim signature now row hrow (hi.tracked hrow)
    rw [hload, hok] at hcases
    cases hcases with
    | accepted he _ _ => exact evaluateClaim_eq_ok.mp he

theorem Affordable.authentic
    (h : Affordable cfg s w c catalogue resource price record claim signature) :
    Authentic cfg answered s (w.request (normaliseResource resource) price claim signature) price
      record :=
  ⟨h.unexpired, rfl, h.tracked, h.signed, h.amount.symm⟩

theorem Affordable.nonceAdvances
    (h : Affordable cfg s w c catalogue resource price record claim signature) :
    nonceAdvances record.lastNonce claim.nonce := by
  have hnonce := h.nonce
  rcases hlast : record.lastNonce with _ | last
  · exact trivial
  · rw [hlast, Option.getD_some] at hnonce
    exact UInt64.lt_iff_toNat_lt.mpr (by omega)

/-- The rules accept the claim if it asks for anything at all. -/
theorem Affordable.admissible_iff
    (h : Affordable cfg s w c catalogue resource price record claim signature) :
    Admissible s (w.request (normaliseResource resource) price claim signature) record ↔
      0 < price ∧ (s.db.evidence claim.session).length < 2 ^ 63 := by
  have hamount := h.amount
  have hnonce := h.nonce
  have hfits := h.nonceFits
  rw [UInt64.lt_iff_toNat_lt]
  constructor
  · rintro ⟨⟨accepted, hok⟩, hroom, -⟩
    have habove := (evaluateClaim_eq_ok.mp hok).above
    refine ⟨?_, hroom⟩
    change record.cumulativeAccepted.toNat < claim.cumulativeAmount.toNat at habove
    have hzero : (0 : UInt64).toNat = 0 := rfl
    omega
  · rintro ⟨hpos, hroom⟩
    refine ⟨⟨⟨claim.cumulativeAmount, record.cumulativeAccepted, price, claim.nonce⟩, ?_⟩, hroom,
      ?_⟩
    · rw [evaluateClaim_eq_ok]
      refine ⟨h.unsettled, h.inTime, ?_, h.nonceAdvances, ?_, ?_, rfl⟩
      · change record.cumulativeAccepted.toNat < claim.cumulativeAmount.toNat
        have hzero : (0 : UInt64).toNat = 0 := rfl
        omega
      · exact hamount.trans_le h.covered
      · exact (Nat.add_comm _ _).trans hamount.symm
    · change claim.nonce.toNat < 2 ^ 63
      omega

/-- The client sends the claim it means to send. -/
theorem Affordable.sent (hp : p.Standard)
    (hkeys : c.keys.sessionB58 = Base58.encode c.keys.sessionBytes) (hstep : InStep c s)
    (h : Affordable cfg s w c catalogue resource price record claim signature) :
    sendClaim p w (normaliseResource resource) c =
      .ok (price, w.request (normaliseResource resource) price claim signature) := by
  rcases hstep with ⟨record', hrecord, hcumulative, hcount⟩
  rw [← h.session, h.tracked, Except.ok.injEq] at hrecord
  subst hrecord
  have hbytes : claim.session.toList = c.keys.sessionBytes := congrArg Vector.toList h.session
  refine sendClaim_signed hp (h.quoted.trans h.listed) (h.priced.trans h.listed) ?_ ?_ h.signs
  · rw [hkeys, hbytes]
  · rw [fieldsOf, ClaimFields.mk.injEq]
    refine ⟨hbytes, ?_, ?_, h.expiresAt⟩
    · rw [hcumulative, h.amount, Nat.cast_add]
    · rw [hcount, h.nonce, Nat.cast_add, Nat.cast_one]

end Purchases

/-- A purchase that the deposit covers is sent, and it is admitted and forwarded exactly if
its price is positive (and the session's log has a number left for its entry). -/
theorem affordable_bought_iff {cfg : Config} {p : Parsers} (hp : p.Standard) {g : Gateway}
    (hg : GatewayReached cfg g) {session : Text} {expiresAt : ℤ} {c : Client}
    (hc : construct session expiresAt = .ok c.keys) (hstep : InStep c g.shared) {w : World}
    {catalogue : Catalogue} {resource : Text} {price : UInt64} {record : SessionRecord}
    {claim : Claim} {signature : Signature}
    (h : Affordable cfg g.shared w c catalogue resource price record claim signature) :
    sendClaim p w (normaliseResource resource) c =
        .ok (price, w.request (normaliseResource resource) price claim signature) ∧
      (Bought cfg g.shared (w.request (normaliseResource resource) price claim signature) record
          price ↔
        0 < price ∧ (g.shared.db.evidence claim.session).length < 2 ^ 63) := by
  refine ⟨h.sent hp (construct_keys hc) hstep, ?_⟩
  rcases h.allowed with ⟨clearance, hallow⟩
  have harrives : Arrives (w.request (normaliseResource resource) price claim signature) := rfl
  rcases handle_cleared harrives rfl h.authentic hallow with ⟨n, hn, hcleared⟩
  have hadmits := ForfeitedApprovals.admissible_iff
    (r := w.request (normaliseResource resource) price claim signature) (intact_reached hg)
    h.tracked
  rw [← h.admissible_iff, hadmits]
  rcases serve_cleared hn hcleared with ⟨db, accepted, hok, hserved⟩ | ⟨hno, code, hdenied⟩
  · refine iff_of_true ?_ ⟨db, accepted, hok⟩
    have haccepted := admitted_accepted (intact_reached hg) h.tracked hok
    have hdelta : accepted.delta = price := by
      have hsum : accepted.delta.toNat + record.cumulativeAccepted.toNat =
        claim.cumulativeAmount.toNat := haccepted.delta
      have hamount := h.amount
      rw [← UInt64.toNat_inj]
      omega
    rw [Bought, hserved, haccepted.result, hdelta]
    rfl
  · refine iff_of_false ?_ hno
    intro hbought
    cases hdenied.symm.trans hbought

/-! ### A shop with a free sample -/
namespace Shop
export ClientPurchases.Shop (session record claim500 signature500 shopper shopper_constructed)
export PaidInFull.Shop (agent entry500)
open PlainParsers (parsers standard)

/-- The agent's signature over the claim for 0 with nonce 1 and expiry 4000. -/
def signature0 : Signature := #v[142, 66, 10, 244, 130, 1, 205, 174, 51, 220, 27, 185, 118, 20, 3,
  139, 186, 197, 16, 251, 244, 254, 59, 134, 230, 207, 204, 201, 20, 71, 104, 206, 172, 217, 108, 6,
  239, 52, 200, 18, 5, 66, 169, 81, 151, 175, 95, 31, 109, 187, 123, 128, 235, 186, 240, 205, 12,
  199, 249, 58, 109, 174, 30, 2]

def entryRefused : Hash := #v[220, 130, 188, 108, 254, 210, 222, 109, 243, 170, 235, 182, 131, 32,
  7, 77, 25, 74, 173, 10, 149, 210, 42, 109, 204, 41, 156, 159, 169, 9, 58, 44]

def claim0 : Claim := ⟨session, 0, 1, 4000⟩

/-- SHA-256 on the two log entries that occur. -/
def sha256 (message : List UInt8) : Hash :=
  if message = zeroHash.toList ++ session.toList ++ u64LeBytes 500 ++ u64LeBytes 1 ++
      Decision.allowed.asStr then entry500
  else entryRefused

/-- The agent signed these claims and no others. -/
def verifyClaimSignature (signer : Pubkey) (claim : Claim) (signature : Signature) : Bool :=
  signer = agent &&
    (claim = claim500 && signature = signature500 || claim = claim0 && signature = signature0)

def config : Config := ⟨true, sha256, verifyClaimSignature⟩

def policy : AgentPolicy := ⟨1000, 1000, none, none, some 5⟩

def buyer : AgentRecord := ⟨['a'], agent, .autonomous, .active, some policy, none⟩

def trusting : Gateway :=
  ⟨⟨.empty, ⟨[⟨['a'], agent, .autonomous, .active, none,
    some ⟨1000, 1000, none, none, some 5⟩⟩], []⟩⟩, []⟩

def opened : Gateway := (playGateway config trusting [.outside (.openSession (record session))]).2

theorem opened_reached : GatewayReached config opened :=
  ⟨trusting, _, ⟨rfl, rfl⟩, playGateway_run _ _ _⟩

/-- One resource is sold and one is free. -/
def catalogue : Catalogue where
  resources path := if path = ['/', 'a'] then some ⟨['5', '0', '0']⟩
    else if path = ['/', 'f'] then some ⟨['0']⟩ else none

def sign (message : List UInt8) : Except JsError (List UInt8) :=
  .ok (if message = claim500.signingBytes then signature500.toList else signature0.toList)

def world (resource : Text) : World where
  quoted := priceOf (.ok catalogue) (normaliseResource resource)
  priced := priceOf (.ok catalogue) (normaliseResource resource)
  sign := sign
  now := 2000
  approvalId := ['1']
  upstreamStatus := 200

theorem shopper_inStep : InStep shopper opened.shared := ⟨record session, by decide +kernel⟩

theorem opened_allows {resource : Text} {price : UInt64}
    (h : evaluate .active .autonomous policy resource price ⟨0, 0⟩ = .allow) :
    Allows config opened.shared (record session) resource price (.evaluated buyer policy ⟨0, 0⟩) :=
  .evaluated (by decide +kernel) rfl rfl (by decide +kernel) h

theorem paid_affordable : Affordable config opened.shared (world ['/', 'a']) shopper catalogue
    ['/', 'a'] 500 (record session) claim500 signature500 :=
  ⟨by decide +kernel, rfl, by decide, by decide +kernel, rfl, rfl, by decide,
    ⟨_, opened_allows (by decide)⟩, by decide, by decide, by decide, by decide, by decide,
    by decide, by decide +kernel, by decide +kernel⟩

theorem free_affordable : Affordable config opened.shared (world ['/', 'f']) shopper catalogue
    ['/', 'f'] 0 (record session) claim0 signature0 :=
  ⟨by decide +kernel, rfl, by decide, by decide +kernel, rfl, rfl, by decide,
    ⟨_, opened_allows (by decide)⟩, by decide, by decide, by decide, by decide, by decide,
    by decide, by decide +kernel, by decide +kernel⟩

end Shop

theorem affordable_bought_shop : Bought Shop.config Shop.opened.shared
    ((Shop.world ['/', 'a']).request ['/', 'a'] 500 Shop.claim500 Shop.signature500)
    (Shop.record Shop.session) 500 := by
  have hroom : (Shop.opened.shared.db.evidence Shop.claim500.session).length < 2 ^ 63 := by
    decide +kernel
  exact (affordable_bought_iff PlainParsers.standard Shop.opened_reached Shop.shopper_constructed
    Shop.shopper_inStep Shop.paid_affordable).2.mpr ⟨by decide, hroom⟩

/-- The free resource is quoted at zero, and the claim for it is refused as a replay. -/
theorem free_resource_refused : GatewayReached Shop.config Shop.opened ∧
    InStep Shop.shopper Shop.opened.shared ∧
    Affordable Shop.config Shop.opened.shared (Shop.world ['/', 'f']) Shop.shopper Shop.catalogue
      ['/', 'f'] 0 (Shop.record Shop.session) Shop.claim0 Shop.signature0 ∧
    (serve Shop.config answered Shop.opened.shared
      ((Shop.world ['/', 'f']).request ['/', 'f'] 0 Shop.claim0 Shop.signature0)).2 =
        .denied .claimNotMonotonic ∧
    ¬Bought Shop.config Shop.opened.shared
      ((Shop.world ['/', 'f']).request ['/', 'f'] 0 Shop.claim0 Shop.signature0)
      (Shop.record Shop.session) 0 := by
  have hdenied : (serve Shop.config answered Shop.opened.shared
      ((Shop.world ['/', 'f']).request ['/', 'f'] 0 Shop.claim0 Shop.signature0)).2 =
        .denied .claimNotMonotonic := by decide +kernel
  refine ⟨Shop.opened_reached, Shop.shopper_inStep, Shop.free_affordable, hdenied, ?_⟩
  intro hbought
  cases hdenied.symm.trans hbought

end AgentPay.AffordablePurchases
