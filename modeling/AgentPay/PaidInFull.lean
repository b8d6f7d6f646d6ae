import AgentPay.PaidRequests

/-!
# Purchases are paid in full when the mark stands still

`buy` compares the claim with the price over a record it read earlier, and the
admission compares it with the mark it finds under the row lock. A purchase is
therefore admitted for its price exactly when the mark has not moved in between.
In every run in which that holds at each admission, the mark of a session grows
by at least the prices of its purchases.
-/
namespace AgentPay.PaidInFull
open SolanaRuntime EscrowState ClaimMessage GatewayClaims EvidenceLog SessionStore PolicyRules ControlPlane
open PaidRequests RequestPool Fallible Runs

/-- The record of a purchase was read at a mark its claim pays the price above. -/
def Priced (r : Request) : Prop :=
  ∀ record resource price, r.stage.record? = some record → r.kind = .buy resource price →
    record.cumulativeAccepted.toNat + price.toNat = r.claim.cumulativeAmount.toNat

section Paid
variable {cfg : Config} {s s' : Shared} {r : Request} {stage : Stage}

theorem priced_next (h : Next cfg s r s' stage) (hp : Priced r) :
    Priced { r with stage := stage } := by
  intro record resource price hrec hkind
  cases h with
  | priced hstage hk hget hsum =>
    rw [hk] at hkind
    cases hkind
    cases hrec
    exact hsum
  | verified _ hk _ =>
    rw [hk] at hkind
    cases hkind
  | unregistered hstage _ | unrestricted hstage _ _ _ | identified hstage _ _ _
  | evaluated hstage _ _ _ | approving hstage _ _ _ | approved hstage =>
    cases hrec
    exact hp record resource price (by rw [hstage]; rfl) hkind
  | idle => exact hp record resource price hrec hkind
  | _ => cases hrec

theorem priced_step {g g' : Gateway} {l : GatewayLabel} (h : GatewayStep cfg g l g')
    (hp : Each (fun _ r => Priced r) g) : Each (fun _ r => Priced r) g' := by
  refine Step.each h hp ?_ ?_ (fun _ _ _ hx => hx)
  · intro r ha record resource price hrec
    rw [arrives_record ha] at hrec
    cases hrec
  · intro n r r' _ _ hm hr
    obtain ⟨he, hn⟩ := move_next hm
    rw [he]
    exact priced_next hn hr

end Paid

section Prices
variable (key : Pubkey)

/-- The price of an admitted purchase on the session. It counts whether the
resource is still to be forwarded, was served, or was lost on the way. -/
def paidPrice (r : Request) : ℕ :=
  match r.kind with
  | .buy _ price => if r.claim.session = key ∧ r.stage.accepted? ≠ none then price.toNat else 0
  | .verify => 0

/-- The amount a purchase was admitted for is its price. -/
def PaysPrice (r : Request) : Prop :=
  ∀ record acc resource price, r.claim.session = key → r.kind = .buy resource price →
    r.stage.accepted? = some (record, acc) → acc.delta = price

/-- A purchase on the session is about to be admitted while the mark is still
the one its record was read at. -/
def Candidate.MarkUnmoved (db : Database) (c : Candidate) : Prop :=
  c.request.kind ≠ .verify → c.request.claim.session = key →
    c.record.cumulativeAccepted.toNat = db.mark key

instance (db : Database) (c : Candidate) : Decidable (Candidate.MarkUnmoved key db c) :=
  inferInstanceAs (Decidable (c.request.kind ≠ .verify → c.request.claim.session = key →
    c.record.cumulativeAccepted.toNat = db.mark key))

/-- The side condition on a step: where it admits a purchase on the session, the mark is the one
the purchase read. -/
def MarkUnmoved (cfg : Config) (g : Gateway) (l : GatewayLabel) : Prop :=
  ∀ c ∈ candidate? cfg g l, Candidate.MarkUnmoved key g.shared.db c

instance (cfg : Config) (g : Gateway) (l : GatewayLabel) : Decidable (MarkUnmoved key cfg g l) :=
  inferInstanceAs (Decidable (∀ c ∈ candidate? cfg g l, Candidate.MarkUnmoved key g.shared.db c))

end Prices

section Admissions
variable {cfg : Config} {s s' : Shared} {r : Request} {stage : Stage} {key : Pubkey}
variable {record : SessionRecord} {clearance : Clearance} {resource : Text} {price : UInt64}
variable {db : Database} {acc : ClaimAccepted}

/-- The amount admitted is the price exactly when the mark has not moved. -/
theorem delta_eq_price_iff (hp : Priced r) (hstage : r.stage = .cleared record clearance)
    (hkind : r.kind = .buy resource price)
    (hok : admitClaim cfg.sha256 s.db r.claim r.signature r.now = .ok (db, .ok acc)) :
    acc.delta = price ↔ record.cumulativeAccepted.toNat = s.db.mark r.claim.session := by
  have hsum := hp record resource price (by rw [hstage]; rfl) hkind
  cases admitClaim_effect hok with
  | accepted ha =>
    have hm := ha.mark
    rw [← UInt64.toNat_inj]
    omega

theorem kind_of_ne_verify {k : Kind} (h : k ≠ .verify) :
    ∃ resource price, k = .buy resource price := by
  cases k with
  | buy resource price => exact ⟨resource, price, rfl⟩
  | verify => exact absurd rfl h

/-- A move that admits nothing leaves the price counted for the request. -/
theorem paidPrice_same (h : stage.accepted? = r.stage.accepted?) :
    paidPrice key { r with stage := stage } = paidPrice key r := by
  simp only [paidPrice, h]

theorem paidPrice_other (h : r.kind = .verify ∨ r.claim.session ≠ key) : paidPrice key r = 0 := by
  unfold paidPrice
  rcases h with h | h
  · rw [h]
  · split
    · rw [if_neg (fun hc => h hc.1)]
    · rfl

/-- An admission on an unmoved mark adds its price to the mark. -/
theorem paidPrice_admitted (hp : Priced r) (hstage : r.stage = .cleared record clearance)
    (hok : admitClaim cfg.sha256 s.db r.claim r.signature r.now = .ok (db, .ok acc))
    (hc : Candidate.MarkUnmoved key s.db ⟨r, record, clearance⟩) :
    paidPrice key { r with stage := .admitted record acc } + s.db.mark key ≤ db.mark key := by
  have hgrow := (admitClaim_effect hok).grows.mark key
  by_cases hon : r.kind = .verify ∨ r.claim.session ≠ key
  · have hnone : paidPrice key { r with stage := .admitted record acc } = 0 := paidPrice_other hon
    omega
  · rw [not_or, not_not] at hon
    obtain ⟨hbuy, hses⟩ := hon
    obtain ⟨resource, price, hk⟩ := kind_of_ne_verify hbuy
    have hmark : record.cumulativeAccepted.toNat = s.db.mark key := hc hbuy hses
    have hsum := hp record resource price (by rw [hstage]; rfl) hk
    have hafter : db.mark key = r.claim.cumulativeAmount.toNat := by
      cases admitClaim_effect hok with
      | accepted ha => rw [ha.mark_after key, if_pos hses.symm]
    have hpaid : paidPrice key { r with stage := .admitted record acc } = price.toNat := by
      simp [paidPrice, hk, hses, Stage.accepted?]
    omega

/-- A move adds at most as much to the prices as it adds to the mark. -/
theorem paidPrice_next (h : Next cfg s r s' stage) (hp : Priced r)
    (hc : ∀ record clearance db acc, r.stage = .cleared record clearance →
      admitClaim cfg.sha256 s.db r.claim r.signature r.now = .ok (db, .ok acc) →
      Candidate.MarkUnmoved key s.db ⟨r, record, clearance⟩) :
    paidPrice key { r with stage := stage } + s.db.mark key ≤
      paidPrice key r + s'.db.mark key := by
  rcases next_accepted h with hsame | ⟨record, clearance, db, acc, hstage, hok, rfl, rfl⟩
  · have hgrow := (next_grows h).mark key
    rw [paidPrice_same hsame]
    omega
  · have hpaid := paidPrice_admitted hp hstage hok (hc record clearance db acc hstage hok)
    exact hpaid.trans (Nat.le_add_left _ _)

theorem paysPrice_next (h : Next cfg s r s' stage) (hp : Priced r) (hpays : PaysPrice key r)
    (hc : ∀ record clearance db acc, r.stage = .cleared record clearance →
      admitClaim cfg.sha256 s.db r.claim r.signature r.now = .ok (db, .ok acc) →
      Candidate.MarkUnmoved key s.db ⟨r, record, clearance⟩) :
    PaysPrice key { r with stage := stage } := by
  intro record acc resource price hses hkind hacc
  rcases next_accepted h with hsame | ⟨record', clearance, db, acc', hstage, hok, rfl, rfl⟩
  · exact hpays record acc resource price hses hkind (hsame.symm.trans hacc)
  · cases hacc
    have hmark : record.cumulativeAccepted.toNat = s.db.mark key :=
      hc record clearance db acc hstage hok (by simp only at hkind; simp [hkind]) hses
    refine (delta_eq_price_iff hp hstage hkind hok).mpr ?_
    rw [hmark]
    exact congrArg _ hses.symm

end Admissions

/-- Every purchase of the session was admitted for its price, and the prices
were added to the mark. -/
structure Paid (key : Pubkey) (start : ℕ) (g : Gateway) : Prop where
  priced : Each (fun _ r => Priced r) g
  pays : Each (fun _ r => PaysPrice key r) g
  covered : start + total (paidPrice key) g.requests ≤ g.shared.db.mark key

section Steps
variable {cfg : Config} {g g' : Gateway} {l : GatewayLabel} {key : Pubkey} {start : ℕ}

theorem candidate_of_unmoved {n : ℕ} {r : Request} (hr : g.requests[n]? = some r)
    (hc : MarkUnmoved key cfg g (.advance n)) (record : SessionRecord) (clearance : Clearance)
    (db : Database) (acc : ClaimAccepted) (hstage : r.stage = .cleared record clearance)
    (hok : admitClaim cfg.sha256 g.shared.db r.claim r.signature r.now = .ok (db, .ok acc)) :
    Candidate.MarkUnmoved key g.shared.db ⟨r, record, clearance⟩ :=
  hc _ (candidate?_eq hr hstage hok)

theorem paysPrice_step (h : GatewayStep cfg g l g') (hp : Paid key start g)
    (hc : MarkUnmoved key cfg g l) : Each (fun _ r => PaysPrice key r) g' := by
  refine Step.each h hp.pays ?_ ?_ (fun _ _ _ hx => hx)
  · intro r ha record acc resource price _ _ hacc
    rw [arrives_accepted ha] at hacc
    cases hacc
  · rintro n r r' rfl hr hm hpays
    obtain ⟨he, hn⟩ := move_next hm
    rw [he]
    exact paysPrice_next hn (hp.priced n r hr) hpays (candidate_of_unmoved hr hc)

theorem covered_step (h : GatewayStep cfg g l g') (hp : Paid key start g)
    (hc : MarkUnmoved key cfg g l) :
    start + total (paidPrice key) g'.requests ≤ g'.shared.db.mark key := by
  have hcov := hp.covered
  cases h with
  | @arrive s rs r ha =>
    have hzero : paidPrice key r = 0 := by
      unfold paidPrice
      rw [arrives_accepted ha]
      split <;> simp
    simp only [total_append, hzero, Nat.add_zero]
    exact hcov
  | @advance s s' rs r r' n hr hm =>
    obtain ⟨he, hn⟩ := move_next hm
    have hnext := paidPrice_next hn (hp.priced n r hr) (candidate_of_unmoved (g := ⟨s, rs⟩) hr hc)
    rw [← he] at hnext
    have hset := total_set (paidPrice key) r' hr
    simp only at hcov ⊢
    omega
  | @outside s s' rs e ho =>
    have hgrow := (outside_grows ho).mark key
    exact hcov.trans hgrow

theorem paid_step (h : GatewayStep cfg g l g') (hp : Paid key start g)
    (hc : MarkUnmoved key cfg g l) : Paid key start g' :=
  ⟨priced_step h hp.priced, paysPrice_step h hp hc, covered_step h hp hc⟩

end Steps

/-- In every run whose admissions on the session find the mark they were priced
at, each purchase is admitted for its price and the mark grows by all of them. -/
theorem purchases_paid_in_full {cfg : Config} {g₀ g : Gateway}
    {h : History Gateway GatewayLabel} {key : Pubkey} (hr : Run (GatewayStep cfg) g₀ h g)
    (h₀ : g₀.requests = []) (hc : ∀ t ∈ h, MarkUnmoved key cfg t.before t.label) :
    (∀ r ∈ g.requests, PaysPrice key r) ∧
      g₀.shared.db.mark key + total (paidPrice key) g.requests ≤ g.shared.db.mark key := by
  have hstart : Paid key (g₀.shared.db.mark key) g₀ := by
    refine ⟨.of_idle h₀, .of_idle h₀, ?_⟩
    simp [h₀, total]
  have hpaid : Paid key (g₀.shared.db.mark key) g :=
    hr.invariant (C := MarkUnmoved key cfg) (fun s l t hs hc hstep => paid_step hstep hs hc)
      hstart hc
  refine ⟨?_, hpaid.covered⟩
  intro r hmem
  obtain ⟨n, hn⟩ := List.getElem?_of_mem hmem
  exact hpaid.pays n r hn

/-! ### A concrete shop

One agent with a key pair of its own, two sessions of 10000, and the signatures
and hashes the real functions give for the claims below. -/
namespace Shop

def agent : Pubkey := sampleAgent

def session : Pubkey := .filled 20
def otherSession : Pubkey := .filled 22

/-- The agent's signature over the claim for 500 with nonce 1 and expiry 4000. -/
def signature500 : Signature := #v[83, 230, 249, 75, 161, 124, 28, 217, 14, 119, 66, 88, 212, 179,
  115, 184, 37, 67, 14, 89, 194, 13, 188, 160, 77, 141, 99, 9, 7, 124, 93, 202, 73, 225, 37, 32,
  209, 7, 215, 197, 218, 1, 24, 5, 70, 63, 17, 120, 132, 6, 154, 103, 81, 203, 148, 129, 69, 233,
  138, 137, 189, 47, 238, 14]

/-- Over the claim for 1000 with nonce 2 and expiry 4000. -/
def signature1000 : Signature := #v[159, 87, 165, 223, 203, 39, 186, 168, 201, 129, 172, 200, 197,
  230, 111, 64, 34, 74, 103, 51, 196, 24, 253, 230, 186, 149, 101, 60, 138, 92, 201, 130, 209, 232,
  47, 122, 234, 54, 183, 69, 69, 159, 101, 242, 96, 237, 121, 16, 91, 181, 110, 10, 141, 163, 84,
  126, 37, 130, 17, 157, 227, 205, 188, 1]

/-- Over the claim for 600 on the other session with nonce 1 and expiry 4000. -/
def signature600 : Signature := #v[186, 216, 180, 70, 99, 57, 129, 118, 8, 195, 16, 240, 169, 40,
  218, 147, 128, 249, 65, 168, 239, 100, 218, 84, 76, 148, 147, 142, 231, 28, 99, 243, 101, 137,
  121, 152, 231, 33, 238, 183, 176, 190, 58, 63, 115, 147, 243, 87, 91, 154, 109, 252, 54, 64, 57,
  10, 240, 13, 216, 175, 24, 243, 136, 7]

def entry500 : Hash := #v[174, 205, 128, 27, 188, 172, 238, 225, 209, 197, 12, 196, 182, 44, 140,
  215, 131, 242, 112, 152, 206, 73, 41, 207, 250, 166, 141, 147, 205, 149, 39, 72]

def entry1000 : Hash := #v[57, 171, 42, 35, 51, 10, 140, 81, 142, 136, 227, 228, 224, 143, 115, 116,
  11, 179, 160, 13, 39, 22, 101, 88, 197, 6, 195, 76, 202, 130, 152, 227]

def entry600 : Hash := #v[0, 160, 106, 42, 116, 254, 10, 56, 21, 68, 235, 199, 192, 248, 216, 37,
  221, 31, 109, 124, 160, 165, 159, 208, 74, 85, 72, 237, 228, 141, 216, 224]

def claim500 : Claim := ⟨session, 500, 1, 4000⟩
def claim1000 : Claim := ⟨session, 1000, 2, 4000⟩
def claim600 : Claim := ⟨otherSession, 600, 1, 4000⟩

/-- SHA-256 on the three log entries that occur. -/
def sha256 (message : List UInt8) : Hash :=
  if message = zeroHash.toList ++ session.toList ++ u64LeBytes 500 ++ u64LeBytes 1 ++
      Decision.allowed.asStr then entry500
  else if message = entry500.toList ++ session.toList ++ u64LeBytes 1000 ++ u64LeBytes 2 ++
      Decision.allowed.asStr then entry1000
  else entry600

/-- The agent signed these claims and no others. -/
def verifyClaimSignature (signer : Pubkey) (claim : Claim) (signature : Signature) : Bool :=
  signer = agent && ((claim, signature) ∈ [(claim500, signature500), (claim1000, signature1000),
    (claim600, signature600)])

def config : Config := ⟨false, sha256, verifyClaimSignature⟩

def record (session : Pubkey) : SessionRecord :=
  .new session agent (.filled 3) (.filled 9) 10000 5000

/-- No sessions, no agents, no requests. -/
def idle : Gateway := ⟨⟨.empty, ⟨[], []⟩⟩, []⟩

def buy (price : UInt64) (claim : Claim) (signature : Signature) : Request :=
  ⟨.buy ['/', 'a'] price, claim, signature, 2000, ['1'], .received⟩

/-- Both purchases are priced before either is admitted. -/
def overlapping : History Gateway GatewayLabel × Gateway := playGateway config idle
  [.advance 1, .advance 0, .advance 1, .advance 0, .advance 1, .advance 0, .advance 1, .advance 0,
    .arrive (buy 1000 claim1000 signature1000), .arrive (buy 500 claim500 signature500),
    .outside (.openSession (record session))]

/-- The second purchase arrives when the first is served. -/
def consecutive : History Gateway GatewayLabel × Gateway := playGateway config idle
  [.advance 1, .advance 1, .advance 1, .advance 1, .arrive (buy 500 claim1000 signature1000),
    .advance 0, .advance 0, .advance 0, .advance 0, .arrive (buy 500 claim500 signature500),
    .outside (.openSession (record session))]

end Shop

/-- Two purchases of 500, one after the other. -/
theorem purchases_paid_in_full_consecutive :
    total (paidPrice Shop.session) Shop.consecutive.2.requests = 1000 ∧
      (∀ r ∈ Shop.consecutive.2.requests, PaysPrice Shop.session r) ∧
      1000 ≤ Shop.consecutive.2.shared.db.mark Shop.session := by
  have hrun : Run (GatewayStep Shop.config) Shop.idle Shop.consecutive.1 Shop.consecutive.2 :=
    playGateway_run _ _ _
  have hc : ∀ t ∈ Shop.consecutive.1, MarkUnmoved Shop.session Shop.config t.before t.label := by
    decide +kernel
  have htotal : total (paidPrice Shop.session) Shop.consecutive.2.requests = 1000 := by
    decide +kernel
  obtain ⟨hpays, hcov⟩ := purchases_paid_in_full hrun rfl hc
  rw [htotal] at hcov
  exact ⟨htotal, hpays, (Nat.le_add_left _ _).trans hcov⟩

/-- Purchases of 500 and 1000 priced against the same mark: both are served, the
second was admitted for 500, and the prices exceed what the mark grew by. -/
theorem overlapping_purchases_underpaid :
    Run (GatewayStep Shop.config) Shop.idle Shop.overlapping.1 Shop.overlapping.2 ∧
      Shop.overlapping.2.requests.map Request.stage =
        [.served (Shop.record Shop.session) ⟨500, 0, 500, 1⟩,
          .served (Shop.record Shop.session) ⟨1000, 500, 500, 2⟩] ∧
      (∃ r ∈ Shop.overlapping.2.requests, ¬ PaysPrice Shop.session r) ∧
      ¬ Shop.idle.shared.db.mark Shop.session +
          total (paidPrice Shop.session) Shop.overlapping.2.requests ≤
        Shop.overlapping.2.shared.db.mark Shop.session := by
  refine ⟨playGateway_run _ _ _, by decide +kernel, ?_, by decide +kernel⟩
  refine ⟨{ Shop.buy 1000 Shop.claim1000 Shop.signature1000 with
    stage := .served (Shop.record Shop.session) ⟨1000, 500, 500, 2⟩ }, by decide +kernel, ?_⟩
  intro hpays
  have hdelta := hpays (Shop.record Shop.session) ⟨1000, 500, 500, 2⟩ _ _ rfl rfl rfl
  exact absurd hdelta (by decide)

end AgentPay.PaidInFull
